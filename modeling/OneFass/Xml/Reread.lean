import OneFass.Xml.PriorityPlaces
import OneFass.Xml.VMPool

set_option autoImplicit false

namespace OneFass.Xml

open Runtime Client XmlNode OrderedMap

section Unchanged

theorem children_element (name : Name) (attributes : Attributes) (inner next : XmlNode) :
    (element name attributes inner next).children = inner := rfl

theorem named_withoutPriority {name : Name} (other : name ≠ .userTemplate) (children : XmlNode) :
    (withoutPriority children).named name = children.named name := by
  induction children with
  | null => rfl
  | element own attributes inner next _ ih =>
      by_cases template : own = .userTemplate
      · simp [withoutPriority, named, template, other.symm, ih]
      · simp only [withoutPriority, named, template, ↓reduceIte, ih]
  | text content next ih => exact ih
  | cdata content next ih => exact ih

theorem named_without_of_ne {name removed : Name} (other : name ≠ removed) (siblings : XmlNode) :
    (siblings.without removed).named name = siblings.named name := by
  induction siblings with
  | null => rfl
  | element own attributes inner next _ ih =>
      by_cases same : own = removed
      · simp [without, named, same, other.symm, ih]
      · simp only [without, named, same, ↓reduceIte, ih]
  | text content next ih => exact ih
  | cdata content next ih => exact ih

theorem template_withoutPriority {name : Name} (other : name ≠ .userPriority) (children : XmlNode) :
    select [.userTemplate, name] (withoutPriority children) =
      select [.userTemplate, name] children := by
  simp only [select]
  induction children with
  | null => rfl
  | element own attributes inner next _ ih =>
      by_cases template : own = .userTemplate
      · simp only [withoutPriority, named, template, ↓reduceIte, List.flatMap_cons,
          children_element, named_without_of_ne other, ih]
      · simp only [withoutPriority, named, template, ↓reduceIte, ih]
  | text content next ih => exact ih
  | cdata content next ih => exact ih

theorem isNull_withoutPriority (children : XmlNode) :
    (withoutPriority children).isNull = children.isNull := by
  cases children <;> rfl

theorem next_withoutPriority (children : XmlNode) :
    (withoutPriority children).next = withoutPriority children.next := by
  cases children <;> rfl

variable {children edited : XmlNode} (same : withoutPriority edited = withoutPriority children)
include same

theorem named_edited {name : Name} (other : name ≠ .userTemplate) :
    edited.named name = children.named name := by
  rw [← named_withoutPriority other edited, same, named_withoutPriority other]

theorem template_edited {name : Name} (other : name ≠ .userPriority) :
    select [.userTemplate, name] edited = select [.userTemplate, name] children := by
  rw [← template_withoutPriority other edited, same, template_withoutPriority other]

theorem select_edited {name : Name} (other : name ≠ .userTemplate) (rest : List Name) :
    select (name :: rest) edited = select (name :: rest) children := by
  cases rest with
  | nil => exact named_edited same other
  | cons second deeper => simp only [select, named_edited same other]

theorem equalsNumber_edited {name : Name} (other : name ≠ .userTemplate) (value : Int)
    (attributes : Attributes) :
    equalsNumber [name] value (machine attributes edited) =
      equalsNumber [name] value (machine attributes children) := by
  simp only [equalsNumber, machine, children_element, select_edited same other]

theorem holds_edited (query : Query) (attributes : Attributes) :
    query.holds (machine attributes edited) = query.holds (machine attributes children) := by
  have state (value : Int) := @equalsNumber_edited _ _ same .state (by decide) value attributes
  have lcm (value : Int) := @equalsNumber_edited _ _ same .lcmState (by decide) value attributes
  have resched (value : Int) := @equalsNumber_edited _ _ same .resched (by decide) value attributes
  have uid (value : Int) := @equalsNumber_edited _ _ same .uid (by decide) value attributes
  rcases query with (_ | _) | (_ | _) <;> simp only [Query.holds, waitsForScheduling, state, lcm,
    resched, uid]

theorem validNode_edited (attributes : Attributes) :
    validNode (machine attributes edited) = validNode (machine attributes children) := by
  simp only [validNode, machine, children_element]
  rw [← isNull_withoutPriority edited, ← isNull_withoutPriority edited.next, ← next_withoutPriority,
    same, next_withoutPriority, isNull_withoutPriority, isNull_withoutPriority]
  rfl

theorem xpath_edited {α : Type} (read : Text → Option α) {name : Name}
    (other : name ≠ .userTemplate) (rest : List Name) (default : α) (attributes : Attributes) :
    xpath read (.vm :: name :: rest) default (machine attributes edited) =
      xpath read (.vm :: name :: rest) default (machine attributes children) := by
  simp only [xpath, xpaths, machine, select, named, ↓reduceIte, List.flatMap_cons, List.flatMap_nil,
    children_element, select_edited same other]

theorem ofNode_edited (attributes : Attributes) :
    VMObject.ofNode (machine attributes edited) =
      { VMObject.ofNode (machine attributes children) with xml := machine attributes edited } := by
  have static : xpath readInt [.vm, .userTemplate, .staticVm] 1 (machine attributes edited) =
      xpath readInt [.vm, .userTemplate, .staticVm] 1 (machine attributes children) := by
    have unchanged := @template_edited _ _ same .staticVm (by decide)
    simp only [xpath, xpaths, machine, select, named, ↓reduceIte, List.flatMap_cons,
      List.flatMap_nil, children_element, List.append_nil] at unchanged ⊢
    rw [unchanged]
  simp only [VMObject.ofNode, static]
  congr 1 <;> exact xpath_edited same _ (by decide) _ _ _

end Unchanged

section Document

def siblings (nodes : List XmlNode) : XmlNode := nodes.foldr (· ++ ·) .null

def poolDocument (nodes : List XmlNode) : XmlNode := .element .vmPool [] (siblings nodes) .null

theorem serialize_siblings (nodes : List XmlNode) :
    serialize (siblings nodes) = (nodes.map serialize).flatten := by
  induction nodes with
  | nil => rfl
  | cons node rest ih =>
      rw [siblings, List.foldr_cons, serialize_append, List.map_cons, List.flatten_cons, ← ih]
      rfl

theorem named_siblings (inners : List XmlNode) :
    (siblings (inners.map (machine []))).named .vm = inners.map (machine []) := by
  induction inners with
  | nil => rfl
  | cons inner rest ih =>
      rw [List.map_cons, siblings, List.foldr_cons, named_append]
      exact congrArg (machine [] inner :: ·) ih

theorem getNodes_poolDocument {query : Query} {inners : List XmlNode}
    (selected : ∀ inner ∈ inners, query.holds (machine [] inner) = true) :
    query.getNodes (poolDocument (inners.map (machine []))) = inners.map (machine []) := by
  have every : select [.vmPool, .vm] (poolDocument (inners.map (machine []))) =
      inners.map (machine []) := by
    simp [select, poolDocument, named, children_element, named_siblings]
  rw [Query.getNodes, every, List.filter_eq_self]
  intro node member
  obtain ⟨inner, inside, rfl⟩ := List.mem_map.mp member
  exact selected inner inside

theorem setUp_selected {parse : Parser} {server : Server} {auth : Text} {search : Query}
    {objects : Objects} {entry : Int × VMObject}
    (member : entry ∈ (setUp parse server auth search objects).1.entries) :
    ∃ attributes children, entry = entryOf (machine attributes children) ∧
      validNode (machine attributes children) = true ∧
      search.holds (machine attributes children) = true := by
  simp only [setUp] at member
  split at member
  · simp at member
  · simp at member
  · rcases mem_addObjects member with old | ⟨node, inside, valid, rfl⟩
    · simp at old
    · obtain ⟨reached, holds⟩ := List.mem_filter.mp inside
      obtain ⟨pool, _, below⟩ := List.mem_flatMap.mp reached
      obtain ⟨attributes, children, rfl⟩ := mem_named below
      exact ⟨attributes, children, rfl, valid, holds⟩

def Serves (server : Server) (auth : Text) (queue : Text) : Prop :=
  ∃ rest, server "one.vmpool.info".toList (.string auth :: loadVmsParameters) =
    .success (.array (.boolean true :: .string queue :: rest))

theorem fetchDocument_served {parse : Parser} {server : Server} {auth queue : Text}
    {document : XmlNode} (serves : Serves server auth queue)
    (parsed : parse queue = some document) :
    fetchDocument parse server auth "one.vmpool.info".toList loadVmsParameters =
      .ok (some document) := by
  obtain ⟨rest, answered⟩ := serves
  have fetched : tryCall server auth "one.vmpool.info".toList loadVmsParameters =
      .ok (0, .array (.boolean true :: .string queue :: rest)) := by
    simp only [tryCall, call, answered, callAsync]
  have read : readResponse (.array (.boolean true :: .string queue :: rest)) = .ok (some queue) :=
    rfl
  simp only [fetchDocument, fetched, bind, Except.bind, ne_eq, not_true_eq_false, ↓reduceIte,
    openDocument, read, xmlParse, parsed]
  rfl

theorem setUp_poolDocument {parse : Parser} {server : Server} {auth queue : Text} {search : Query}
    {inners : List XmlNode} (serves : Serves server auth queue)
    (parsed : parse queue = some (poolDocument (inners.map (machine []))))
    (selected : ∀ inner ∈ inners, search.holds (machine [] inner) = true)
    (valid : ∀ inner ∈ inners, validNode (machine [] inner) = true)
    (unique : (inners.map (machine [])).Pairwise fun a b =>
      (VMObject.ofNode a).oid ≠ (VMObject.ofNode b).oid)
    (objects : Objects) :
    (setUp parse server auth search objects).2 = .ok 0 ∧
      (setUp parse server auth search objects).1.entries.Perm
      ((inners.map (machine [])).map entryOf) := by
  simp only [setUp, fetchDocument_served serves parsed, getNodes_poolDocument selected,
    addObjects_eq, true_and]
  have every : (inners.map (machine [])).filter validNode = inners.map (machine []) := by
    rw [List.filter_eq_self]
    intro node member
    obtain ⟨inner, inside, rfl⟩ := List.mem_map.mp member
    exact valid inner inside
  rw [every]
  apply Map.insertAll_empty_perm
  rw [List.pairwise_map]
  exact unique.imp fun different => intOrder_total.apart different

structure Reread (prio : Text) (vm read : VMObject) : Prop where
  fields : read = { vm with xml := read.xml }
  document : ∃ children edited, vm.xml = machine [] children ∧ read.xml = machine [] edited ∧
    priorities edited = [priorityElement prio] ∧ withoutPriority edited = withoutPriority children

theorem queueNode_reread {attributes : Attributes} {children : XmlNode} {prio piece : Text}
    (editable : Editable attributes children) (plain : Plain prio)
    (queued : queueNode prio (VMObject.ofNode (machine attributes children)) = .ok piece) :
    ∃ inner, piece = serialize (machine [] inner) ∧
      Reread prio (VMObject.ofNode (machine attributes children))
      (VMObject.ofNode (machine [] inner)) ∧
      validNode (machine [] inner) = validNode (machine attributes children) ∧
      ∀ query : Query,
        query.holds (machine [] inner) = query.holds (machine attributes children) := by
  obtain ⟨edited, done, single, same⟩ := editable.sets plain
  obtain ⟨rfl, _⟩ := editable
  rw [queued, Except.ok.injEq] at done
  have fields := ofNode_edited same []
  exact ⟨edited, done, ⟨fields, children, edited, rfl, rfl, single, same⟩, validNode_edited same [],
    fun query => holds_edited same query []⟩

end Document

end OneFass.Xml
