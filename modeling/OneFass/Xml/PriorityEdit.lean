import OneFass.Xml.Splice
import OneFass.Xml.Priorities

set_option autoImplicit false

namespace OneFass.Xml

open Runtime XmlNode

def machine (attributes : Attributes) (children : XmlNode) : XmlNode :=
  .element .vm attributes children .null

def machineText (children : XmlNode) : Text := serialize (machine [] children)

def Plain (prio : Text) : Prop := ∀ c ∈ prio, escapeChar c = [c]

def priorityElement (prio : Text) : XmlNode := .element .userPriority [] (.text prio .null) .null

def SetsPriority (attributes : Attributes) (children : XmlNode) (prio : Text) : Prop :=
  ∃ edited,
    queueNode prio (VMObject.ofNode (machine attributes children)) =
      .ok (serialize (machine attributes edited)) ∧
    priorities edited = [priorityElement prio] ∧ withoutPriority edited = withoutPriority children

section Texts

def upTo (before : XmlNode) (attributes : Attributes) (first : XmlNode) : Text :=
  vmOpen ++ serialize before ++ startTag .userTemplate attributes ++ serialize first

def onwards (last after : XmlNode) : Text :=
  serialize last ++ endTag .userTemplate ++ serialize after ++ vmClose

theorem machineText_eq {children : XmlNode} (inhabited : children ≠ .null) :
    machineText children = vmOpen ++ serialize children ++ vmClose := by
  rw [machineText, machine, serialize_element _ _ _ inhabited, serialize_null, List.append_nil]
  rfl

theorem machineText_template (before : XmlNode) (attributes : Attributes) {inner : XmlNode}
    (after : XmlNode) (inhabited : inner ≠ .null) :
    machineText (before ++ .element .userTemplate attributes inner after) =
      upTo before attributes .null ++ serialize inner ++ onwards .null after := by
  rw [machineText_eq (by cases before <;> simp), serialize_append,
    serialize_element _ _ _ inhabited]
  simp [upTo, onwards]

theorem machineText_priority (before : XmlNode) (attributes : Attributes) (first : XmlNode)
    (own : Attributes) (content last after : XmlNode) :
    machineText (before ++ .element .userTemplate attributes
      (first ++ .element .userPriority own content last) after) =
      upTo before attributes first ++ serialize (.element .userPriority own content .null) ++
      onwards last after := by
  rw [machineText_template _ _ _ (by cases first <;> simp), serialize_append, serialize_next]
  simp [upTo, onwards]

theorem serialize_priorityElement {prio : Text} (plain : Plain prio) :
    serialize (priorityElement prio) = prioNode prio := by
  have verbatim : escapeText prio = prio := by
    induction prio with
    | nil => rfl
    | cons c rest ih =>
        have others := ih fun d member => plain d (List.mem_cons_of_mem _ member)
        simp only [escapeText, List.flatMap_cons, plain c List.mem_cons_self] at others ⊢
        rw [others]
        rfl
  rw [priorityElement, serialize_element _ _ _ (by simp)]
  simp only [serialize, verbatim, List.append_nil]
  rfl

end Texts

section Dump

def headerTail : Text := "?xml version=\"1.0\"?>\n".toList

theorem find_header (text : Text) (start : vmOpen <+: text) :
    find ('<' :: headerTail ++ text) vmOpen = some (headerTail.length + 1) := by
  have missed : ¬ vmOpen <+: '<' :: (headerTail ++ text) := by
    rintro ⟨rest, same⟩
    exact absurd (List.cons.inj (List.cons.inj same).2).1 (by decide)
  have skipped := @Search.indexOf_append_of_notMem _ _ '<' ['V', 'M', '>'] headerTail text
    (by decide)
  have first : Search.indexOf vmOpen text = some 0 := Search.indexOf_of_prefix start
  have rest : Search.indexOf vmOpen (headerTail ++ text) = some headerTail.length := by
    refine skipped.trans ?_
    rw [show '<' :: ['V', 'M', '>'] = vmOpen from rfl, first]
    simp
  rw [find, List.cons_append, Search.indexOf, if_neg missed, rest]
  rfl

theorem dumpNode_machine {children : XmlNode} (inhabited : children ≠ .null) {close : Nat}
    (found : find (machineText children) vmClose = some close) :
    dumpNode (machine [] children) = .ok ((machineText children).take (close + 5)) := by
  have opened : vmOpen <+: machineText children ++ ['\n'] := by
    rw [machineText_eq inhabited, List.append_assoc, List.append_assoc]
    exact List.prefix_append _ _
  have bound := find_bound found
  rw [vmClose_length] at bound
  have closed : find (machineText children ++ ['\n']) vmClose = some close :=
    Search.indexOf_append _ found
  have document : dump (machine [] children) =
      '<' :: headerTail ++ (machineText children ++ ['\n']) :=
    List.append_assoc _ _ _
  have body : ('<' :: headerTail ++ (machineText children ++ ['\n'])).drop (headerTail.length + 1) =
      machineText children ++ ['\n'] := List.drop_left' rfl
  simp only [dumpNode, document, find_header _ opened, eraseUpTo, body, closed, past, eraseFrom]
  rw [if_neg (by simp; omega), List.take_append_of_le_length bound]

theorem dumpNode_starts {document : XmlNode} {node : Text} (dumped : dumpNode document = .ok node) :
    vmOpen <+: node := by
  simp only [dumpNode] at dumped
  cases found : find (dump document) vmOpen with
  | none =>
      have raises : eraseFrom [] (past (find [] vmClose) 5) = .error (.raised .outOfRange) := by
        decide
      simp [found, eraseUpTo, raises] at dumped
  | some position =>
      obtain ⟨occurs, _, _⟩ := (Search.indexOf_eq_some_iff _ _ _).mp found
      simp only [found, eraseUpTo, eraseFrom] at dumped
      split_ifs at dumped with outside
      cases dumped
      refine List.prefix_take_iff.mpr ⟨occurs, ?_⟩
      rw [vmOpen_length]
      cases find ((dump document).drop position) vmClose <;> simp [past]

end Dump

section Edit

variable {prio node piece : Text}

theorem setPriority_insert (absent : ¬ priorityWord <:+: node) {position : Nat}
    (found : find node templateOpen = some position) :
    setPriority prio node = .ok (node.take (position + 15) ++ prioNode prio ++ node.drop
      (position + 15)) := by
  have bound := find_bound found
  rw [templateOpen_length] at bound
  rw [setPriority, if_neg (by rwa [find_isSome_iff]), insertAt_eq_ok]
  simp [found, past, bound]

theorem word_of_open (present : priorityOpen <:+: node) : priorityWord <:+: node := by
  have inside : priorityWord <:+: priorityOpen := by decide
  exact inside.trans present

-- what the replacement leaves: nothing behind the new element when the erased span ends before it
-- starts
def behind (node : Text) (start stop : Nat) : Text := if stop < start then [] else node.drop stop

theorem setPriority_replace {start : Nat} (found : find node priorityOpen = some start) :
    setPriority prio node = .ok (node.take start ++ prioNode prio ++
      behind node start (past (find node priorityClose) 16)) := by
  have bound := find_bound found
  have present : priorityOpen <:+: node := find_isSome_iff.mp (by rw [found]; rfl)
  have short : (node.take start).length = start := by simp; omega
  rw [setPriority, if_pos (find_isSome_iff.mpr (word_of_open present)), found]
  simp only [eraseSpan, behind, if_neg (show ¬ node.length < start by omega)]
  split_ifs with backwards <;> simp only [bind_eq_ok, Except.ok.injEq, exists_eq_left',
    insertAt_eq_ok]
  · simp; omega
  · rw [List.take_left' short, List.drop_left' short]
    simp; omega

end Edit

section Places

-- nothing looks like a priority, and the first user template found is a child that is not empty
def Inserts (children : XmlNode) : Prop :=
  ¬ priorityWord <:+: machineText children ∧
  ∃ before content after close, children = before ++ .element .userTemplate [] content after ∧
    content ≠ .null ∧
    find (machineText children) templateOpen = some (vmOpen ++ serialize before).length ∧
    find (machineText children) vmClose = some close ∧ close + 5 = (machineText children).length

-- the first priority tag is that of a child, and what follows the first end tag is what follows it
def Replaces (children : XmlNode) : Prop :=
  ∃ before attributes first content last after stop close,
    children = before ++ .element .userTemplate attributes
      (first ++ .element .userPriority [] content last) after ∧
    priorities before = [] ∧ first.named .userPriority = [] ∧
    find (machineText children) priorityOpen = some (upTo before attributes first).length ∧
    find (machineText children) priorityClose = some stop ∧
    find (machineText children) vmClose = some close ∧
    (upTo before attributes first).length < stop ∧
    ((machineText children).take (close + 5)).drop (stop + 16) =
      onwards (last.without .userPriority) (withoutPriority after)

variable {children : XmlNode} {prio : Text}

theorem queueNode_machine (inhabited : children ≠ .null) {close : Nat}
    (found : find (machineText children) vmClose = some close) :
    queueNode prio (VMObject.ofNode (machine [] children)) =
      setPriority prio ((machineText children).take (close + 5)) := by
  have dumped := dumpNode_machine inhabited found
  simp only [queueNode, VMObject.ofNode, dumped, bind, Except.bind]

theorem machineText_edited (plain : Plain prio) (before : XmlNode) (attributes : Attributes)
    (first last after : XmlNode) :
    machineText (before ++ .element .userTemplate attributes
        (first ++ .element .userPriority [] (.text prio .null) last) after) =
      upTo before attributes first ++ prioNode prio ++ onwards last after := by
  rw [machineText_priority, ← serialize_priorityElement plain]
  rfl

theorem priorities_edited {before first last after : XmlNode} (attributes : Attributes)
    (prio : Text) (noneBefore : priorities before = [])
    (absentFirst : first.named .userPriority = []) (absentLast : last.named .userPriority = [])
    (noneAfter : priorities after = []) :
    priorities (before ++ .element .userTemplate attributes
      (first ++ .element .userPriority [] (.text prio .null) last) after) =
        [priorityElement prio] := by
  simp [priorities_template, noneBefore, absentFirst, absentLast, noneAfter, named, priorityElement]

theorem word_of_machine (inhabited : children ≠ .null) (present : priorities children ≠ []) :
    priorityWord <:+: machineText children := by
  rw [machineText_eq inhabited]
  exact (word_of_priorities present).trans ⟨vmOpen, vmClose, rfl⟩

theorem Inserts.sets (inserts : Inserts children) (plain : Plain prio) :
    SetsPriority [] children prio := by
  obtain ⟨absent, before, content, after, close, rfl, inhabited, found, closed, whole⟩ := inserts
  have some : before ++ .element .userTemplate [] content after ≠ .null := by cases before <;> simp
  have start : (upTo before [] .null).length = (vmOpen ++ serialize before).length + 15 := by
    simp [upTo, show startTag .userTemplate [] = templateOpen from rfl, templateOpen_length,
      Nat.add_assoc]
  refine ⟨before ++ .element .userTemplate []
    (.null ++ .element .userPriority [] (.text prio .null) content) after, ?_, ?_, ?_⟩
  · rw [queueNode_machine some closed, whole, List.take_length, setPriority_insert absent found,
      ← start]
    change _ = Except.ok (machineText _)
    rw [machineText_edited plain, machineText_template before [] after inhabited,
      List.append_assoc (upTo before [] .null), List.take_left, List.drop_left]
    simp [onwards]
  · have none : priorities (before ++ .element .userTemplate [] content after) = [] := by
      by_contra present
      exact absent (word_of_machine some present)
    simp only [priorities_append, priorities_template, List.append_eq_nil_iff] at none
    exact priorities_edited [] prio none.1 rfl none.2.1 none.2.2
  · simp [withoutPriority, without]

theorem take_drop_of_close {text : Text} {close : Nat} (found : find text vmClose = some close) :
    (text.take (close + 5)).length = close + 5 := by
  have bound := find_bound found
  rw [vmClose_length] at bound
  simp [bound]

theorem Replaces.sets (replaces : Replaces children) (plain : Plain prio) :
    SetsPriority [] children prio := by
  obtain ⟨before, attributes, first, content, last, after, stop, close, rfl, noneBefore,
    absentFirst, opened, ended, closed, order, rest⟩ := replaces
  have some : before ++ .element .userTemplate attributes
      (first ++ .element .userPriority [] content last) after ≠ .null := by cases before <;> simp
  have long : stop + 16 < close + 5 := by
    by_contra short
    have nothing := congrArg List.length rest
    rw [List.length_drop, take_drop_of_close closed] at nothing
    simp [onwards, vmClose_length] at nothing
    omega
  refine ⟨before ++ .element .userTemplate attributes
    (first ++ .element .userPriority [] (.text prio .null) (last.without .userPriority))
      (withoutPriority after),
    ?_, ?_, ?_⟩
  · have text := machineText_priority before attributes first [] content last after
    have bound : (upTo before attributes first).length ≤ close + 5 := by omega
    have cut : find _ priorityOpen = _ :=
      @Search.indexOf_take _ _ _ _ _ opened (close + 5) (by rw [priorityOpen_length]; omega)
    have kept : find _ priorityClose = _ :=
      @Search.indexOf_take _ _ _ _ _ ended (close + 5) (by rw [priorityClose_length]; omega)
    rw [queueNode_machine some closed, setPriority_replace cut, kept, past, behind,
      if_neg (by omega), rest, List.take_take, Nat.min_eq_left bound]
    change _ = Except.ok (machineText _)
    rw [machineText_edited plain, text,
      List.append_assoc (upTo before attributes first) (serialize _), List.take_left]
  · exact priorities_edited attributes prio noneBefore absentFirst (named_without last)
      (priorities_withoutPriority after)
  · have once : (last.without .userPriority).without .userPriority = last.without .userPriority :=
      without_of_absent (named_without last)
    simp [withoutPriority, without, once, withoutPriority_of_none]

example : queueNode "0.5".toList (VMObject.ofNode (machine []
      (.element .userTemplate [] (.element .userPriority []
        (.text "1".toList .null) .null) .null))) =
    .ok "<VM><USER_TEMPLATE><USER_PRIORITY>0.5</USER_PRIORITY></USER_TEMPLATE></VM>".toList := by
  decide +kernel

end Places

end OneFass.Xml
