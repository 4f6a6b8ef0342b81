import OneFass.Shared.ExactPower
import OneFass.Client.XmlRpc
import OneFass.Xml.VMObject

set_option autoImplicit false

namespace OneFass.Xml

open Runtime Client OrderedMap ExactPower

abbrev Parser := Text → Option XmlNode

section Fetch

def tryCall (server : Server) (auth method : Text) (parameters : List Value) :
    Except Fault (Int × Value) :=
  match call server auth method parameters .unassigned with
  | .ok result => .ok (0, result)
  -- catch (exception const&)
  | .error (.raised _) => .ok (-1, .unassigned)
  | .error (.undefined hazard) => .error (.undefined hazard)

-- the decoding of a response: its text, or nothing when ONE says failure
def readResponse (result : Value) : Except Fault (Option Text) := do
  let values ← result.asArray
  let flag ← element values 0
  let success ← flag.asBoolean
  let payload ← element values 1
  let message ← payload.asString
  return if success then some message else none

def xmlParse (parse : Parser) (document : Text) : Except Fault XmlNode :=
  match parse document with
  | some tree => .ok tree
  | none => .error (.raised (.runtimeError "Error parsing XML Document"))

def openDocument (parse : Parser) (result : Value) : Except Fault (Option XmlNode) := do
  match ← readResponse result with
  | none => return none
  | some document =>
      let tree ← xmlParse parse document
      return some tree

/-- What the two `set_up` functions share: nothing stands for their exits with -1. -/
def fetchDocument (parse : Parser) (server : Server) (auth method : Text)
    (parameters : List Value) :
    Except Fault (Option XmlNode) := do
  let (rc, result) ← tryCall server auth method parameters
  if rc ≠ 0 then return none else openDocument parse result

def answering (document : XmlNode) : Server :=
  fun _ _ => .success (.array [.boolean true, .string (serialize document)])

def knowing (document : XmlNode) : Parser :=
  fun text => if text = serialize document then some document else none

theorem fetchDocument_answering (document : XmlNode) (auth method : Text)
    (parameters : List Value) :
    fetchDocument (knowing document) (answering document) auth method parameters =
      .ok (some document) := by
  have known : knowing document (serialize document) = some document := if_pos rfl
  have read : readResponse (.array [.boolean true, .string (serialize document)]) =
      .ok (some (serialize document)) := rfl
  have called : tryCall (answering document) auth method parameters =
      .ok (0, .array [.boolean true, .string (serialize document)]) := rfl
  simp only [fetchDocument, called, openDocument, read, xmlParse, known, bind, Except.bind, ne_eq,
    not_true_eq_false, ↓reduceIte]
  rfl

end Fetch

section Selection

inductive Query where
  | pending (uid : Option Int)
  | running (uid : Option Int)
  deriving DecidableEq

def waitsForScheduling (node : XmlNode) : Bool :=
  equalsNumber [.state] 1 node ||
    ((equalsNumber [.lcmState] 3 node || equalsNumber [.lcmState] 16 node) &&
      equalsNumber [.resched] 1 node)

def Query.holds : Query → XmlNode → Bool
  | .pending none, node => waitsForScheduling node
  | .pending (some uid), node => waitsForScheduling node && equalsNumber [.uid] uid node
  | .running none, node => equalsNumber [.state] 3 node
  | .running (some uid), node => equalsNumber [.state] 3 node && equalsNumber [.uid] uid node

def Query.getNodes (query : Query) (document : XmlNode) : List XmlNode :=
  (XmlNode.select [.vmPool, .vm] document).filter query.holds

end Selection

abbrev Objects := Map intOrder VMObject

def validNode (node : XmlNode) : Bool :=
  !node.isNull && !node.children.isNull && !node.children.next.isNull

def addObject (objects : Objects) (node : XmlNode) : Objects :=
  if validNode node then
    let vm := VMObject.ofNode node
    objects.insert vm.oid vm
  else objects

def addObjects (objects : Objects) (nodes : List XmlNode) : Objects := nodes.foldl addObject objects

def loadVmsParameters : List Value := [.int (-2), .int (-1), .int (-1), .int (-1)]

/-- `VMPool::set_up`: the pool it leaves, and how it ends. -/
def setUp (parse : Parser) (server : Server) (auth : Text) (search : Query) (_ : Objects) :
    Objects × Except Fault Int :=
  let flushed := Map.empty
  match fetchDocument parse server auth "one.vmpool.info".toList loadVmsParameters with
  | .error fault => (flushed, .error fault)
  | .ok none => (flushed, .ok (-1))
  | .ok (some document) => (addObjects flushed (search.getNodes document), .ok 0)

abbrev Priorities := Map greaterOrder Int

def queueOpen : Text := "<VM_POOL>".toList
def queueClose : Text := "</VM_POOL>".toList

-- A pool without the id gives a null pointer, whose node is then dumped.
def queuedNode (format : FloatValue Scaled → Text) (objects : Objects)
    (entry : FloatValue Scaled × Int) :
    Except Fault Text :=
  match objects.find entry.2 with
  | none => .error (.undefined .nullPointer)
  | some vm => queueNode (format entry.1) vm

/-- `VMPool::make_queue`; `format` is `boost::lexical_cast<std::string>` on a `float`. -/
def makeQueue (format : FloatValue Scaled → Text) (objects : Objects) (prios : Priorities) :
    Except Fault Text := do
  let nodes ← mapAll (queuedNode format objects) prios.entries
  return queueOpen ++ nodes.flatten ++ queueClose

def entryOf (node : XmlNode) : Int × VMObject := ((VMObject.ofNode node).oid, VMObject.ofNode node)

theorem addObjects_eq (objects : Objects) (nodes : List XmlNode) :
    addObjects objects nodes = objects.insertAll ((nodes.filter validNode).map entryOf) := by
  induction nodes generalizing objects with
  | nil => rfl
  | cons node rest ih =>
      rw [addObjects, List.foldl_cons]
      change addObjects (addObject objects node) rest = _
      rw [ih, addObject]
      by_cases valid : validNode node = true
      · simp [valid, entryOf]
      · simp [valid]

theorem mem_addObjects {objects : Objects} {nodes : List XmlNode} {entry : Int × VMObject}
    (member : entry ∈ (addObjects objects nodes).entries) :
    entry ∈ objects.entries ∨ ∃ node ∈ nodes, validNode node = true ∧ entry = entryOf node := by
  induction nodes generalizing objects with
  | nil => exact Or.inl member
  | cons node rest ih =>
      rcases ih member with earlier | ⟨later, inside, valid, built⟩
      · simp only [addObject] at earlier
        split_ifs at earlier with valid
        · rcases Map.mem_of_mem_insert earlier with rfl | old
          · exact Or.inr ⟨node, List.mem_cons_self, valid, rfl⟩
          · exact Or.inl old
        · exact Or.inl earlier
      · exact Or.inr ⟨later, List.mem_cons_of_mem _ inside, valid, built⟩

def Built (objects : Objects) : Prop := ∀ entry ∈ objects.entries, ∃ node, entry = entryOf node

theorem built_empty : Built Map.empty := by simp [Built]

theorem built_setUp (parse : Parser) (server : Server) (auth : Text) (search : Query)
    (objects : Objects) :
    Built (setUp parse server auth search objects).1 := by
  simp only [setUp]
  split
  · exact built_empty
  · exact built_empty
  · intro entry member
    rcases mem_addObjects member with old | ⟨node, _, _, built⟩
    · simp at old
    · exact ⟨node, built⟩

def Keyed (objects : Objects) : Prop := ∀ entry ∈ objects.entries, entry.1 = entry.2.oid

theorem Built.keyed {objects : Objects} (built : Built objects) : Keyed objects := by
  intro entry member
  obtain ⟨node, rfl⟩ := built entry member
  rfl

theorem Keyed.find {objects : Objects} (keyed : Keyed objects) {entry : Int × VMObject}
    (member : entry ∈ objects.entries) : objects.find entry.2.oid = some entry.2 := by
  rw [Map.find_eq_some_iff intOrder_total, ← keyed entry member]
  exact member

end OneFass.Xml
