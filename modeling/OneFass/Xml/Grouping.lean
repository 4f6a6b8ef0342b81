import OneFass.Xml.AcctPool

set_option autoImplicit false

namespace OneFass.Xml.AcctPool

open Runtime Client OrderedMap

def stored (document : XmlNode) (uid : Int) : Option (List AcctObject) :=
  let nodes := userNodes document uid
  if nodes ≠ [] ∧ nodes.all validNode then some (nodes.map AcctObject.ofNode) else none

section Find

variable {document : XmlNode} {objects : AcctObjects} {uid other : Int}

theorem addUser_stored : addUser document objects uid =
    match stored document uid with
    | some records => objects.insert uid records
    | none => objects := by
  simp only [addUser, makeUserObject, stored, List.isEmpty_iff]
  by_cases empty : userNodes document uid = []
  · simp [empty]
  · by_cases valid : (userNodes document uid).all validNode = true
    · simp only [empty, valid, ↓reduceIte, ne_eq, not_false_eq_true, and_self]
    · simp only [empty, valid, ↓reduceIte, and_false, Bool.false_eq_true]

theorem find_addUser : (addUser document objects uid).find other =
    if other = uid then (objects.find uid).or (stored document uid) else objects.find other := by
  rw [addUser_stored]
  cases stored document uid with
  | none =>
      split_ifs with same
      · simp [same]
      · rfl
  | some records =>
      simp only [Map.find_insert intOrder_total]
      cases objects.find uid <;> rfl

theorem find_addUsers {uids : List Int} : (uids.foldl (addUser document) objects).find other =
    if other ∈ uids then (objects.find other).or (stored document other)
    else objects.find other := by
  induction uids generalizing objects with
  | nil => simp
  | cons uid rest ih =>
      rw [List.foldl_cons, ih, find_addUser]
      by_cases same : other = uid
      · subst same
        cases objects.find other <;> cases stored document other <;> simp
      · simp [same]

end Find

def validRecords (document : XmlNode) (uid : Int) : List AcctObject :=
  ((userNodes document uid).filter validNode).map AcctObject.ofNode

def Grouped (document : XmlNode) (uids : List Int) (objects : AcctObjects) : Prop :=
  (∀ uid ∈ uids, get objects uid = validRecords document uid) ∧ ∀ uid, uid ∉ uids →
    get objects uid = []

theorem setUp_fetched {parse : Parser} {server : Server} {auth : Text} {time_start : Int}
    {document : XmlNode}
    (fetched : fetchDocument parse server auth "one.vmpool.accounting".toList
      (loadAcctParameters time_start) =
      .ok (some document)) (uids : List Int) (earlier : AcctObjects) :
    setUp parse server auth uids time_start earlier =
      (uids.foldl (addUser document) Map.empty, .ok 0) := by
  simp only [setUp, fetched]

section Records

variable {document : XmlNode} {uid : Int} {uids : List Int}

theorem get_addUsers : get (uids.foldl (addUser document) Map.empty) uid =
    if uid ∈ uids then (stored document uid).getD [] else [] := by
  rw [get, find_addUsers]
  split_ifs <;> simp

theorem stored_eq_iff : (stored document uid).getD [] = validRecords document uid ↔
    (∀ node ∈ userNodes document uid, validNode node = true) ∨
      ∀ node ∈ userNodes document uid, validNode node = false := by
  simp only [stored, validRecords]
  split_ifs with kept
  · have valid := List.all_eq_true.mp kept.2
    rw [List.filter_eq_self.mpr valid]
    exact ⟨fun _ => Or.inl valid, fun _ => rfl⟩
  · constructor
    · intro none
      refine Or.inr fun node member => ?_
      have filtered := List.map_eq_nil_iff.mp none.symm
      simpa using List.filter_eq_nil_iff.mp filtered node member
    · intro uniform
      have nothing : (userNodes document uid).filter validNode = [] := by
        rw [List.filter_eq_nil_iff]
        intro node member
        rcases uniform with all | none
        · exact absurd ⟨List.ne_nil_of_mem member, List.all_eq_true.mpr all⟩ kept
        · simp [none node member]
      simp [nothing]

end Records

theorem grouped_iff (parse : Parser) (server : Server) (auth : Text) (uids : List Int)
    (time_start : Int) (earlier : AcctObjects) (document : XmlNode)
    (fetched : fetchDocument parse server auth "one.vmpool.accounting".toList
      (loadAcctParameters time_start) = .ok (some document)) :
    Grouped document uids (setUp parse server auth uids time_start earlier).1 ↔
      ∀ uid ∈ uids, (∀ node ∈ userNodes document uid, validNode node = true) ∨
        ∀ node ∈ userNodes document uid, validNode node = false := by
  rw [setUp_fetched fetched]
  constructor
  · rintro ⟨listed, _⟩ uid member
    have found := listed uid member
    rw [get_addUsers, if_pos member] at found
    exact stored_eq_iff.mp found
  · intro uniform
    constructor
    · intro uid member
      rw [get_addUsers, if_pos member]
      exact stored_eq_iff.mpr (uniform uid member)
    · intro uid absent
      rw [get_addUsers, if_neg absent]

section Example

def record (rest : XmlNode) : XmlNode :=
  .element .history [] (.element .vm []
    (.element .uid [] (.text "5".toList .null) .null) rest) .null

def oddHistory : XmlNode :=
  .element .historyRecords [] (record (.element .stime [] (.text "20".toList .null) .null) ++
    record .null) .null

theorem grouped_iff_oddHistory :
    Grouped oddHistory [5, 6]
        (setUp (knowing oddHistory) (answering oddHistory) [] [5, 6] 0 Map.empty).1 ↔
      ∀ uid ∈ [(5 : Int), 6], (∀ node ∈ userNodes oddHistory uid, validNode node = true) ∨
        ∀ node ∈ userNodes oddHistory uid, validNode node = false :=
  grouped_iff (knowing oddHistory) (answering oddHistory) [] [5, 6] 0 Map.empty oddHistory
    (fetchDocument_answering oddHistory _ _ _)

theorem oddHistory_not_grouped :
    (setUp (knowing oddHistory) (answering oddHistory) [] [5, 6] 0 Map.empty).2 = .ok 0 ∧
      get (setUp (knowing oddHistory) (answering oddHistory) [] [5, 6] 0 Map.empty).1 5 = [] ∧
      (validRecords oddHistory 5).map AcctObject.start_time = [20] ∧
      ¬ Grouped oddHistory [5, 6]
        (setUp (knowing oddHistory) (answering oddHistory) [] [5, 6] 0 Map.empty).1 := by
  have lost : get (setUp (knowing oddHistory) (answering oddHistory) [] [5, 6] 0 Map.empty).1 5 =
      [] := by decide +kernel
  have kept : (validRecords oddHistory 5).map AcctObject.start_time = [20] := by decide +kernel
  refine ⟨rfl, lost, kept, ?_⟩
  rintro ⟨listed, _⟩
  have found := listed 5 (by decide)
  rw [lost] at found
  simp [← found] at kept

end Example

end OneFass.Xml.AcctPool
