import OneFass.Terminator.Snapshot

set_option autoImplicit false

namespace OneFass.Terminator

open Runtime Client Xml OrderedMap

-- the body of either loop, without the requirements that `kill_running` adds up
def visit (config : Config) (now : Int) (vm : VMObject) : Call → Except Fault (Option Request)
  | .killPending uid => do
      let _ ← checkInt64 (now - vm.birth)
      return (Call.killPending uid).request config now vm
  | .killRunning uid ttl =>
      if vm.start = 0 then return none
      else do
        let _ ← checkInt64 (now - vm.start)
        return (Call.killRunning uid ttl).request config now vm

def loop (config : Config) (clock : Int → Int) (call : Call) : List VMObject → Totals →
    Except Fault (List Request × Totals)
  | [], totals => return ([], totals)
  | vm :: rest, totals => do
      let request ← visit config (clock vm.oid) vm call
      let (requests, after) ← loop config clock call rest (call.count totals vm)
      return (request.toList ++ requests, after)

-- `clock` is the time at which the call looks at a machine
def perform (config : Config) (parse : Parser) (server : Server) (clock : Int → Int) (call : Call)
    (before : Totals) : Except Fault (Int × List Request × Totals) :=
  match setUp parse server config.one_secret call.query Map.empty with
  | (_, .error fault) => .error fault
  | (objects, .ok rc) =>
      if rc ≠ 0 then .ok (rc, [], before)
      else do
        let (requests, after) ← loop config clock call (objects.entries.map Prod.snd) before
        return (0, requests, after)

section Loop

variable {config : Config} {clock : Int → Int} {call : Call}

def span (now : Int) (vm : VMObject) : Call → Option Int
  | .killPending _ => some (now - vm.birth)
  | .killRunning _ _ => if vm.start = 0 then none else some (now - vm.start)

theorem visit_eq_ok {now : Int} {vm : VMObject} {request : Option Request} :
    visit config now vm call = .ok request ↔
      (∀ value, span now vm call = some value → fits64 value) ∧
      call.request config now vm = request := by
  cases call with
  | killPending uid =>
      by_cases inside : fits64 (now - vm.birth) <;>
        simp [visit, checkInt64, span, inside, bind, Except.bind, pure, Except.pure]
  | killRunning uid ttl =>
      by_cases unknown : vm.start = 0
      · simp [visit, span, unknown, Call.request, runningRequest, pure, Except.pure]
      · by_cases inside : fits64 (now - vm.start) <;>
          simp [visit, checkInt64, span, unknown, inside, bind, Except.bind, pure, Except.pure]

theorem loop_eq_ok {vms : List VMObject} {before after : Totals} {requests : List Request} :
    loop config clock call vms before = .ok (requests, after) ↔
      (∀ vm ∈ vms, ∀ value, span (clock vm.oid) vm call = some value → fits64 value) ∧
        requests = vms.filterMap (fun vm => call.request config (clock vm.oid) vm) ∧
        after = vms.foldl (fun totals vm => call.count totals vm) before := by
  induction vms generalizing before requests after with
  | nil => simp [loop, pure, Except.pure, eq_comm]
  | cons vm rest ih =>
      constructor
      · intro ended
        simp only [loop, bind_eq_ok, visit_eq_ok] at ended
        obtain ⟨_, ⟨here, rfl⟩, ⟨later, totals⟩, continued, built⟩ := ended
        obtain ⟨inside, rfl, rfl⟩ := ih.mp continued
        simp only [pure, Except.pure, Except.ok.injEq, Prod.mk.injEq] at built
        obtain ⟨rfl, rfl⟩ := built
        refine ⟨List.forall_mem_cons.mpr ⟨here, inside⟩, ?_, rfl⟩
        rw [List.filterMap_cons]
        cases call.request config (clock vm.oid) vm <;> rfl
      · rintro ⟨inside, rfl, rfl⟩
        obtain ⟨here, later⟩ := List.forall_mem_cons.mp inside
        simp only [loop, bind_eq_ok, visit_eq_ok]
        refine ⟨_, ⟨here, rfl⟩, _, ih.mpr ⟨later, rfl, rfl⟩, ?_⟩
        rw [List.filterMap_cons]
        cases call.request config (clock vm.oid) vm <;> rfl

end Loop

section Readings

/-- What a path finds, without the default that `xpath` puts in its place. -/
def reading {α : Type} (read : Text → Option α) (path : List Name) (node : XmlNode) : Option α :=
  (xpaths path node).head?.bind read

theorem xpath_eq_reading {α : Type} (read : Text → Option α) (path : List Name) (default : α)
    (node : XmlNode) :
    xpath read path default node = (reading read path node).getD default := by
  cases found : xpaths path node <;> simp [xpath, reading, found]

def staticOf (node : XmlNode) : Option Int := reading readInt [.vm, .userTemplate, .staticVm] node

def birthOf (node : XmlNode) : Option Int := reading readInt64 [.vm, .stime] node

-- what the query finds: the first `STIME`, whichever history record it is in
def startOf (node : XmlNode) : Option Int :=
  reading readInt64 [.vm, .historyRecords, .history, .stime] node

def historyRecords (node : XmlNode) : List XmlNode :=
  XmlNode.select [.vm, .historyRecords, .history] node

/-- The `STIME` of the first history record. -/
def firstStart (node : XmlNode) : Option Int :=
  (historyRecords node).head?.bind fun record => reading readInt64 [.stime] record.children

theorem xpaths_start (node : XmlNode) : xpaths [.vm, .historyRecords, .history, .stime] node =
    (historyRecords node).flatMap fun record => xpaths [.stime] record.children := by
  simp only [xpaths, historyRecords, XmlNode.select, List.map_flatMap, List.flatMap_assoc]

theorem startOf_of_firstStart {node : XmlNode} {start : Int}
    (first : firstStart node = some start) :
    startOf node = some start := by
  rw [startOf, reading, xpaths_start]
  cases records : historyRecords node with
  | nil => simp [firstStart, records] at first
  | cons record later =>
      simp only [firstStart, records, List.head?_cons, Option.bind_some, reading] at first
      cases found : xpaths [.stime] record.children with
      | nil => simp [found] at first
      | cons text rest => simpa [found] using first

theorem birth_eq (node : XmlNode) : (VMObject.ofNode node).birth = (birthOf node).getD (-1) :=
  xpath_eq_reading _ _ _ _

theorem start_eq (node : XmlNode) : (VMObject.ofNode node).start = (startOf node).getD (-1) :=
  xpath_eq_reading _ _ _ _

theorem static_eq_zero {node : XmlNode} :
    (VMObject.ofNode node).static_vm = 0 ↔ staticOf node = some 0 := by
  have read : (VMObject.ofNode node).static_vm = (staticOf node).getD 1 := xpath_eq_reading _ _ _ _
  rw [read]
  cases staticOf node <;> simp

end Readings

section Document

def vmNodes (document : XmlNode) : List XmlNode := XmlNode.select [.vmPool, .vm] document

def oidOf (node : XmlNode) : Int := (VMObject.ofNode node).oid

def UniqueIds (document : XmlNode) : Prop :=
  (vmNodes document).Pairwise fun a b => oidOf a ≠ oidOf b

theorem mem_vmNodes {document node : XmlNode} (member : node ∈ vmNodes document) :
    ∃ attributes children, node = .element .vm attributes children .null := by
  obtain ⟨pool, _, inside⟩ := List.mem_flatMap.mp member
  exact mem_named inside

theorem objects_perm {document : XmlNode} (unique : UniqueIds document) (query : Query) :
    ((addObjects Map.empty (query.getNodes document)).entries.map Prod.snd).Perm
      (((query.getNodes document).filter validNode).map VMObject.ofNode) := by
  have apart : (((query.getNodes document).filter validNode).map entryOf).Pairwise
      fun a b => intOrder.Apart a.1 b.1 := by
    rw [List.pairwise_map]
    refine ((unique.sublist List.filter_sublist).sublist List.filter_sublist).imp ?_
    exact fun different => intOrder_total.apart different
  have perm := (Map.insertAll_empty_perm _ apart).map Prod.snd
  rw [List.map_map] at perm
  rw [addObjects_eq]
  exact perm

end Document

section Answered

variable {config : Config} {parse : Parser} {server : Server} {clock : Int → Int} {call : Call}
    {before : Totals}
  {document : XmlNode}

def Answers (config : Config) (parse : Parser) (server : Server) (document : XmlNode) : Prop :=
  fetchDocument parse server config.one_secret "one.vmpool.info".toList loadVmsParameters =
    .ok (some document)

theorem setUp_answered (answers : Answers config parse server document) (query : Query)
    (objects : Objects) :
    setUp parse server config.one_secret query objects =
      (addObjects Map.empty (query.getNodes document), .ok 0) := by
  rw [Answers] at answers
  simp only [setUp, answers]

theorem perform_answered (answers : Answers config parse server document) :
    perform config parse server clock call before = (do
      let (requests, after) ← loop config clock call
        ((addObjects Map.empty (call.query.getNodes document)).entries.map Prod.snd) before
      return (0, requests, after)) := by
  simp only [perform, setUp_answered answers, ne_eq, not_true_eq_false, ↓reduceIte]

def visited (document : XmlNode) (call : Call) : List XmlNode :=
  (call.query.getNodes document).filter validNode

theorem mem_visited {node : XmlNode} :
    node ∈ visited document call ↔ node ∈ vmNodes document ∧ call.query.holds node = true ∧
    validNode node = true := by
  simp only [visited, Query.getNodes, vmNodes, List.mem_filter, and_assoc]

theorem ne_nil_of_equalsNumber {name : Name} {value : Int} {node : XmlNode}
    (holds : equalsNumber [name] value node = true) : XmlNode.named name node.children ≠ [] := by
  intro nothing
  simp [equalsNumber, XmlNode.select, nothing] at holds

theorem validNode_of_two {node : XmlNode} {first second : Name} (different : first ≠ second)
    (one : XmlNode.named first node.children ≠ [])
    (other : XmlNode.named second node.children ≠ []) :
    validNode node = true := by
  cases node with
  | element name attributes children next =>
      cases children with
      | null => exact absurd rfl one
      | element own inner below later =>
          cases later with
          | null =>
              simp only [XmlNode.children, XmlNode.named] at one other
              split_ifs at one other with same again
              · exact absurd (same.symm.trans again) different
              all_goals contradiction
          | _ => rfl
      | text content later => cases later <;> first | rfl | exact absurd rfl one
      | cdata content later => cases later <;> first | rfl | exact absurd rfl one
  | _ => exact absurd rfl one

theorem visited_once (unique : UniqueIds document) {a b : XmlNode} (memberA : a ∈ vmNodes document)
    (memberB : b ∈ vmNodes document) (same : oidOf a = oidOf b) : a = b := by
  by_contra different
  have symmetric : Std.Symm fun a b => oidOf a ≠ oidOf b := ⟨fun _ _ => Ne.symm⟩
  exact unique.forall memberA memberB different same

structure Done (config : Config) (clock : Int → Int) (call : Call) (document : XmlNode)
    (before : Totals) (requests : List Request) (after : Totals) : Prop where
  inside : ∀ node ∈ visited document call, ∀ value,
    span (clock (oidOf node)) (VMObject.ofNode node) call = some value → fits64 value
  requested : ∀ request, request ∈ requests ↔ ∃ node ∈ visited document call,
    call.request config (clock (oidOf node)) (VMObject.ofNode node) = some request
  once : (requests.map Request.oid).Nodup
  counted : ∃ vms : List VMObject, vms.Perm ((visited document call).map VMObject.ofNode) ∧
    after = vms.foldl (fun totals vm => call.count totals vm) before

theorem filterMap_oid (vms : List VMObject) :
    ((vms.filterMap fun vm => call.request config (clock vm.oid) vm).map Request.oid).Sublist
      (vms.map VMObject.oid) := by
  induction vms with
  | nil => exact List.Sublist.slnil
  | cons vm rest ih =>
      cases issued : call.request config (clock vm.oid) vm with
      | none => simpa [issued] using ih.cons vm.oid
      | some request =>
          have about := (Call.request_eq_some issued).1
          simpa [issued, about] using ih

theorem perform_done {rc : Int} {requests : List Request} {after : Totals}
    (answers : Answers config parse server document) (unique : UniqueIds document)
    (ended : perform config parse server clock call before = .ok (rc, requests, after)) :
    rc = 0 ∧ Done config clock call document before requests after := by
  rw [perform_answered answers, bind_eq_ok] at ended
  obtain ⟨⟨issued, totals⟩, looped, returned⟩ := ended
  cases returned
  obtain ⟨inside, rfl, rfl⟩ := loop_eq_ok.mp looped
  have perm := objects_perm unique call.query
  refine ⟨rfl, ?_, ?_, ?_, _, perm, rfl⟩
  · intro node member
    exact inside _ (perm.mem_iff.mpr (List.mem_map_of_mem member))
  · intro request
    rw [List.mem_filterMap]
    constructor
    · rintro ⟨vm, member, issued⟩
      obtain ⟨node, looked, rfl⟩ := List.mem_map.mp (perm.mem_iff.mp member)
      exact ⟨node, looked, issued⟩
    · rintro ⟨node, looked, issued⟩
      exact ⟨_, perm.mem_iff.mpr (List.mem_map_of_mem looked), issued⟩
  · refine (filterMap_oid _).nodup ?_
    rw [(perm.map VMObject.oid).nodup_iff, List.map_map, List.nodup_iff_pairwise_ne,
      List.pairwise_map]
    exact (unique.sublist List.filter_sublist).sublist List.filter_sublist

theorem perform_returns (answers : Answers config parse server document)
    (unique : UniqueIds document)
    (inside : ∀ node ∈ visited document call, ∀ value,
      span (clock (oidOf node)) (VMObject.ofNode node) call = some value → fits64 value) :
    ∃ requests after, perform config parse server clock call before = .ok (0, requests, after) := by
  have perm := objects_perm unique call.query
  let vms := (addObjects Map.empty (call.query.getNodes document)).entries.map Prod.snd
  have looped : loop config clock call vms before = .ok
      (vms.filterMap (fun vm => call.request config (clock vm.oid) vm),
        vms.foldl (fun totals vm => call.count totals vm) before) := by
    refine loop_eq_ok.mpr ⟨?_, rfl, rfl⟩
    intro vm member
    obtain ⟨node, looked, rfl⟩ := List.mem_map.mp (perm.mem_iff.mp member)
    exact inside node looked
  exact ⟨_, _, by rw [perform_answered answers, looped]; rfl⟩

end Answered

def leaf (name : Name) (content : String) (next : XmlNode) : XmlNode :=
  .element name [] (.text content.toList .null) next

def poolOf (machines : XmlNode) : XmlNode := .element .vmPool [] machines .null

end OneFass.Terminator
