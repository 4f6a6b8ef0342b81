import OneFass.Terminator.Calls

set_option autoImplicit false

namespace OneFass.Terminator

open Runtime Client Xml OrderedMap

def demanded (action : Text) (oid : Int) : Option Request :=
  if action = kill then some (.terminate oid)
  else if action = suspend ∨ action = poweroff ∨ action = reboot then some (.operate action oid)
  else none

def ActiveOf (uid : Int) (node : XmlNode) : Prop :=
  equalsNumber [.state] 3 node = true ∧ equalsNumber [.uid] uid node = true

instance (uid : Int) (node : XmlNode) : Decidable (ActiveOf uid node) :=
  inferInstanceAs (Decidable (_ ∧ _))

structure Expired (clock : Int → Int) (uid ttl : Int) (node : XmlNode) : Prop where
  active : ActiveOf uid node
  dynamic : staticOf node = some 0
  lived : ∃ start, firstStart node = some start ∧ start ≠ 0 ∧ clock (oidOf node) - start > ttl

def activeNodes (document : XmlNode) (uid : Int) : List XmlNode :=
  (vmNodes document).filter fun node => decide (ActiveOf uid node)

structure EnforcesTtl (action : Text) (clock : Int → Int) (uid ttl : Int) (document : XmlNode)
    (before : Totals) (requests : List Request) (after : Totals) : Prop where
  exact : ∀ request, request ∈ requests ↔
    ∃ node ∈ vmNodes document, Expired clock uid ttl node ∧
      demanded action (oidOf node) = some request
  once : (requests.map Request.oid).Nodup
  cpu : after.cpu = before.cpu + ((activeNodes document uid).map fun node =>
    (VMObject.ofNode node).cpu).sum
  memory : after.memory =
    before.memory + ((activeNodes document uid).map fun node => (VMObject.ofNode node).memory).sum

/-- A machine whose age is taken from a later history record, or from the start time -1. -/
structure Startless (action : Text) (clock : Int → Int) (uid ttl : Int) (node : XmlNode) :
    Prop where
  active : ActiveOf uid node
  dynamic : staticOf node = some 0
  unknown : firstStart node = none
  supported : action = kill ∨ action = suspend ∨ action = poweroff ∨ action = reboot
  lived : (startOf node).getD (-1) ≠ 0 ∧ clock (oidOf node) - (startOf node).getD (-1) > ttl

theorem runningRequest_eq_some {action : Text} {ttl now : Int} {vm : VMObject} {request : Request} :
    runningRequest action ttl now vm = some request ↔
      vm.start ≠ 0 ∧ now - vm.start > ttl ∧ vm.static_vm = 0 ∧
      demanded action vm.oid = some request := by
  simp only [runningRequest, demanded]
  split_ifs <;> simp_all

theorem demanded_oid {action : Text} {oid : Int} {request : Request}
    (issued : demanded action oid = some request) : request.oid = oid := by
  simp only [demanded] at issued
  split_ifs at issued <;> cases issued <;> rfl

theorem demanded_of_supported {action : Text}
    (supported : action = kill ∨ action = suspend ∨ action = poweroff ∨ action = reboot)
    (oid : Int) :
    ∃ request, demanded action oid = some request := by
  by_cases killed : action = kill
  · exact ⟨.terminate oid, by simp [demanded, killed]⟩
  · exact ⟨.operate action oid, by simp [demanded, killed, supported.resolve_left killed]⟩

theorem supported_of_demanded {action : Text} {oid : Int} {request : Request}
    (issued : demanded action oid = some request) :
    action = kill ∨ action = suspend ∨ action = poweroff ∨ action = reboot := by
  simp only [demanded] at issued
  split_ifs at issued with killed operated
  · exact Or.inl killed
  · exact Or.inr operated

section Visited

variable {config : Config} {parse : Parser} {server : Server} {clock : Int → Int} {uid ttl : Int}
    {before : Totals}
  {document : XmlNode}

theorem visited_running : visited document (.killRunning uid ttl) = activeNodes document uid := by
  rw [visited, activeNodes, Call.query, Query.getNodes, List.filter_filter]
  refine List.filter_congr fun node _ => ?_
  by_cases active : ActiveOf uid node
  · have valid := validNode_of_two (by decide) (ne_nil_of_equalsNumber active.1)
      (ne_nil_of_equalsNumber active.2)
    simp [Query.holds, valid, active.1, active.2, active]
  · have rejected : (Query.running (some uid)).holds node = false := by
      simpa [Query.holds, ActiveOf] using active
    simp [rejected, active]

theorem mem_activeNodes {node : XmlNode} :
    node ∈ activeNodes document uid ↔ node ∈ vmNodes document ∧ ActiveOf uid node := by
  simp [activeNodes]

theorem foldl_totals (vms : List VMObject) (totals : Totals) :
    vms.foldl Totals.add totals =
      ⟨totals.cpu + (vms.map VMObject.cpu).sum, totals.memory + (vms.map VMObject.memory).sum⟩ := by
  induction vms generalizing totals with
  | nil => simp
  | cons vm rest ih =>
      rw [List.foldl_cons, ih]
      simp [Totals.add, add_assoc]

-- a machine is acted on when it has expired, or when its start time is unknown
theorem requested_running {action : Text} {node : XmlNode} {request : Request}
    (active : ActiveOf uid node) :
    runningRequest action ttl (clock (oidOf node)) (VMObject.ofNode node) = some request ↔
      demanded action (oidOf node) = some request ∧
        (Expired clock uid ttl node ∨ Startless action clock uid ttl node) := by
  rw [runningRequest_eq_some, static_eq_zero, start_eq]
  constructor
  · rintro ⟨known, lived, dynamic, issued⟩
    refine ⟨issued, ?_⟩
    cases first : firstStart node with
    | none => exact Or.inr ⟨active, dynamic, first, supported_of_demanded issued, known, lived⟩
    | some start =>
        rw [startOf_of_firstStart first, Option.getD_some] at known lived
        exact Or.inl ⟨active, dynamic, start, first, known, lived⟩
  · rintro ⟨issued, expired | startless⟩
    · obtain ⟨start, first, known, lived⟩ := expired.lived
      rw [startOf_of_firstStart first, Option.getD_some]
      exact ⟨known, lived, expired.dynamic, issued⟩
    · exact ⟨startless.lived.1, startless.lived.2, startless.dynamic, issued⟩

theorem totals_of_done {requests : List Request} {after : Totals}
    (done : Done config clock (.killRunning uid ttl) document before requests after) :
    after = ⟨before.cpu + ((activeNodes document uid).map fun node =>
      (VMObject.ofNode node).cpu).sum,
      before.memory + ((activeNodes document uid).map fun node =>
        (VMObject.ofNode node).memory).sum⟩ := by
  obtain ⟨vms, perm, rfl⟩ := done.counted
  have totals : vms.foldl (fun totals vm => (Call.killRunning uid ttl).count totals vm) before =
      _ :=
    foldl_totals vms before
  rw [visited_running] at perm
  rw [totals, (perm.map VMObject.cpu).sum_eq, (perm.map VMObject.memory).sum_eq, List.map_map,
    List.map_map]
  rfl

theorem not_startless_of_enforces {requests : List Request} {after : Totals}
    (unique : UniqueIds document)
    (done : Done config clock (.killRunning uid ttl) document before requests after)
    (enforced : EnforcesTtl config.action clock uid ttl document before requests after)
    {node : XmlNode} (member : node ∈ vmNodes document) :
    ¬ Startless config.action clock uid ttl node := by
  intro startless
  obtain ⟨request, issued⟩ := demanded_of_supported startless.supported (oidOf node)
  have looked : node ∈ visited document (.killRunning uid ttl) := by
    rw [visited_running]
    exact mem_activeNodes.mpr ⟨member, startless.active⟩
  have acted := (requested_running startless.active).mpr ⟨issued, Or.inr startless⟩
  have sent := (done.requested request).mpr ⟨node, looked, acted⟩
  obtain ⟨other, inside, expired, same⟩ := (enforced.exact request).mp sent
  have equal := visited_once unique inside member
    ((demanded_oid same).symm.trans (demanded_oid issued))
  obtain ⟨start, found, _⟩ := expired.lived
  rw [equal, startless.unknown] at found
  cases found

theorem requests_of_done {requests : List Request} {after : Totals}
    (done : Done config clock (.killRunning uid ttl) document before requests after)
    (known : ∀ node ∈ vmNodes document, ¬ Startless config.action clock uid ttl node)
    (request : Request) :
    request ∈ requests ↔
      ∃ node ∈ vmNodes document, Expired clock uid ttl node ∧
      demanded config.action (oidOf node) = some request := by
  rw [done.requested]
  simp only [visited_running, mem_activeNodes]
  constructor
  · rintro ⟨node, ⟨member, active⟩, acted⟩
    obtain ⟨issued, expired | startless⟩ := (requested_running active).mp acted
    · exact ⟨node, member, expired, issued⟩
    · exact absurd startless (known node member)
  · rintro ⟨node, member, expired, issued⟩
    exact ⟨node, ⟨member, expired.active⟩,
      (requested_running expired.active).mpr ⟨issued, Or.inl expired⟩⟩

theorem kill_running_exact_iff {requests : List Request} {after : Totals}
    (answers : Answers config parse server document) (unique : UniqueIds document)
    (ended : perform config parse server clock (.killRunning uid ttl) before =
      .ok (0, requests, after)) :
    EnforcesTtl config.action clock uid ttl document before requests after ↔
      ∀ node ∈ vmNodes document, ¬ Startless config.action clock uid ttl node := by
  obtain ⟨_, done⟩ := perform_done answers unique ended
  constructor
  · intro enforced node member
    exact not_startless_of_enforces unique done enforced member
  · intro known
    have totals := totals_of_done done
    constructor
    · exact requests_of_done done known
    · exact done.once
    · rw [totals]
    · rw [totals]

end Visited

def activeMachine (oid : String) (history : XmlNode) : XmlNode :=
  .element .vm [] (leaf .id oid <| leaf .uid "5" <| leaf .state "3" <|
    .element .userTemplate [] (leaf .staticVm "0" .null) history) .null

def historyFrom (start : String) : XmlNode :=
  .element .historyRecords [] (.element .history [] (leaf .stime start .null) .null) .null

theorem kill_running_exact_on_two_machines :
    let document := poolOf (activeMachine "7" (historyFrom "100") ++ activeMachine "8"
      (historyFrom "900"))
    let clock : Int → Int := fun _ => 1000
    perform ⟨[], [], 0, suspend⟩ (knowing document) (answering document) clock
      (.killRunning 5 500) .zero =
        .ok (0, [.operate suspend 7], .zero) ∧
      (EnforcesTtl suspend clock 5 500 document .zero [.operate suspend 7] .zero ↔
        ∀ node ∈ vmNodes document, ¬ Startless suspend clock 5 500 node) := by
  intro document clock
  have ended : perform ⟨[], [], 0, suspend⟩ (knowing document) (answering document) clock
    (.killRunning 5 500) .zero =
      .ok (0, [.operate suspend 7], .zero) := by
    decide +kernel
  have unique : UniqueIds document := by
    unfold UniqueIds
    decide +kernel
  exact ⟨ended, @kill_running_exact_iff ⟨[], [], 0, suspend⟩ (knowing document)
    (answering document) clock 5 500 .zero
    document _ _ (fetchDocument_answering document _ _ _) unique ended⟩

def laterFrom (start : String) : XmlNode :=
  .element .historyRecords [] (.element .history [] .null <| .element .history []
    (leaf .stime start .null) .null) .null

theorem kill_running_acts_on_unknown_start :
    let clock : Int → Int := fun _ => 1000
    let kills (document : XmlNode) : Prop := UniqueIds document ∧
      perform ⟨[], [], 0, kill⟩ (knowing document) (answering document) clock
        (.killRunning 5 500) .zero =
        .ok (0, [.terminate 8], .zero) ∧
      ¬ EnforcesTtl kill clock 5 500 document .zero [.terminate 8] .zero
    kills (poolOf (activeMachine "8" .null)) ∧
      kills (poolOf (activeMachine "8" (laterFrom "100"))) := by
  intro clock kills
  have spared (history : XmlNode) (unknown : firstStart (activeMachine "8" history) = none) :
      ¬ EnforcesTtl kill clock 5 500
        (poolOf (activeMachine "8" history)) .zero [.terminate 8] .zero := by
    intro enforced
    obtain ⟨node, member, expired, _⟩ := (enforced.exact (.terminate 8)).mp List.mem_cons_self
    have only : node = activeMachine "8" history := List.mem_singleton.mp member
    obtain ⟨start, found, _⟩ := expired.lived
    rw [only, unknown] at found
    cases found
  refine ⟨⟨List.pairwise_singleton _ _, ?_, spared _ ?_⟩, List.pairwise_singleton _ _, ?_,
    spared _ ?_⟩ <;>
    decide +kernel

end OneFass.Terminator
