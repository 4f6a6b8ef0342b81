import OneFass.Shared.FloatText
import OneFass.Shared.Machine
import OneFass.Pm.Queue
import OneFass.Xml.AcctPool

set_option autoImplicit false

namespace OneFass.Pm

open Runtime Client OrderedMap ExactPower Xml

structure ManagerConfig where
  one_secret : Text
  manager_timer : Int
  period : Int
  n_periods : Int

structure ManagerState where
  vmpool : Objects
  acctpool : AcctObjects
  user_list : List User
  priorities : Priorities
  queue : Text

structure Round where
  server : Server
  timestamp : Int
  update : List User → VMObject → Except Fault (FloatValue Scaled)

section Cycle

variable (config : ManagerConfig) (parse : Parser) (format : FloatValue Scaled → Text)

def historicalUsage (server : Server) (timestamp : Int) (state : ManagerState) :
    Except Fault (AcctObjects × List User) := do
  let uids : List Int := state.user_list.map fun user => (user.userID.toNat : Int)
  let period_s ← checkInt (config.manager_timer * config.period)
  let periods ← checkInt (config.n_periods + 1)
  let span ← checkInt (period_s * periods)
  let time_start := timestamp - span
  let (acctpool, rc) := AcctPool.setUp parse server config.one_secret uids time_start state.acctpool
  -- a failed fetch is only logged
  let _ ← rc
  let user_list ← AcctPool.evalUsage acctpool state.user_list time_start timestamp period_s
    config.n_periods
  return (acctpool, user_list)

def cycle (round : Round) (state : ManagerState) : Except Fault ManagerState := do
  let (vmpool, rc) := setUp parse round.server config.one_secret (.pending none) state.vmpool
  -- here too
  let _ ← rc
  let (acctpool, user_list) ← historicalUsage config parse round.server round.timestamp state
  let priorities ← prioritizeAll (round.update user_list) vmpool state.priorities
  let queue ← makeQueue format vmpool priorities
  return ⟨vmpool, acctpool, user_list, Map.empty, queue⟩

def step (state : ManagerState) (round : Round) : Option ManagerState :=
  (cycle config parse format round state).toOption

end Cycle

def ManagerState.initial (user_list : List User) : ManagerState :=
  ⟨Map.empty, Map.empty, user_list, Map.empty, queueOpen ++ queueClose⟩

def Round.fairShare (server : Server) (timestamp : Int)
    (narrow : FloatValue Scaled → FloatValue Scaled) (plugin_debug : Int) : Round :=
  ⟨server, timestamp, fun user_list =>
    updateWith narrow (BasicPlugin.evaluateTotalUsage user_list) user_list plugin_debug⟩

theorem fairShare_prioritizes (server : Server) (timestamp : Int)
    (narrow : FloatValue Scaled → FloatValue Scaled) (plugin_debug : Int) (user_list : List User)
    (objects : Objects) (priorities : Priorities) :
    prioritizeAll ((Round.fairShare server timestamp narrow plugin_debug).update user_list) objects
    priorities =
      doPrioritize narrow user_list plugin_debug objects priorities := rfl

section Published

variable {config : ManagerConfig} {parse : Parser} {format : FloatValue Scaled → Text}

def fetched (config : ManagerConfig) (parse : Parser) (round : Round) (before : ManagerState) :
    Objects × Except Fault Int :=
  setUp parse round.server config.one_secret (.pending none) before.vmpool

structure Published (config : ManagerConfig) (parse : Parser) (format : FloatValue Scaled → Text)
    (round : Round) (before after : ManagerState) : Prop where
  -- whatever the pool held before
  pool : ∀ earlier, after.vmpool = (setUp parse round.server config.one_secret
    (.pending none) earlier).1
  cleared : after.priorities = Map.empty
  queue : ∃ (listed : List (FloatValue Scaled × VMObject)) (pieces : List Text),
    after.queue = queueOpen ++ pieces.flatten ++ queueClose ∧
    List.Forall₂ (fun entry piece => queueNode (format entry.1) entry.2 = .ok piece) listed pieces ∧
    (∀ entry ∈ listed, after.vmpool.find entry.2.oid = some entry.2 ∧
      round.update after.user_list entry.2 = .ok entry.1) ∧
    listed.Pairwise (fun a b => a.2.oid ≠ b.2.oid) ∧
    listed.Pairwise (fun a b => FloatValue.lt Scaled.lt b.1 a.1 = true) ∧
    ((fetched config parse round before).2 ≠ .ok 0 → listed = [])

theorem prioritized_entries {update : VMObject → Except Fault (FloatValue Scaled)}
    {objects : Objects} (keyed : Keyed objects) {priorities : Priorities}
    (prioritized : prioritizeAll update objects Map.empty = .ok priorities) :
    ∃ vms : List VMObject, vms.Subperm (machines objects) ∧
      vms.map (entryFor (rated update)) = priorities.entries ∧
      ∀ vm ∈ vms, update vm = .ok (rated update vm) := by
  obtain ⟨defined, rfl⟩ := prioritizeAll_eq_ok.mp prioritized
  obtain ⟨vms, kept, entries⟩ := @kept_entries objects (rated update) keyed
  refine ⟨vms, kept, entries, ?_⟩
  intro vm member
  obtain ⟨prio, updated⟩ := defined vm (kept.subset member)
  simp [rated, updated]

theorem empty_of_failed {round : Round} {before : ManagerState}
    (failed : (fetched config parse round before).2 ≠ .ok 0) :
    (fetched config parse round before).1 = Map.empty := by
  simp only [fetched, setUp] at failed ⊢
  split
  · rfl
  · rfl
  · simp_all

theorem listed_once {objects : Objects} (keyed : Keyed objects) {vms : List VMObject}
    (kept : vms.Subperm (machines objects)) : vms.Pairwise fun a b => a.oid ≠ b.oid := by
  obtain ⟨middle, perm, sub⟩ := kept
  have distinct := (machines_pairwise keyed).sublist sub
  exact (perm.pairwise_iff fun different => different.symm).mp distinct

theorem cycle_publishes {round : Round} {before after : ManagerState}
    (cleared : before.priorities = Map.empty)
    (completed : cycle config parse format round before = .ok after) :
    Published config parse format round before after := by
  simp only [cycle, bind_eq_ok] at completed
  obtain ⟨rc, _, ⟨acctpool, user_list⟩, _, priorities, prioritized, queue, made, left⟩ := completed
  simp only [pure, Except.pure, Except.ok.injEq] at left
  subst left
  rw [cleared] at prioritized
  have keyed : Keyed (fetched config parse round before).1 := (built_setUp _ _ _ _ _).keyed
  obtain ⟨vms, kept, entries, updated⟩ := prioritized_entries keyed prioritized
  have inside : ∀ vm ∈ vms, vm ∈ machines (fetched config parse round before).1 := fun vm member =>
    kept.subset member
  have listing := makeQueue_listed keyed format inside entries
  rw [fetched] at listing
  rw [listing, map_eq_ok] at made
  obtain ⟨pieces, joined, rfl⟩ := made
  refine ⟨fun _ => rfl, rfl, vms.map fun vm => (rated (round.update user_list) vm, vm), pieces, rfl,
    ?_, ?_, ?_, ?_, ?_⟩
  · rw [List.forall₂_map_left_iff]
    exact mapAll_eq_ok.mp joined
  · intro entry member
    obtain ⟨vm, listed, rfl⟩ := List.mem_map.mp member
    exact ⟨machine_found keyed (inside vm listed), updated vm listed⟩
  · rw [List.pairwise_map]
    exact listed_once keyed kept
  · rw [List.pairwise_map]
    have sorted := priorities.sorted
    rw [← entries, List.pairwise_map] at sorted
    exact sorted
  · intro failed
    rw [empty_of_failed failed] at kept
    simp [List.subperm_nil.mp kept]

theorem step_eq_some {state after : ManagerState} {round : Round} :
    step config parse format state round = some after ↔
    cycle config parse format round state = .ok after := by
  simp only [step]
  cases cycle config parse format round state <;> simp [Except.toOption]

theorem run_cleared {users : List User} {rounds : List Round} {before : ManagerState}
    (reached : Machine.run (step config parse format) (ManagerState.initial users) rounds =
      some before) :
    before.priorities = Map.empty := by
  apply Machine.run_preserves (fun state => state.priorities = Map.empty) ?_ rfl reached
  intro state round after cleared taken
  exact (cycle_publishes cleared (step_eq_some.mp taken)).cleared

theorem lookups_found {update : VMObject → Except Fault (FloatValue Scaled)} {objects : Objects}
    (keyed : Keyed objects) {priorities : Priorities}
    (prioritized : prioritizeAll update objects Map.empty = .ok priorities) :
    ∀ entry ∈ priorities.entries, ∃ vm, objects.find entry.2 = some vm ∧ vm.oid = entry.2 := by
  obtain ⟨vms, kept, entries, _⟩ := prioritized_entries keyed prioritized
  rw [← entries]
  intro entry member
  obtain ⟨vm, listed, rfl⟩ := List.mem_map.mp member
  exact ⟨vm, machine_found keyed (kept.subset listed), rfl⟩

theorem published_queue (config : ManagerConfig) (parse : Parser)
    (format : FloatValue Scaled → Text) (users : List User) (rounds : List Round)
    (before : ManagerState)
    (reached : Machine.run (step config parse format) (ManagerState.initial users) rounds =
      some before)
    (round : Round) :
    (∀ after, cycle config parse format round before = .ok after →
        Published config parse format round before after) ∧
      ∀ user_list priorities,
        prioritizeAll (round.update user_list)
        (fetched config parse round before).1 before.priorities =
            .ok priorities →
          ∀ entry ∈ priorities.entries, ∃ vm,
            (fetched config parse round before).1.find entry.2 = some vm ∧ vm.oid = entry.2 := by
  have cleared := run_cleared reached
  constructor
  · intro after completed
    exact cycle_publishes cleared completed
  · intro user_list priorities prioritized
    rw [cleared] at prioritized
    exact lookups_found (built_setUp _ _ _ _ _).keyed prioritized

end Published

section Example

def pendingNode (id : Text) : XmlNode :=
  .element .vm [] (.element .id [] (.text id .null) <| .element .state []
    (.text "1".toList .null) <| .element .userTemplate [] (.text "x".toList .null) .null) .null

def pendingPool : XmlNode :=
  .element .vmPool [] (pendingNode "7".toList ++ pendingNode "9".toList) .null

def byId (server : Server) : Round := ⟨server, 0, fun _ vm => .ok (.finite (Scaled.ofRat vm.oid))⟩

def prioText : FloatValue Scaled → Text
  | .finite prio => floatText (prio.coefficient * 2 ^ prio.exponent.floor)
  | .infinite negative => if negative then "-inf".toList else "inf".toList
  | .nan => "nan".toList

theorem pendingPool_published_queue :
    let config : ManagerConfig := ⟨[], 60, 10, 3⟩
    let parse : Parser := knowing pendingPool
    let format : FloatValue Scaled → Text := prioText
    ∃ before after, Machine.run (step config parse format) (ManagerState.initial [])
          [byId (answering pendingPool), byId fun _ _ => .timeout] = some before ∧
      cycle config parse format (byId (answering pendingPool)) before = .ok after ∧
      Published config parse format (byId (answering pendingPool)) before after := by
  intro config parse format
  have runs : ((Machine.run (step config parse format) (ManagerState.initial [])
      [byId (answering pendingPool), byId fun _ _ => .timeout]).bind fun before =>
        step config parse format before (byId (answering pendingPool))).isSome =
          true := by decide +kernel
  obtain ⟨after, completes⟩ := Option.isSome_iff_exists.mp runs
  obtain ⟨before, reached, taken⟩ := Option.bind_eq_some_iff.mp completes
  have completed := step_eq_some.mp taken
  exact ⟨before, after, reached, completed,
    (published_queue config parse format [] _ before reached _).1 after completed⟩

end Example

end OneFass.Pm
