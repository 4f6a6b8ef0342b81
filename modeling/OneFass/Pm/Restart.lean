import OneFass.Pm.FailedFetch

set_option autoImplicit false

namespace OneFass.Pm

open Runtime Client OrderedMap ExactPower Xml AcctPool

structure Alike (one other : ManagerState) : Prop where
  users : one.user_list.map User.flushUsage = other.user_list.map User.flushUsage
  priorities : one.priorities = other.priorities

variable {config : ManagerConfig} {parse : Parser} {format : FloatValue Scaled → Text}
    {one other : ManagerState}

theorem evalUsage_flushed (objects : AcctObjects) (user_list : List User)
    (time_start time_stop period num_periods : Int) :
    evalUsage objects (user_list.map User.flushUsage) time_start time_stop period num_periods =
      evalUsage objects user_list time_start time_stop period num_periods := mapAll_map _ _ _

theorem historicalUsage_alike (alike : Alike one other) (server : Server) (timestamp : Int) :
    historicalUsage config parse server timestamp one =
      historicalUsage config parse server timestamp other := by
  have uids : (one.user_list.map fun user => (user.userID.toNat : Int)) =
      other.user_list.map fun user => (user.userID.toNat : Int) := by
    have flushed := congrArg (List.map fun user : User => (user.userID.toNat : Int)) alike.users
    rwa [List.map_map, List.map_map] at flushed
  have evaluated (objects : AcctObjects) (time_start period : Int) :
      evalUsage objects one.user_list time_start timestamp period config.n_periods =
        evalUsage objects other.user_list time_start timestamp period config.n_periods := by
    rw [← evalUsage_flushed, alike.users, evalUsage_flushed]
  simp only [historicalUsage, uids, evaluated]
  rfl

theorem cycle_alike (alike : Alike one other) (round : Round) :
    cycle config parse format round one = cycle config parse format round other := by
  unfold cycle
  rw [historicalUsage_alike alike, alike.priorities]
  rfl

theorem postUsage_alike (alike : Alike one other) (server : Server) (timestamp : Int) :
    postUsage config parse server timestamp one =
      postUsage config parse server timestamp other := by
  unfold postUsage
  rw [historicalUsage_alike alike]

theorem cycle_users {round : Round} {before after : ManagerState}
    (completed : cycle config parse format round before = .ok after) :
    after.user_list.map User.flushUsage = before.user_list.map User.flushUsage := by
  obtain ⟨_, _, rest⟩ := bind_eq_ok.mp completed
  obtain ⟨⟨acctpool, users⟩, evaluated, rest⟩ := bind_eq_ok.mp rest
  obtain ⟨_, _, rest⟩ := bind_eq_ok.mp rest
  obtain ⟨_, _, ends⟩ := bind_eq_ok.mp rest
  cases ends
  obtain ⟨_, _, evaluated⟩ := bind_eq_ok.mp evaluated
  obtain ⟨_, _, evaluated⟩ := bind_eq_ok.mp evaluated
  obtain ⟨_, _, evaluated⟩ := bind_eq_ok.mp evaluated
  obtain ⟨_, _, evaluated⟩ := bind_eq_ok.mp evaluated
  obtain ⟨_, shape, ends⟩ := bind_eq_ok.mp evaluated
  cases ends
  rw [evalUsage_ok shape, List.map_map]
  rfl

theorem run_alike {users : List User} {rounds : List Round} {state : ManagerState}
    (reached : Machine.run (step config parse format) (ManagerState.initial users) rounds =
      some state) :
    Alike state (ManagerState.initial users) := by
  refine Machine.run_preserves (fun state => Alike state (ManagerState.initial users)) ?_ ⟨rfl,
    rfl⟩ reached
  intro before round after alike taken
  have completed := step_eq_some.mp taken
  exact ⟨(cycle_users completed).trans alike.users,
    (cycle_publishes alike.priorities completed).cleared⟩

/-- A round gives the same after any run as after a restart. -/
theorem round_after_restart (config : ManagerConfig) (parse : Parser)
    (format : FloatValue Scaled → Text) (users : List User) (rounds : List Round)
    (before : ManagerState)
    (reached : Machine.run (step config parse format) (ManagerState.initial users) rounds =
      some before)
    (round : Round) :
    cycle config parse format round before =
      cycle config parse format round (ManagerState.initial users) ∧
      postUsage config parse round.server round.timestamp before =
        postUsage config parse round.server round.timestamp (ManagerState.initial users) ∧
      ∀ later : List Round, Machine.run (step config parse format) before (round :: later) =
        Machine.run (step config parse format) (ManagerState.initial users) (round :: later) := by
  have alike := run_alike reached
  refine ⟨cycle_alike alike round, postUsage_alike alike _ _, fun later => ?_⟩
  have stepped : step config parse format before round =
      step config parse format (ManagerState.initial users) round :=
    congrArg Except.toOption (cycle_alike alike round)
  rw [Machine.run_cons, Machine.run_cons, stepped]

section Example

def cpuEntries (state : ManagerState) : List (List (Int × Usage)) :=
  state.user_list.map fun user => user.cpu_usage.entries

theorem round_after_restart_pendingPool :
    let config : ManagerConfig := ⟨[], 60, 10, 3⟩
    let parse : Parser := knowing pendingPool
    let format : FloatValue Scaled → Text := prioText
    ∃ before, Machine.run (step config parse format)
      (ManagerState.initial [sample 1 5]) [byId (answering pendingPool)] = some before ∧
      cpuEntries before ≠ cpuEntries (ManagerState.initial [sample 1 5]) ∧
      cycle config parse format (byId fun _ _ => .timeout) before =
        cycle config parse format (byId fun _ _ => .timeout)
          (ManagerState.initial [sample 1 5]) := by
  intro config parse format
  have runs : ((Machine.run (step config parse format)
    (ManagerState.initial [sample 1 5]) [byId (answering pendingPool)]).any
      fun before => decide (cpuEntries before ≠ cpuEntries (ManagerState.initial [sample 1 5]))) =
        true := by
    decide +kernel
  obtain ⟨before, reached, changed⟩ := (Option.any_eq_true _ _).mp runs
  refine ⟨before, reached, of_decide_eq_true changed, ?_⟩
  exact (round_after_restart config parse format [sample 1 5] [byId
    (answering pendingPool)] before reached (byId fun _ _ => .timeout)).1

end Example

end OneFass.Pm
