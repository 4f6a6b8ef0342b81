import OneFass.Database.InfluxDb
import OneFass.Pm.Periods
import OneFass.Pm.Window

set_option autoImplicit false

namespace OneFass.Pm

open Runtime Client OrderedMap Xml AcctPool

-- `historical_usage` to its end: the accounting pool, the users and the bodies that are posted
def postUsage (config : ManagerConfig) (parse : Parser) (server : Server) (timestamp : Int)
    (state : ManagerState) :
    Except Fault (AcctObjects × List User × List (Text × Text)) := do
  let (acctpool, user_list) ← historicalUsage config parse server timestamp state
  -- a failed write is only logged
  let bodies ← mapAll Database.writeUsage user_list
  return (acctpool, user_list, bodies)

def usages (user : User) : Map intOrder Usage × Map intOrder Usage :=
  (user.cpu_usage, user.memory_usage)

def KeepsHistory (config : ManagerConfig) (parse : Parser) (server : Server) (timestamp : Int)
    (state : ManagerState) :
    Prop :=
  ∃ acctpool users bodies, postUsage config parse server timestamp state =
    .ok (acctpool, users, bodies) ∧
    users.map usages = state.user_list.map usages ∧ bodies = []

def fetchAcct (config : ManagerConfig) (parse : Parser) (server : Server) (time_start : Int)
    (state : ManagerState) :
    AcctObjects × Except Fault Int :=
  AcctPool.setUp parse server config.one_secret (state.user_list.map fun user =>
    (user.userID.toNat : Int)) time_start
    state.acctpool

section Failed

variable {config : ManagerConfig} {parse : Parser} {server : Server} {timestamp : Int}
    {state : ManagerState}
  {times : Int × Int}

theorem fetchAcct_failed {time_start : Int}
    (failed : (fetchAcct config parse server time_start state).2 = .ok (-1)) :
    (fetchAcct config parse server time_start state).1 = Map.empty := by
  simp only [fetchAcct, AcctPool.setUp] at failed ⊢
  split
  · rfl
  · rfl
  · simp_all

theorem historicalUsage_failed (windowed : windowTimes config timestamp = .ok times)
    (failed : (fetchAcct config parse server times.1 state).2 = .ok (-1)) :
    historicalUsage config parse server timestamp state =
      (fun users => (Map.empty, users)) <$>
        evalUsage Map.empty state.user_list times.1 timestamp times.2 config.n_periods := by
  have emptied := fetchAcct_failed failed
  simp only [fetchAcct] at failed emptied
  rw [historicalUsage_window, windowed]
  simp only [accountWindow, bind, Except.bind, failed, emptied]
  cases evalUsage Map.empty state.user_list times.1 timestamp times.2 config.n_periods <;> rfl

theorem postUsage_failed (windowed : windowTimes config timestamp = .ok times)
    (failed : (fetchAcct config parse server times.1 state).2 = .ok (-1)) {acctpool : AcctObjects}
    {users : List User} {bodies : List (Text × Text)} :
    postUsage config parse server timestamp state = .ok (acctpool, users, bodies) ↔
      acctpool = Map.empty ∧
        evalUsage Map.empty state.user_list times.1 timestamp times.2 config.n_periods = .ok users ∧
        mapAll Database.writeUsage users = .ok bodies := by
  simp only [postUsage, historicalUsage_failed windowed failed, bind_eq_ok, map_eq_ok, pure,
    Except.pure, Except.ok.injEq, Prod.mk.injEq]
  constructor
  · rintro ⟨_, ⟨evaluated, done, rfl⟩, written, posted, rfl, rfl, rfl⟩
    exact ⟨rfl, done, posted⟩
  · rintro ⟨rfl, done, posted⟩
    exact ⟨_, ⟨users, done, rfl⟩, bodies, posted, rfl, rfl, rfl⟩

theorem usageEntry_nil (weight : AcctObject → ℚ) (time_start time_stop period : Int) (k : Nat) :
    usageEntry weight [] time_start time_stop period k = ⟨0, time_start, time_stop⟩ := by
  simp [usageEntry, consumed, truncate]

-- every user counts as one without records
theorem failed_fetch_erases (windowed : windowTimes config timestamp = .ok times)
    (failed : (fetchAcct config parse server times.1 state).2 = .ok (-1)) {acctpool : AcctObjects}
    {users : List User} {bodies : List (Text × Text)}
    (completed : postUsage config parse server timestamp state = .ok (acctpool, users, bodies)) :
    users = state.user_list.map (withUsage Map.empty times.1 timestamp times.2
      (config.n_periods + 1).toNat) ∧
      bodies.length = users.length ∧
      ∀ user ∈ users, ∀ entry ∈ user.cpu_usage.entries ++ user.memory_usage.entries,
        entry.2 = ⟨0, times.1, timestamp⟩ := by
  obtain ⟨_, evaluated, posted⟩ := (postUsage_failed windowed failed).mp completed
  have shape := evalUsage_ok evaluated
  refine ⟨shape, (mapAll_eq_ok.mp posted).length_eq.symm, ?_⟩
  rw [shape]
  intro user member entry inside
  obtain ⟨old, _, rfl⟩ := List.mem_map.mp member
  simp only [withUsage, entries_usageMap, List.mem_append, List.mem_map] at inside
  rcases inside with ⟨k, _, rfl⟩ | ⟨k, _, rfl⟩ <;> exact usageEntry_nil _ _ _ _ _

end Failed

theorem keepsHistory_iff (config : ManagerConfig) (parse : Parser) (server : Server)
    (timestamp : Int) (state : ManagerState) (times : Int × Int)
    (windowed : windowTimes config timestamp = .ok times)
    (failed : (fetchAcct config parse server times.1 state).2 = .ok (-1)) :
    KeepsHistory config parse server timestamp state ↔ state.user_list = [] := by
  constructor
  · rintro ⟨acctpool, users, bodies, completed, _, rfl⟩
    obtain ⟨shape, written, _⟩ := failed_fetch_erases windowed failed completed
    rw [shape, List.length_map, List.length_nil] at written
    exact List.length_eq_zero_iff.mp written.symm
  · intro noUsers
    refine ⟨Map.empty, [], [], ?_, by rw [noUsers], rfl⟩
    rw [postUsage_failed windowed failed, noUsers]
    exact ⟨rfl, rfl, rfl⟩

section Example

def silent : Server := fun _ _ => .timeout

def busy : ManagerState := .initial [sample 1 5]

theorem silent_failed (state : ManagerState) (time_start : Int) :
    (fetchAcct shipped (fun _ => none) silent time_start state).2 = .ok (-1) := rfl

theorem keepsHistory_iff_silent :
    KeepsHistory shipped (fun _ => none) silent 1500000000 busy ↔ busy.user_list = [] :=
  keepsHistory_iff shipped (fun _ => none) silent 1500000000 busy (1499985600, 3600) (by decide)
    (silent_failed _ _)

theorem history_not_kept :
    (fetchAcct shipped (fun _ => none) silent 1499985600 busy).2 = .ok (-1) ∧
      ¬ KeepsHistory shipped (fun _ => none) silent 1500000000 busy ∧
      ∃ user, postUsage shipped (fun _ => none) silent 1500000000 busy = .ok (Map.empty, [user],
          [("h_cpu,user=1 value0=0,value1=0,value2=0,value3=0 1500000000000000000".toList,
            "h_memory,user=1 value0=0,value1=0,value2=0,value3=0 1500000000000000000".toList)]) ∧
        user.cpu_usage.find 0 = some ⟨0, 1499985600, 1500000000⟩ ∧
        (busy.user_list.map fun user => user.cpu_usage.find 0) = [some ⟨5, 0, 0⟩] := by
  have windowed : windowTimes shipped 1500000000 = .ok (1499985600, 3600) := by decide
  have posted : postUsage shipped (fun _ => none) silent 1500000000 busy = .ok (Map.empty,
      [withUsage Map.empty 1499985600 1500000000 3600 4 (sample 1 5)],
      [("h_cpu,user=1 value0=0,value1=0,value2=0,value3=0 1500000000000000000".toList,
        "h_memory,user=1 value0=0,value1=0,value2=0,value3=0 1500000000000000000".toList)]) := by
    refine (postUsage_failed windowed (silent_failed _ _)).mpr ⟨rfl, ?_, ?_⟩
    · exact evalUsage_eq Map.empty busy.user_list 1499985600 1500000000 3600 3 (le_refl 3)
    · decide +kernel
  refine ⟨rfl, ?_, _, posted, by decide +kernel, by decide +kernel⟩
  rintro ⟨acctpool, users, bodies, completed, _, rfl⟩
  rw [posted] at completed
  simp at completed

end Example

end OneFass.Pm
