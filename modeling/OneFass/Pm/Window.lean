import Mathlib.Tactic.Linarith
import OneFass.Config.Records
import OneFass.Pm.Cycle

set_option autoImplicit false

namespace OneFass.Pm

open Runtime Client OrderedMap Xml

-- `time_start` and `period_s`
def windowTimes (config : ManagerConfig) (timestamp : Int) : Except Fault (Int × Int) := do
  let period_s ← checkInt (config.manager_timer * config.period)
  let periods ← checkInt (config.n_periods + 1)
  let span ← checkInt (period_s * periods)
  return (timestamp - span, period_s)

def accountWindow (config : ManagerConfig) (parse : Parser) (server : Server) (timestamp : Int)
    (state : ManagerState) (times : Int × Int) : Except Fault (AcctObjects × List User) := do
  let uids : List Int := state.user_list.map fun user => (user.userID.toNat : Int)
  let (acctpool, rc) := AcctPool.setUp parse server config.one_secret uids times.1 state.acctpool
  let _ ← rc
  let user_list ← AcctPool.evalUsage acctpool state.user_list times.1 timestamp times.2
    config.n_periods
  return (acctpool, user_list)

theorem historicalUsage_window (config : ManagerConfig) (parse : Parser) (server : Server)
    (timestamp : Int) (state : ManagerState) :
    historicalUsage config parse server timestamp state =
      windowTimes config timestamp >>= accountWindow config parse server timestamp state := by
  simp only [historicalUsage, windowTimes, bind, Except.bind]
  rcases checkInt (config.manager_timer * config.period) with _ | period_s
  · rfl
  · rcases checkInt (config.n_periods + 1) with _ | periods
    · rfl
    · simp only
      rcases checkInt (period_s * periods) with _ | span <;> rfl

theorem checkInt_eq_ok {value result : Int} :
    checkInt value = .ok result ↔ (-2 ^ 31 ≤ value ∧ value < 2 ^ 31) ∧ value = result := by
  rw [checkInt]
  split_ifs with inside
  · exact ⟨fun same => ⟨inside, Except.ok.inj same⟩, fun known => congrArg Except.ok known.2⟩
  · exact ⟨nofun, fun known => absurd known.1 inside⟩

def span (config : ManagerConfig) : Int :=
  config.manager_timer * config.period * (config.n_periods + 1)

theorem windowTimes_eq_ok {config : ManagerConfig} {timestamp : Int} {times : Int × Int} :
    windowTimes config timestamp = .ok times ↔
      (-2 ^ 31 ≤ config.manager_timer * config.period ∧
        config.manager_timer * config.period < 2 ^ 31) ∧
        (-2 ^ 31 ≤ config.n_periods + 1 ∧ config.n_periods + 1 < 2 ^ 31) ∧
        (-2 ^ 31 ≤ span config ∧ span config < 2 ^ 31) ∧
        times = (timestamp - span config, config.manager_timer * config.period) := by
  simp only [windowTimes, span, bind_eq_ok, checkInt_eq_ok, pure, Except.pure, Except.ok.injEq]
  constructor
  · rintro ⟨_, ⟨first, rfl⟩, _, ⟨second, rfl⟩, _, ⟨third, rfl⟩, rfl⟩
    exact ⟨first, second, third, rfl⟩
  · rintro ⟨first, second, third, rfl⟩
    exact ⟨_, ⟨first, rfl⟩, _, ⟨second, rfl⟩, _, ⟨third, rfl⟩, rfl⟩

structure PositiveInts (config : ManagerConfig) : Prop where
  manager_timer : 0 < config.manager_timer ∧ config.manager_timer < 2 ^ 31
  period : 0 < config.period ∧ config.period < 2 ^ 31
  n_periods : 0 < config.n_periods ∧ config.n_periods < 2 ^ 31

def ExactWindow (config : ManagerConfig) (timestamp : Int) : Prop :=
  ∃ time_start period_s, windowTimes config timestamp = .ok (time_start, period_s) ∧
    time_start = timestamp - config.manager_timer * config.period * (config.n_periods + 1) ∧
    period_s = config.manager_timer * config.period ∧
    AcctPool.loadAcctParameters time_start = [.int (-2), .int time_start, .int (-1)]

theorem loadAcctParameters_eq_iff (time_start : Int) :
    AcctPool.loadAcctParameters time_start = [.int (-2), .int time_start, .int (-1)] ↔
      -2 ^ 31 ≤ time_start ∧ time_start < 2 ^ 31 := by
  have wrapped : toInt32 time_start = time_start.bmod 4294967296 := rfl
  simp only [AcctPool.loadAcctParameters, wrapped, List.cons.injEq, Value.int.injEq, true_and,
    and_true, Int.bmod_def]
  split_ifs <;> omega

theorem factors_lt {config : ManagerConfig} (positive : PositiveInts config)
    (short : span config < 2 ^ 31) :
    0 < span config ∧ 0 < config.manager_timer * config.period ∧
    config.manager_timer * config.period < 2 ^ 31 ∧
      config.n_periods + 1 < 2 ^ 31 := by
  have period_s := Int.mul_pos positive.manager_timer.1 positive.period.1
  have periods := positive.n_periods.1
  rw [span] at short ⊢
  refine ⟨by positivity, period_s, ?_, ?_⟩
  · nlinarith
  · nlinarith

theorem exactWindow_iff (config : ManagerConfig) (timestamp : Int) (positive : PositiveInts config)
    (nonneg : 0 ≤ timestamp) (int64 : timestamp < 2 ^ 63) :
    ExactWindow config timestamp ↔
      config.manager_timer * config.period * (config.n_periods + 1) < 2 ^ 31 ∧
        timestamp - config.manager_timer * config.period * (config.n_periods + 1) < 2 ^ 31 := by
  simp only [ExactWindow, windowTimes_eq_ok, loadAcctParameters_eq_iff]
  constructor
  · rintro ⟨time_start, period_s, ⟨_, _, ⟨_, short⟩, _⟩, rfl, _, _, early⟩
    exact ⟨short, early⟩
  · rintro ⟨short, early⟩
    obtain ⟨spanned, product, period_s, periods⟩ := factors_lt positive short
    have count := positive.n_periods.1
    have start : -2 ^ 31 ≤ timestamp - span config := by
      rw [span] at spanned ⊢
      omega
    exact ⟨_, _, ⟨⟨by omega, period_s⟩, ⟨by omega, periods⟩, ⟨by omega, short⟩, rfl⟩, rfl, rfl,
      start, early⟩

def shipped : ManagerConfig := ⟨[], 20, 180, 3⟩

theorem shipped_positive : PositiveInts shipped := by constructor <;> decide

theorem exactWindow_iff_shipped :
    ExactWindow shipped 1500000000 ↔
      shipped.manager_timer * shipped.period * (shipped.n_periods + 1) < 2 ^ 31 ∧
        1500000000 - shipped.manager_timer * shipped.period * (shipped.n_periods + 1) < 2 ^ 31 :=
  exactWindow_iff shipped 1500000000 shipped_positive (by decide) (by decide)

theorem not_exactWindow :
    (PositiveInts ⟨[], 3600, 175200, 3⟩ ∧ ¬ ExactWindow ⟨[], 3600, 175200, 3⟩ 1500000000) ∧
      PositiveInts shipped ∧ ¬ ExactWindow shipped 2147500000 := by
  refine ⟨⟨by constructor <;> decide, ?_⟩, shipped_positive, ?_⟩
  · rintro ⟨time_start, period_s, computed, _⟩
    rw [windowTimes_eq_ok] at computed
    exact absurd computed.2.2.1.2 (by decide)
  · rintro ⟨time_start, period_s, _, rfl, _, sent⟩
    rw [loadAcctParameters_eq_iff] at sent
    exact absurd sent.2 (by decide)

end OneFass.Pm
