import Mathlib.Data.Int.Interval
import OneFass.Xml.EvalUsage

set_option autoImplicit false

namespace OneFass.Xml.AcctPool

open Runtime OrderedMap Pm

def RunsAt (record : AcctObject) (time : Int) : Prop :=
  record.start_time ≤ time ∧ (record.stop_time = 0 ∨ time < record.stop_time)

instance (record : AcctObject) (time : Int) : Decidable (RunsAt record time) :=
  inferInstanceAs (Decidable (_ ∧ _))

noncomputable def secondsRun (record : AcctObject) (start stop : Int) : Nat :=
  ((Finset.Ico start stop).filter fun time => RunsAt record time).card

noncomputable def integral (weight : AcctObject → ℚ) (records : List AcctObject)
    (start stop : Int) : ℚ :=
  (records.map fun record => weight record * secondsRun record start stop).sum

structure HoldsIntegrals (records : List AcctObject) (time_start time_stop period num_periods : Int)
    (before after : User) : Prop where
  cpu_keys : ∀ key, key ∈ after.cpu_usage.keys ↔ 0 ≤ key ∧ key ≤ num_periods
  memory_keys : ∀ key, key ∈ after.memory_usage.keys ↔ 0 ≤ key ∧ key ≤ num_periods
  cpu : ∀ k : Nat, k ≤ num_periods → after.cpu_usage.find k = some
    ⟨truncate (integral AcctObject.cpu records time_start (time_stop - k * period)), time_start,
      time_stop⟩
  memory : ∀ k : Nat, k ≤ num_periods → after.memory_usage.find k = some
    ⟨truncate (integral (fun record => record.memory) records time_start (time_stop - k * period)),
      time_start, time_stop⟩
  others : after = { before with cpu_usage := after.cpu_usage, memory_usage := after.memory_usage }

theorem runsAt_interval (record : AcctObject) (start stop : Int) :
    (Finset.Ico start stop).filter (fun time => RunsAt record time) =
      Finset.Ico (max record.start_time start)
        (if record.stop_time = 0 then stop else min record.stop_time stop) := by
  ext time
  rw [Finset.mem_filter, Finset.mem_Ico, Finset.mem_Ico, RunsAt]
  split_ifs <;> omega

theorem secondsRun_eq (record : AcctObject) (start stop : Int) :
    (secondsRun record start stop : Int) = secondsIn record start stop := by
  rw [secondsRun, runsAt_interval, Int.card_Ico, Int.toNat_eq_max, secondsIn, max_comm]

theorem integral_eq_consumed (weight : AcctObject → ℚ) (records : List AcctObject)
    (start stop : Int) :
    integral weight records start stop = consumed weight records start stop := by
  simp only [integral, consumed, ← secondsRun_eq, Int.cast_natCast]

theorem mem_keys_usageMap {n : Nat} {usage : Nat → Usage} {key : Int} :
    key ∈ (usageMap n usage).keys ↔ 0 ≤ key ∧ key < n := by
  simp only [Map.keys, entries_usageMap, List.map_map, List.mem_map, List.mem_range]
  constructor
  · rintro ⟨k, less, rfl⟩
    exact ⟨Int.natCast_nonneg k, Int.ofNat_lt.mpr less⟩
  · rintro ⟨nonneg, less⟩
    exact ⟨key.toNat, by omega, Int.toNat_of_nonneg nonneg⟩

theorem withUsage_integrals (objects : AcctObjects) (time_start time_stop period num_periods : Int)
    (user : User) :
    HoldsIntegrals (get objects user.userID.toNat) time_start time_stop period num_periods user
      (withUsage objects time_start time_stop period (num_periods + 1).toNat user) := by
  have within (key : Int) : 0 ≤ key ∧ key < ((num_periods + 1).toNat : Int) ↔ 0 ≤ key ∧
      key ≤ num_periods := by omega
  constructor
  · intro key
    exact mem_keys_usageMap.trans (within key)
  · intro key
    exact mem_keys_usageMap.trans (within key)
  · intro k inside
    rw [integral_eq_consumed]
    exact find_usageMap _ (by omega)
  · intro k inside
    rw [integral_eq_consumed]
    exact find_usageMap _ (by omega)
  · rfl

theorem eval_usage_integrates (objects : AcctObjects) (user_list : List User)
    (time_start time_stop period num_periods : Int) (few : num_periods ≤ 3) :
    ∃ evaluated, evalUsage objects user_list time_start time_stop period num_periods =
      .ok evaluated ∧
      List.Forall₂ (fun before after =>
        HoldsIntegrals (get objects before.userID.toNat) time_start time_stop period num_periods
        before after)
        user_list evaluated := by
  refine ⟨_, evalUsage_eq objects user_list time_start time_stop period num_periods few, ?_⟩
  rw [List.forall₂_map_right_iff, List.forall₂_same]
  intro user _
  exact withUsage_integrals objects time_start time_stop period num_periods user

def finishedRecord : AcctObject := ⟨0, 1, 8, 0, 512, 2, 50, 90⟩

theorem eval_usage_integrates_two_records :
    let records := [⟨0, 1, 7, 0, 1024, 1 / 2, 10, 0⟩, finishedRecord]
    let user : User := User.setCpuUsage { User.unset with userID := 1 } 5 ⟨70, 0, 20⟩
    integral AcctObject.cpu records 20 (100 - 1 * 20) = 90 ∧
      ∃ evaluated, evalUsage (Map.empty.insert 1 records) [user] 20 100 20 2 = .ok evaluated ∧
        List.Forall₂ (fun before after =>
          HoldsIntegrals (get (Map.empty.insert 1 records) before.userID.toNat)
          20 100 20 2 before after) [user] evaluated := by
  intro records user
  have nearly : integral AcctObject.cpu records 20 (100 - 1 * 20) = 90 := by
    rw [integral_eq_consumed]
    decide +kernel
  exact ⟨nearly, eval_usage_integrates (Map.empty.insert 1 records) [user] 20 100 20 2 (by decide)⟩

end OneFass.Xml.AcctPool
