import OneFass.Pm.BasicPlugin
import OneFass.Xml.EvalUsage

set_option autoImplicit false

namespace OneFass.Pm

open Runtime OrderedMap Xml AcctPool BasicPlugin

def periodUsage (records : List AcctObject) (timestamp period : Int) (k : Nat) : ℚ :=
  consumed AcctObject.cpu records (timestamp - (k + 1) * period) (timestamp - k * period)

structure HalfLifeUsage (records : List AcctObject) (timestamp period : Int) (user : User)
    (h_usage : ℚ) (stored : Nat → Int) : Prop where
  entries : ∀ k : Nat, k < 4 → (user.cpu_usage.find k).map Usage.usage = some (stored k)
  derived : userUsage user = .ok h_usage
  weighted : h_usage = ∑ k ∈ Finset.range 3, (1 / 2) ^ k * ((stored k - stored (k + 1) : Int) : ℚ)
  nonneg : ∀ k : Nat, k < 3 → 0 ≤ stored k - stored (k + 1)
  close : ∀ k : Nat, k < 3 →
    |((stored k - stored (k + 1) : Int) : ℚ) - periodUsage records timestamp period k| < 1
  total :
    |h_usage - ∑ k ∈ Finset.range 3, (1 / 2) ^ k * periodUsage records timestamp period k| < 7 / 4
  -- whatever was used before the three periods
  forgotten : consumed AcctObject.cpu records (timestamp - 3 * period) timestamp = 0 → h_usage = 0
  positive : 0 ≤ h_usage

theorem truncate_difference {total earlier recent : ℚ} (split : total = earlier + recent)
    (nonnegE : 0 ≤ earlier) (nonnegR : 0 ≤ recent) :
    0 ≤ truncate total - truncate earlier ∧
    |((truncate total - truncate earlier : Int) : ℚ) - recent| < 1 := by
  rw [truncate_of_nonneg (by linarith), truncate_of_nonneg nonnegE]
  constructor
  · have grows : ⌊earlier⌋ ≤ ⌊total⌋ := Int.floor_le_floor (by linarith)
    omega
  · have lowT := Int.floor_le total
    have highT := Int.lt_floor_add_one total
    have lowE := Int.floor_le earlier
    have highE := Int.lt_floor_add_one earlier
    push_cast
    rw [abs_lt]
    constructor <;> linarith

section Windows

variable (records : List AcctObject) (timestamp period : Int)

def window (k : Nat) : ℚ :=
  consumed AcctObject.cpu records (timestamp - 4 * period) (timestamp - k * period)

variable {records timestamp period}

theorem window_step (positive : 0 < period) {k : Nat} (recent : k < 3) :
    window records timestamp period k =
      window records timestamp period (k + 1) + periodUsage records timestamp period k := by
  have inside : ((k : Int) + 1) * period ≤ 4 * period := by
    apply mul_le_mul_of_nonneg_right _ positive.le
    omega
  have grows : (k : Int) * period ≤ ((k : Int) + 1) * period := by
    apply mul_le_mul_of_nonneg_right _ positive.le
    omega
  have split := consumed_split AcctObject.cpu records
    (show timestamp - 4 * period ≤ timestamp - ((k : Int) + 1) * period by omega)
    (show timestamp - ((k : Int) + 1) * period ≤ timestamp - k * period by omega)
  simpa [window, periodUsage] using split

theorem window_nonneg (nonneg : ∀ record ∈ records, 0 ≤ record.cpu) (k : Nat) :
    0 ≤ window records timestamp period k :=
  consumed_nonneg _ _ nonneg

theorem periodUsage_nonneg (nonneg : ∀ record ∈ records, 0 ≤ record.cpu) (k : Nat) :
    0 ≤ periodUsage records timestamp period k :=
  consumed_nonneg _ _ nonneg

theorem recent_usage (positive : 0 < period) :
    consumed AcctObject.cpu records (timestamp - 3 * period) timestamp =
      periodUsage records timestamp period 2 + periodUsage records timestamp period 1 +
        periodUsage records timestamp period 0 := by
  have first := consumed_split AcctObject.cpu records
    (show timestamp - 3 * period ≤ timestamp - 1 * period by omega)
    (show timestamp - 1 * period ≤ timestamp by omega)
  have second := consumed_split AcctObject.cpu records
    (show timestamp - 3 * period ≤ timestamp - 2 * period by omega)
    (show timestamp - 2 * period ≤ timestamp - 1 * period by omega)
  rw [first, second]
  norm_num [periodUsage]

theorem stored_close (positive : 0 < period) (nonneg : ∀ record ∈ records, 0 ≤ record.cpu) {k : Nat}
    (recent : k < 3) :
    let difference := truncate (window records timestamp period k) -
      truncate (window records timestamp period (k + 1))
    0 ≤ difference ∧ |(difference : ℚ) - periodUsage records timestamp period k| < 1 :=
  truncate_difference (window_step positive recent) (window_nonneg nonneg (k + 1))
    (periodUsage_nonneg nonneg k)

theorem window_const (positive : 0 < period) (nonneg : ∀ record ∈ records, 0 ≤ record.cpu)
    (idle : consumed AcctObject.cpu records (timestamp - 3 * period) timestamp = 0) {k : Nat}
    (recent : k < 3) :
    window records timestamp period k = window records timestamp period (k + 1) := by
  have used (j : Nat) : 0 ≤ periodUsage records timestamp period j := periodUsage_nonneg nonneg j
  have unused : periodUsage records timestamp period k = 0 := by
    rw [recent_usage positive] at idle
    have zero := used 0
    have one := used 1
    have two := used 2
    have cases : k = 0 ∨ k = 1 ∨ k = 2 := by omega
    rcases cases with rfl | rfl | rfl <;> linarith
  rw [window_step positive recent, unused, add_zero]

end Windows

theorem halfLife_eq (stored : Nat → Int) :
    halfLife (stored 0) (stored 1) (stored 2) (stored 3) =
      ∑ k ∈ Finset.range 3, (1 / 2) ^ k * ((stored k - stored (k + 1) : Int) : ℚ) := by
  simp only [halfLife, decay, Finset.sum_range_succ, Finset.sum_range_zero]
  ring

-- three rounding errors of less than 1, the later ones halved
theorem decayed_close {stored : Nat → Int} {exact_usage : Nat → ℚ}
    (close : ∀ k < 3, |((stored k - stored (k + 1) : Int) : ℚ) - exact_usage k| < 1) :
    |∑ k ∈ Finset.range 3, (1 / 2) ^ k * ((stored k - stored (k + 1) : Int) : ℚ) -
      ∑ k ∈ Finset.range 3, (1 / 2) ^ k * exact_usage k| < 7 / 4 := by
  have first := abs_lt.mp (close 0 (by omega))
  have second := abs_lt.mp (close 1 (by omega))
  have third := abs_lt.mp (close 2 (by omega))
  simp only [Finset.sum_range_succ, Finset.sum_range_zero]
  rw [abs_lt]
  constructor <;> linarith

theorem withUsage_halfLife (objects : AcctObjects) (timestamp period : Int) (positive : 0 < period)
    (user : User) (nonneg : ∀ record ∈ AcctPool.get objects user.userID.toNat, 0 ≤ record.cpu) :
    ∃ h_usage stored, HalfLifeUsage (AcctPool.get objects user.userID.toNat) timestamp period
      (withUsage objects (timestamp - 4 * period) timestamp period 4 user) h_usage stored := by
  set records := AcctPool.get objects user.userID.toNat with recorded
  let stored (k : Nat) : Int := truncate (window records timestamp period k)
  have found (k : Nat) (less : k < 4) := find_usageMap
    (usageEntry AcctObject.cpu records (timestamp - 4 * period) timestamp period) less
  have close : ∀ k : Nat, k < 3 →
      |((stored k - stored (k + 1) : Int) : ℚ) - periodUsage records timestamp period k| < 1 :=
    fun k recent => (stored_close positive nonneg recent).2
  have grows : ∀ k : Nat, k < 3 → 0 ≤ stored k - stored (k + 1) :=
    fun k recent => (stored_close positive nonneg recent).1
  refine ⟨∑ k ∈ Finset.range 3, (1 / 2) ^ k * ((stored k - stored (k + 1) : Int) : ℚ), stored, ?_⟩
  constructor
  · intro k less
    simp only [withUsage, ← recorded, found k less, Option.map_some]
    rfl
  · refine userUsage_eq_ok.mpr ⟨_, _, _, _, found 0 (by omega), found 1 (by omega),
      found 2 (by omega), found 3 (by omega), halfLife_eq stored⟩
  · rfl
  · exact grows
  · exact close
  · exact decayed_close close
  · intro idle
    apply Finset.sum_eq_zero
    intro k member
    have same : stored k = stored (k + 1) := by
      simp only [stored, window_const positive nonneg idle
        (List.mem_range.mp (by simpa using member))]
    simp [same]
  · apply Finset.sum_nonneg
    intro k member
    exact mul_nonneg (by positivity) (Int.cast_nonneg (grows k (by simpa using member)))

theorem half_life_accounting (objects : AcctObjects) (users : List User) (timestamp period : Int)
    (positive : 0 < period)
    (nonneg : ∀ user ∈ users, ∀ record ∈ AcctPool.get objects user.userID.toNat, 0 ≤ record.cpu) :
    ∃ evaluated, evalUsage objects users (timestamp - 4 * period) timestamp period 3 =
      .ok evaluated ∧
      List.Forall₂ (fun user result => ∃ h_usage stored,
        HalfLifeUsage (AcctPool.get objects user.userID.toNat) timestamp period result h_usage
        stored)
        users evaluated := by
  refine ⟨_, evalUsage_eq objects users _ _ _ 3 (le_refl 3), ?_⟩
  rw [List.forall₂_map_right_iff, List.forall₂_same]
  intro user member
  exact withUsage_halfLife objects timestamp period positive user (nonneg user member)

def busyRecord : AcctObject := ⟨0, 1, 7, 0, 512, 1 / 2, 10, 0⟩

theorem half_life_accounting_busyRecord :
    let objects : AcctObjects := Map.empty.insert 1 [busyRecord]
    let user : User := { User.unset with userID := 1 }
    ∃ evaluated, evalUsage objects [user] (100 - 4 * 20) 100 20 3 = .ok evaluated ∧
      List.Forall₂ (fun user result => ∃ h_usage stored,
        HalfLifeUsage (AcctPool.get objects user.userID.toNat) 100 20 result h_usage stored) [user]
          evaluated := by
  intro objects user
  refine half_life_accounting objects [user] 100 20 (by decide) ?_
  intro listed member record inside
  have records : AcctPool.get objects user.userID.toNat = [busyRecord] := rfl
  rw [List.mem_singleton.mp member, records, List.mem_singleton] at inside
  rw [inside]
  norm_num [busyRecord]

end OneFass.Pm
