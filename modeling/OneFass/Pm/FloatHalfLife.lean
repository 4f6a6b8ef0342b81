import OneFass.Pm.HalfLife
import OneFass.Xml.FloatUsage

set_option autoImplicit false

namespace OneFass.Pm.FloatHalfLife

open Runtime OrderedMap Xml AcctPool BinaryRounding BasicPlugin FloatUsage

def halfLife (d0 d1 d2 : Int) : ℚ :=
  let recent := binary32.round (binary32.round d0 + binary32.round (decay * binary32.round d1))
  binary32.round (recent + binary32.round (binary32.round (decay * decay) * binary32.round d2))

-- the half-life usage of `update_prio` in the arithmetic of `float` and `int64_t`
def userUsage (user : User) : Except Fault ℚ := do
  let h0 ← lookup user.cpu_usage 0
  let h1 ← lookup user.cpu_usage 1
  let h2 ← lookup user.cpu_usage 2
  let h3 ← lookup user.cpu_usage 3
  let d0 ← checkInt64 (h0.usage - h1.usage)
  let d1 ← checkInt64 (h1.usage - h2.usage)
  let d2 ← checkInt64 (h2.usage - h3.usage)
  return halfLife d0 d1 d2

def decayed (stored : Nat → Int) : ℚ :=
  ∑ k ∈ Finset.range 3, (1 / 2) ^ k * ((stored k - stored (k + 1) : Int) : ℚ)

structure RoundedUsage (records : List AcctObject) (timestamp period : Int) (user : User)
    (h_usage : ℚ) (sums : Nat → ℚ) (stored : Nat → Int) : Prop where
  entries : ∀ k : Nat, k < 4 → (user.cpu_usage.find k).map Usage.usage = some (stored k)
  derived : userUsage user = .ok h_usage
  truncated : ∀ k : Nat, k < 4 → stored k = ⌊sums k⌋
  rounded : ∀ k : Nat, k < 4 → Within (lowest records.length) (highest records.length)
    (window records timestamp period k) (sums k)
  nonneg : ∀ k : Nat, k < 3 → 0 ≤ stored k - stored (k + 1)
  -- less than 1 for the truncation, and what the two sums are off
  close : ∀ k : Nat, k < 3 →
    |((stored k - stored (k + 1) : Int) : ℚ) - periodUsage records timestamp period k| <
      1 + |sums k - window records timestamp period k| +
        |sums (k + 1) - window records timestamp period (k + 1)|
  weighted : Within ((1 - binary32.error) ^ 4) ((1 + binary32.error) ^ 4) (decayed stored) h_usage
  forgotten : consumed AcctObject.cpu records (timestamp - 3 * period) timestamp = 0 → h_usage = 0
  positive : 0 ≤ h_usage

section HalfLife

theorem units_halved (m : Nat) {halvings : Nat} (few : halvings ≤ 149) :
    binary32.Units ((1 / 2) ^ halvings * m) := by
  refine ⟨m * 2 ^ (149 - halvings), ?_⟩
  have places : (2 : ℚ) ^ binary32.places = 2 ^ (149 - halvings) * 2 ^ halvings := by
    rw [← pow_add, Nat.sub_add_cancel few]
    rfl
  rw [places, one_div, inv_pow]
  push_cast
  field_simp

variable {d0 d1 d2 : Int}

theorem term_close {d : Int} (nonneg : 0 ≤ d) {halvings : Nat} (few : halvings ≤ 149) :
    binary32.Units (binary32.round ((1 / 2) ^ halvings * binary32.round d)) ∧
      Within ((1 - binary32.error) ^ 2) ((1 + binary32.error) ^ 2) ((1 / 2) ^ halvings * (d : ℚ))
        (binary32.round ((1 / 2) ^ halvings * binary32.round d)) := by
  obtain ⟨m, rounded⟩ := round_seconds nonneg
  have units : binary32.Units ((1 / 2) ^ halvings * binary32.round d) := by
    rw [rounded]
    exact units_halved m few
  have whole := (Within.refl (d : ℚ)).round (units_seconds nonneg)
  have power : (0 : ℚ) ≤ (1 / 2) ^ halvings := by positivity
  have halved := (whole.scale power).round units
  rw [mul_one, mul_one, ← pow_two, ← pow_two] at halved
  exact ⟨units.round, halved⟩

theorem halfLife_close (first : 0 ≤ d0) (second : 0 ≤ d1) (third : 0 ≤ d2) :
    0 ≤ halfLife d0 d1 d2 ∧ Within ((1 - binary32.error) ^ 4) ((1 + binary32.error) ^ 4)
      (d0 + (1 / 2) ^ 1 * d1 + (1 / 2) ^ 2 * d2 : ℚ) (halfLife d0 d1 d2) := by
  have quarter : binary32.round (decay * decay) = (1 / 2) ^ 2 := by decide +kernel
  have half : decay = (1 / 2) ^ 1 := by decide +kernel
  have least : 1 - binary32.error ≤ 1 := sub_le_self _ binary32.error_nonneg
  have most : 1 ≤ 1 + binary32.error := le_add_of_nonneg_right binary32.error_nonneg
  have nonneg : 0 ≤ 1 - binary32.error := sub_nonneg.mpr binary32.error_le_one
  have whole0 : (0 : ℚ) ≤ d0 := by exact_mod_cast first
  have whole1 : (0 : ℚ) ≤ (1 / 2) ^ 1 * d1 := mul_nonneg (by norm_num) (by exact_mod_cast second)
  have whole2 : (0 : ℚ) ≤ (1 / 2) ^ 2 * d2 := mul_nonneg (by norm_num) (by exact_mod_cast third)
  obtain ⟨units1, close1⟩ := @term_close d1 second 1 (by decide)
  obtain ⟨units2, close2⟩ := @term_close d2 third 2 (by decide)
  have close0 := (Within.refl (d0 : ℚ)).round (units_seconds first)
  rw [mul_one, mul_one] at close0
  -- two roundings before each sum, and one more for the sum
  have weaker := close0.weaken whole0 (pow_le_of_le_one nonneg least two_ne_zero)
    (le_self_pow₀ most two_ne_zero)
  have recent := (weaker.add close1).round ((units_seconds first).round.add units1)
  have unitsR := ((units_seconds first).round.add units1).round
  rw [← pow_succ', ← pow_succ'] at recent
  have older := close2.weaken whole2 (pow_le_pow_of_le_one nonneg least (by decide : 2 ≤ 3))
    (pow_le_pow_right₀ most (by decide : 2 ≤ 3))
  have total := (recent.add older).round (unitsR.add units2)
  rw [← pow_succ', ← pow_succ'] at total
  have same : halfLife d0 d1 d2 = binary32.round
      (binary32.round (binary32.round d0 + binary32.round ((1 / 2) ^ 1 * binary32.round d1)) +
        binary32.round ((1 / 2) ^ 2 * binary32.round d2)) := by
    simp only [halfLife]
    rw [quarter, half]
  rw [same]
  exact ⟨(unitsR.add units2).round.nonneg, total⟩

theorem userUsage_found {user : User} {usages : Nat → Usage}
    (found : ∀ k : Nat, k < 4 → user.cpu_usage.find k = some (usages k))
    (fits : ∀ k : Nat, k < 3 → fits64 ((usages k).usage - (usages (k + 1)).usage)) :
    userUsage user = .ok (halfLife ((usages 0).usage - (usages 1).usage)
      ((usages 1).usage - (usages 2).usage) ((usages 2).usage - (usages 3).usage)) := by
  have lookups (k : Nat) (less : k < 4) : lookup user.cpu_usage k = .ok (usages k) :=
    lookup_eq_ok.mpr (found k less)
  have differences (k : Nat) (less : k < 3) := checkInt64_eq_ok.mpr ⟨fits k less, rfl⟩
  have h0 : lookup user.cpu_usage 0 = .ok (usages 0) := lookups 0 (by omega)
  have h1 : lookup user.cpu_usage 1 = .ok (usages 1) := lookups 1 (by omega)
  have h2 : lookup user.cpu_usage 2 = .ok (usages 2) := lookups 2 (by omega)
  have h3 : lookup user.cpu_usage 3 = .ok (usages 3) := lookups 3 (by omega)
  simp only [userUsage, h0, h1, h2, h3, differences 0 (by omega), differences 1 (by omega),
    differences 2 (by omega), bind, Except.bind]
  rfl

theorem decayed_eq (stored : Nat → Int) :
    decayed stored = ((stored 0 - stored 1 : Int) : ℚ) + (1 / 2) ^ 1 *
    ((stored 1 - stored 2 : Int) : ℚ) +
      (1 / 2) ^ 2 * ((stored 2 - stored 3 : Int) : ℚ) := by
  simp only [decayed, Finset.sum_range_succ, Finset.sum_range_zero]
  ring

end HalfLife

section Windows

variable {records : List AcctObject} {timestamp period : Int}

def sumOf (records : List AcctObject) (timestamp period : Int) (k : Nat) : ℚ :=
  accumulated cpuSeconds records (timestamp - 4 * period) (timestamp - k * period)

theorem sumOf_mono (positive : 0 < period) (counted : ∀ record ∈ records, binary32.Holds record.cpu)
    (k : Nat) :
    sumOf records timestamp period (k + 1) ≤ sumOf records timestamp period k := by
  refine accumulated_mono counted ?_
  push_cast
  rw [add_mul]
  omega

theorem sumOf_nonneg (counted : ∀ record ∈ records, binary32.Holds record.cpu) (k : Nat) :
    0 ≤ sumOf records timestamp period k :=
  accumulated_nonneg counted

theorem unused_or_still (counted : ∀ record ∈ records, binary32.Holds record.cpu) {start stop : Int}
    (idle : consumed AcctObject.cpu records start stop = 0) {record : AcctObject}
    (member : record ∈ records) : record.cpu = 0 ∨ secondsIn record start stop = 0 := by
  have terms : ∀ term ∈ records.map (fun record => record.cpu * (secondsIn record start stop : ℚ)),
      0 ≤ term := by
    intro term inside
    obtain ⟨other, listed, rfl⟩ := List.mem_map.mp inside
    exact mul_nonneg (counted other listed).1.nonneg (by exact_mod_cast secondsIn_nonneg _ _ _)
  have nothing := List.all_zero_of_le_zero_le_of_sum_eq_zero terms idle (List.mem_map_of_mem member)
  exact (mul_eq_zero.mp nothing).imp_right fun still => by exact_mod_cast still

theorem sumOf_idle (positive : 0 < period) (counted : ∀ record ∈ records, binary32.Holds record.cpu)
    (idle : consumed AcctObject.cpu records (timestamp - 3 * period) timestamp = 0) {k : Nat}
    (recent : k ≤ 3) :
    sumOf records timestamp period k = sumOf records timestamp period 3 := by
  refine foldl_addTerm_congr counted binary64.holds_zero ?_
  intro record member
  rcases unused_or_still counted idle member with unused | still
  · exact Or.inl unused
  · right
    have near : (k : Int) * period ≤ 3 * period :=
      mul_le_mul_of_nonneg_right (by exact_mod_cast recent) positive.le
    have far : 0 ≤ (k : Int) * period := mul_nonneg (Int.natCast_nonneg k) positive.le
    have before := secondsIn_split record
      (show timestamp - 4 * period ≤ timestamp - 3 * period by omega)
      (show timestamp - 3 * period ≤ timestamp - (k : Int) * period by omega)
    have later : secondsIn record (timestamp - 3 * period) (timestamp - k * period) ≤
        secondsIn record (timestamp - 3 * period) timestamp := secondsIn_mono record (by omega)
    have nonneg := secondsIn_nonneg record (timestamp - 3 * period) (timestamp - k * period)
    push_cast
    omega

theorem floor_difference {total earlier exact past : ℚ} :
    |((⌊total⌋ - ⌊earlier⌋ : Int) : ℚ) - (exact - past)| <
      1 + |total - exact| + |earlier - past| := by
  have lowT := Int.floor_le total
  have highT := Int.lt_floor_add_one total
  have lowE := Int.floor_le earlier
  have highE := Int.lt_floor_add_one earlier
  have left := neg_abs_le (total - exact)
  have right := le_abs_self (total - exact)
  have below := neg_abs_le (earlier - past)
  have above := le_abs_self (earlier - past)
  push_cast
  rw [abs_lt]
  constructor <;> linarith

theorem timely_of_range (positive : 0 < period) (late : fits64 timestamp)
    (early : fits64 (timestamp - 4 * period)) (span : fits64 (4 * period)) {k : Nat}
    (recent : k < 4) : Timely (timestamp - 4 * period) timestamp period k := by
  have near : (k : Int) * period ≤ 3 * period := mul_le_mul_of_nonneg_right (by omega) positive.le
  have far : 0 ≤ (k : Int) * period := mul_nonneg (Int.natCast_nonneg k) positive.le
  obtain ⟨_, late⟩ := late
  obtain ⟨early, _⟩ := early
  obtain ⟨_, span⟩ := span
  exact ⟨⟨by omega, by omega⟩, ⟨by omega, by omega⟩, by omega⟩

end Windows

theorem withStored_rounded (objects : AcctObjects) (timestamp period : Int) (positive : 0 < period)
    (user : User)
    (counted : ∀ record ∈ AcctPool.get objects user.userID.toNat, binary32.Holds record.cpu)
    (storable : ∀ k < 4, Storable (AcctPool.get objects user.userID.toNat) (timestamp - 4 * period)
      (timestamp - (k : Nat) * period)) :
    ∃ h_usage sums stored, RoundedUsage (AcctPool.get objects user.userID.toNat) timestamp period
      (withStored objects (timestamp - 4 * period) timestamp period 4 user)
      h_usage sums stored := by
  set records := AcctPool.get objects user.userID.toNat with recorded
  let sums : Nat → ℚ := sumOf records timestamp period
  let usages : Nat → Usage := storedEntry cpuSeconds records
    (timestamp - 4 * period) timestamp period
  let stored (k : Nat) : Int := (usages k).usage
  have truncated (k : Nat) : stored k = ⌊sums k⌋ := truncate_of_nonneg (sumOf_nonneg counted k)
  have grows (k : Nat) : 0 ≤ stored k - stored (k + 1) := by
    rw [truncated, truncated]
    exact sub_nonneg.mpr (Int.floor_le_floor (sumOf_mono positive counted k))
  have kept (k : Nat) : 0 ≤ stored k := by
    rw [truncated]
    exact Int.floor_nonneg.mpr (sumOf_nonneg counted k)
  have found (k : Nat) (less : k < 4) :
      (withStored objects (timestamp - 4 * period) timestamp period 4 user).cpu_usage.find
      k = some (usages k) := find_usageMap usages less
  have difference (k : Nat) (less : k < 3) : fits64 (stored k - stored (k + 1)) := by
    obtain ⟨_, small⟩ : fits64 (stored k) := (storable k (by omega)).cpu
    have nonneg := grows k
    have later := kept (k + 1)
    exact ⟨by omega, by omega⟩
  obtain ⟨least, close⟩ := halfLife_close (grows 0) (grows 1) (grows 2)
  refine ⟨halfLife (stored 0 - stored 1) (stored 1 - stored 2) (stored 2 - stored 3), sums, stored,
    ?_⟩
  constructor
  · intro k less
    rw [found k less]
    rfl
  · exact userUsage_found found difference
  · exact fun k _ => truncated k
  · intro k less
    exact accumulated_close counted _ _
  · exact fun k _ => grows k
  · intro k recent
    have step : window records timestamp period k = _ := window_step positive recent
    rw [truncated, truncated, eq_sub_of_add_eq' step.symm]
    exact floor_difference
  · rw [decayed_eq]
    exact close
  · intro idle
    have same (k : Nat) (recent : k ≤ 3) : stored k = stored 3 := by
      rw [truncated, truncated]
      exact congrArg Int.floor (sumOf_idle positive counted idle recent)
    rw [same 0 (by omega), same 1 (by omega), same 2 (by omega), sub_self]
    decide +kernel
  · exact least

theorem half_life_rounded (objects : AcctObjects) (users : List User) (timestamp period : Int)
    (positive : 0 < period) (late : fits64 timestamp) (early : fits64 (timestamp - 4 * period))
    (span : fits64 (4 * period))
    (counted : ∀ user ∈ users, ∀ record ∈ AcctPool.get objects user.userID.toNat,
      binary32.Holds record.cpu)
    (storable : ∀ user ∈ users, ∀ k < 4,
      Storable (AcctPool.get objects user.userID.toNat) (timestamp - 4 * period)
        (timestamp - (k : Nat) * period)) :
    ∃ evaluated, FloatUsage.evalUsage objects users (timestamp - 4 * period) timestamp period 3 =
      .ok evaluated ∧
      List.Forall₂ (fun user result => ∃ h_usage sums stored,
        RoundedUsage (AcctPool.get objects user.userID.toNat) timestamp period result h_usage sums
        stored)
        users evaluated := by
  refine ⟨_, evalUsage_stored objects users 3 (le_refl 3)
    (fun k less => timely_of_range positive late early span less) storable, ?_⟩
  rw [List.forall₂_map_right_iff, List.forall₂_same]
  intro user member
  exact withStored_rounded objects timestamp period positive user (counted user member)
    (storable user member)

section Example

def busyMachine : AcctObject := ⟨0, 1, 7, 0, 512, 12, 32609457, 40000000⟩

def busyObjects : AcctObjects := Map.empty.insert 1 [busyMachine]

def busyUser : User := { User.unset with userID := 1 }

def storedUsage (k : Nat) : Int := if k = 0 then 88686512 else 0

theorem busy_records : AcctPool.get busyObjects busyUser.userID.toNat = [busyMachine] := rfl

theorem busy_storable (k : Nat) (less : k < 4) :
    Storable (AcctPool.get busyObjects busyUser.userID.toNat) (40000000 - 4 * 7390543)
    (40000000 - (k : Nat) * 7390543) := by
  rw [busy_records]
  constructor
  · rw [List.forall_mem_singleton]
    interval_cases k <;> decide +kernel
  · rw [List.forall_mem_singleton]
    interval_cases k <;> decide +kernel
  · interval_cases k <;> decide +kernel
  · interval_cases k <;> decide +kernel

theorem half_life_rounded_busyMachine :
    ∃ evaluated, FloatUsage.evalUsage busyObjects [busyUser] (40000000 - 4 * 7390543) 40000000
        7390543 3 = .ok evaluated ∧
      List.Forall₂ (fun user result => ∃ h_usage sums stored,
        RoundedUsage (AcctPool.get busyObjects user.userID.toNat) 40000000 7390543 result h_usage
        sums stored)
        [busyUser] evaluated := by
  refine half_life_rounded busyObjects [busyUser] 40000000 7390543 (by decide) (by decide)
    (by decide) (by decide) ?_ ?_
  · intro user member record inside
    rw [List.mem_singleton.mp member, busy_records, List.mem_singleton] at inside
    rw [inside]
    exact ⟨⟨12 * 2 ^ 149, by decide +kernel⟩, by decide +kernel⟩
  · intro user member k less
    rw [List.mem_singleton.mp member]
    exact busy_storable k less

-- 88686512 is stored for 88686516 seconds
theorem half_life_not_exact :
    ∃ (result : User) (h_usage : ℚ) (stored : Nat → Int),
      FloatUsage.evalUsage busyObjects [busyUser] (40000000 - 4 * 7390543) 40000000 7390543 3 =
        .ok [result] ∧
        (∀ k : Nat, k < 4 → (result.cpu_usage.find k).map Usage.usage = some (stored k)) ∧
        userUsage result = .ok h_usage ∧
        ¬ |((stored 0 - stored 1 : Int) : ℚ) - periodUsage [busyMachine] 40000000 7390543 0| < 1 ∧
        ¬ |h_usage - ∑ k ∈ Finset.range 3,
          (1 / 2) ^ k * periodUsage [busyMachine] 40000000 7390543 k| < 7 / 4 := by
  let usages : Nat → Usage := storedEntry cpuSeconds [busyMachine]
    (40000000 - 4 * 7390543) 40000000 7390543
  have same : ∀ k : Nat, k < 4 → (usages k).usage = storedUsage k := by decide +kernel
  have found (k : Nat) (less : k < 4) :
      (withStored busyObjects (40000000 - 4 * 7390543) 40000000 7390543 4
      busyUser).cpu_usage.find k = some (usages k) := find_usageMap usages less
  refine ⟨withStored busyObjects (40000000 - 4 * 7390543) 40000000 7390543 4 busyUser, 88686512,
    storedUsage, ?_, ?_, ?_, ?_, ?_⟩
  · exact evalUsage_stored busyObjects [busyUser] 3 (le_refl 3)
      (fun k less => timely_of_range (by decide) (by decide) (by decide) (by decide) less)
      fun user member k less => by rw [List.mem_singleton.mp member]; exact busy_storable k less
  · intro k less
    rw [found k less, Option.map_some, same k less]
  · have fits : ∀ k : Nat, k < 3 → fits64 ((usages k).usage - (usages (k + 1)).usage) := by
      decide +kernel
    rw [userUsage_found found fits, same 0 (by decide), same 1 (by decide), same 2 (by decide),
      same 3 (by decide)]
    decide +kernel
  · decide +kernel
  · decide +kernel

end Example

end OneFass.Pm.FloatHalfLife
