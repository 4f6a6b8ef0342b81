import Mathlib.Data.Rat.Floor
import Mathlib.Tactic.FieldSimp
import Mathlib.Tactic.Linarith
import Mathlib.Tactic.Positivity
import Mathlib.Tactic.Ring
import OneFass.Shared.BinaryRounding

set_option autoImplicit false

namespace BinaryRounding

section Digits

variable {digits n : Nat}

theorem toDigits_of_dvd (divides : 2 ^ (n.size - digits) ∣ n) : toDigits digits n = n := by
  obtain ⟨q, same⟩ := divides
  have rounded := roundEven_mul q (Nat.two_pow_pos (n.size - digits))
  rw [Nat.mul_comm, ← same] at rounded
  rw [toDigits, rounded, Nat.mul_comm, ← same]

-- the rounded number is shorter than the next power of 2, or it is that power
theorem toDigits_idem (positive : 0 < digits) (n : Nat) :
    toDigits digits (toDigits digits n) = toDigits digits n := by
  have bound : toDigits digits n ≤ 2 ^ n.size :=
    toDigits_le (Nat.le_of_lt (Nat.lt_size_self n)) (Nat.le_add_right _ _)
  rcases Nat.lt_or_eq_of_le bound with shorter | power
  · have size := Nat.size_le.mpr shorter
    apply toDigits_of_dvd
    exact (Nat.pow_dvd_pow 2 (by omega)).trans (Dvd.intro_left _ rfl)
  · rw [power]
    apply toDigits_of_dvd
    rw [Nat.size_pow]
    exact Nat.pow_dvd_pow 2 (by omega)

theorem dvd_toDigits {k : Nat} (divides : 2 ^ k ∣ n) : 2 ^ k ∣ toDigits digits n := by
  rcases Nat.le_total (n.size - digits) k with fine | coarse
  · rwa [toDigits_of_dvd ((Nat.pow_dvd_pow 2 fine).trans divides)]
  · exact (Nat.pow_dvd_pow 2 coarse).trans (Dvd.intro_left _ rfl)

theorem roundEven_close {d : Nat} (n : Nat) (positive : 0 < d) :
    2 * (roundEven n d * d) ≤ 2 * n + d ∧ 2 * n ≤ 2 * (roundEven n d * d) + d := by
  have split := Nat.div_add_mod' n d
  have less := Nat.mod_lt n positive
  rw [roundEven]
  split_ifs with below above
  · omega
  · rw [Nat.add_mul, Nat.one_mul]
    omega
  · rcases Nat.mod_two_eq_zero_or_one (n / d) with even | odd
    · rw [even, Nat.add_zero]
      omega
    · rw [odd, Nat.add_mul, Nat.one_mul]
      omega

theorem toDigits_close (digits n : Nat) :
    2 ^ digits * toDigits digits n ≤ (2 ^ digits + 1) * n ∧
    (2 ^ digits - 1) * n ≤ 2 ^ digits * toDigits digits n := by
  rcases Nat.lt_or_ge n (2 ^ digits) with small | large
  · rw [toDigits_of_lt small]
    exact ⟨Nat.mul_le_mul_right _ (Nat.le_succ _), Nat.mul_le_mul_right _ (Nat.sub_le _ _)⟩
  · have long : digits < n.size := Nat.lt_size.mpr large
    have first : 2 ^ (n.size - 1) ≤ n := Nat.lt_size.mp (by omega)
    have spacing : 2 ^ digits * 2 ^ (n.size - digits) = 2 * 2 ^ (n.size - 1) := by
      rw [← Nat.pow_add, ← Nat.pow_succ']
      congr 1
      omega
    obtain ⟨upper, lower⟩ := roundEven_close n (Nat.two_pow_pos (n.size - digits))
    have one : 1 ≤ 2 ^ digits := Nat.one_le_two_pow
    rw [toDigits]
    constructor
    · have scaled := Nat.mul_le_mul_left (2 ^ digits) upper
      nlinarith
    · have scaled := Nat.mul_le_mul_left (2 ^ digits) lower
      zify [one]
      zify at scaled spacing first
      nlinarith

end Digits

-- `digits` significant binary digits, none of them below the place `2 ^ -places`
structure Format where
  digits : Nat
  places : Nat

def binary32 : Format := ⟨24, 149⟩

def binary64 : Format := ⟨53, 1074⟩

def quotientDigits (digits n d : Nat) : Nat :=
  roundEven n (d * 2 ^ ((n / d).size - digits)) * 2 ^ ((n / d).size - digits)

theorem roundEven_scale (n d : Nat) {c : Nat} (positive : 0 < c) :
    roundEven (n * c) (d * c) = roundEven n d := by
  have bound (x y : Nat) : 2 * (x * c) < y * c ↔ 2 * x < y := by
    rw [← Nat.mul_assoc, Nat.mul_lt_mul_right positive]
  have above (x y : Nat) : x * c < 2 * (y * c) ↔ x < 2 * y := by
    rw [← Nat.mul_assoc, Nat.mul_lt_mul_right positive]
  simp only [roundEven, Nat.mul_mod_mul_right, Nat.mul_div_mul_right _ _ positive, bound, above]

theorem quotientDigits_mul (digits n : Nat) {d : Nat} (positive : 0 < d) :
    quotientDigits digits (n * d) d = toDigits digits n := by
  rw [quotientDigits, Nat.mul_div_cancel _ positive, toDigits, Nat.mul_comm d,
    roundEven_scale _ _ positive]

namespace Format

/-- The nearest number of the format, to even digits between two. -/
def round (format : Format) (value : ℚ) : ℚ :=
  let magnitude : ℚ :=
    quotientDigits format.digits (value.num.natAbs * 2 ^ format.places)
      value.den / 2 ^ format.places
  if value < 0 then -magnitude else magnitude

-- a whole number of the last places
def Units (format : Format) (value : ℚ) : Prop := ∃ units : Nat, value = units / 2 ^ format.places

def Holds (format : Format) (value : ℚ) : Prop := format.Units value ∧ format.round value = value

variable {format : Format} {value other : ℚ}

theorem round_units (format : Format) (units : Nat) :
    format.round (units / 2 ^ format.places) =
      (toDigits format.digits units : Nat) / 2 ^ format.places := by
  set value : ℚ := units / 2 ^ format.places with same
  have nonneg : 0 ≤ value := by positivity
  have numerator : value.num.natAbs * 2 ^ format.places = units * value.den := by
    have places : (2 : ℚ) ^ format.places ≠ 0 := by positivity
    have den : (value.den : ℚ) ≠ 0 := by exact_mod_cast value.den_ne_zero
    have whole : ((value.num.natAbs : Nat) : ℚ) = value.num := by
      rw [Nat.cast_natAbs, abs_of_nonneg (Rat.num_nonneg.mpr nonneg)]
    have quotient : (value.num : ℚ) / value.den = units / 2 ^ format.places := by
      rw [Rat.num_div_den, same]
    rw [div_eq_div_iff den places] at quotient
    rw [← whole] at quotient
    exact_mod_cast quotient
  simp only [round, numerator, quotientDigits_mul _ _ value.den_pos, if_neg (not_lt.mpr nonneg)]

theorem Units.nonneg (units : format.Units value) : 0 ≤ value := by
  obtain ⟨count, rfl⟩ := units
  positivity

theorem units_natCast (format : Format) (n : Nat) : format.Units n :=
  ⟨n * 2 ^ format.places, by
    push_cast
    rw [mul_div_cancel_right₀]
    positivity⟩

theorem units_zero (format : Format) : format.Units 0 := by simpa using format.units_natCast 0

theorem Units.add (first : format.Units value) (second : format.Units other) :
    format.Units (value + other) := by
  obtain ⟨m, rfl⟩ := first
  obtain ⟨n, rfl⟩ := second
  exact ⟨m + n, by push_cast; ring⟩

theorem Units.mul_nat (units : format.Units value) (n : Nat) : format.Units (value * n) := by
  obtain ⟨m, rfl⟩ := units
  exact ⟨m * n, by push_cast; ring⟩

theorem Units.widen {wider : Format} (units : format.Units value)
    (more : format.places ≤ wider.places) :
    wider.Units value := by
  obtain ⟨m, rfl⟩ := units
  refine ⟨m * 2 ^ (wider.places - format.places), ?_⟩
  have split : (2 : ℚ) ^ wider.places = 2 ^ (wider.places - format.places) * 2 ^ format.places := by
    rw [← pow_add, Nat.sub_add_cancel more]
  rw [split]
  push_cast
  field_simp

theorem Units.round (units : format.Units value) : format.Units (format.round value) := by
  obtain ⟨m, rfl⟩ := units
  exact ⟨_, format.round_units m⟩

theorem round_natCast (format : Format) (n : Nat) : ∃ m : Nat, format.round n = m := by
  obtain ⟨m, same⟩ := @dvd_toDigits format.digits _ format.places (Dvd.intro_left n rfl)
  have places : (2 : ℚ) ^ format.places ≠ 0 := by positivity
  have units : (n : ℚ) = (n * 2 ^ format.places : Nat) / 2 ^ format.places := by
    push_cast
    rw [mul_div_cancel_right₀ _ places]
  refine ⟨m, ?_⟩
  rw [units, round_units, same]
  push_cast
  rw [mul_div_cancel_left₀ _ places]

theorem round_mono (positive : 0 < format.digits) (first : format.Units value)
    (second : format.Units other) (le : value ≤ other) :
    format.round value ≤ format.round other := by
  obtain ⟨m, rfl⟩ := first
  obtain ⟨n, rfl⟩ := second
  have places : (0 : ℚ) < 2 ^ format.places := by positivity
  rw [div_le_div_iff_of_pos_right places] at le
  rw [round_units, round_units, div_le_div_iff_of_pos_right places]
  exact_mod_cast toDigits_mono positive (by exact_mod_cast le)

theorem round_idem (positive : 0 < format.digits) (units : format.Units value) :
    format.round (format.round value) = format.round value := by
  obtain ⟨m, rfl⟩ := units
  rw [round_units, round_units, toDigits_idem positive]

theorem Units.holds (positive : 0 < format.digits) (units : format.Units value) :
    format.Holds (format.round value) :=
  ⟨units.round, round_idem positive units⟩

theorem holds_zero (format : Format) : format.Holds 0 := by
  refine ⟨format.units_zero, ?_⟩
  have rounded := format.round_units 0
  rwa [toDigits_of_lt (Nat.two_pow_pos _), Nat.cast_zero, zero_div] at rounded

def error (format : Format) : ℚ := 1 / 2 ^ format.digits

theorem round_close (units : format.Units value) :
    (1 - format.error) * value ≤ format.round value ∧
    format.round value ≤ (1 + format.error) * value := by
  obtain ⟨m, rfl⟩ := units
  obtain ⟨upper, lower⟩ := toDigits_close format.digits m
  have power : (0 : ℚ) < 2 ^ format.digits := by positivity
  have places : (0 : ℚ) < 2 ^ format.places := by positivity
  have high : (2 : ℚ) ^ format.digits * (toDigits format.digits m : Nat) ≤
      (2 ^ format.digits + 1) * m := by
    exact_mod_cast upper
  have low : (2 ^ format.digits - 1) * (m : ℚ) ≤
      2 ^ format.digits * (toDigits format.digits m : Nat) := by
    have one : 1 ≤ 2 ^ format.digits := Nat.one_le_two_pow
    have cast := (Nat.cast_le (α := ℚ)).mpr lower
    push_cast [Nat.cast_sub one] at cast
    exact cast
  rw [round_units, error, ← mul_div_assoc, ← mul_div_assoc, div_le_div_iff_of_pos_right places,
    div_le_div_iff_of_pos_right places]
  constructor
  · rw [← mul_le_mul_iff_right₀ power]
    calc 2 ^ format.digits * ((1 - 1 / 2 ^ format.digits) * (m : ℚ)) =
      (2 ^ format.digits - 1) * m := by
          field_simp
      _ ≤ 2 ^ format.digits * (toDigits format.digits m : Nat) := low
  · rw [← mul_le_mul_iff_right₀ power]
    calc 2 ^ format.digits * ((toDigits format.digits m : Nat) : ℚ) ≤ (2 ^ format.digits + 1) * m :=
      high
      _ = 2 ^ format.digits * ((1 + 1 / 2 ^ format.digits) * (m : ℚ)) := by field_simp

theorem error_le_one (format : Format) : format.error ≤ 1 := by
  rw [error, div_le_one (by positivity)]
  exact one_le_pow₀ (by norm_num)

theorem error_nonneg (format : Format) : 0 ≤ format.error := by
  rw [error]
  positivity

end Format

def Within (low high exact value : ℚ) : Prop := low * exact ≤ value ∧ value ≤ high * exact

namespace Within

variable {low high exact value other more : ℚ}

theorem refl (value : ℚ) : Within 1 1 value value := by
  rw [Within, one_mul]
  exact ⟨le_rfl, le_rfl⟩

theorem add (first : Within low high exact value) (second : Within low high other more) :
    Within low high (exact + other) (value + more) := by
  rw [Within, mul_add, mul_add]
  exact ⟨add_le_add first.1 second.1, add_le_add first.2 second.2⟩

theorem scale {factor : ℚ} (nonneg : 0 ≤ factor) (within : Within low high exact value) :
    Within low high (factor * exact) (factor * value) := by
  rw [Within, mul_left_comm, mul_left_comm high]
  exact ⟨mul_le_mul_of_nonneg_left within.1 nonneg, mul_le_mul_of_nonneg_left within.2 nonneg⟩

theorem weaken {lower higher : ℚ} (within : Within low high exact value) (nonneg : 0 ≤ exact)
    (less : lower ≤ low) (greater : high ≤ higher) : Within lower higher exact value :=
  ⟨(mul_le_mul_of_nonneg_right less nonneg).trans within.1,
    within.2.trans (mul_le_mul_of_nonneg_right greater nonneg)⟩

theorem round {format : Format} (within : Within low high exact value)
    (units : format.Units value) :
    Within ((1 - format.error) * low) ((1 + format.error) * high) exact (format.round value) := by
  obtain ⟨below, above⟩ := Format.round_close units
  have least : 0 ≤ 1 - format.error := sub_nonneg.mpr format.error_le_one
  have most : 0 ≤ 1 + format.error := add_nonneg zero_le_one format.error_nonneg
  rw [Within, mul_assoc, mul_assoc]
  exact ⟨(mul_le_mul_of_nonneg_left within.1 least).trans below,
    above.trans (mul_le_mul_of_nonneg_left within.2 most)⟩

end Within

end BinaryRounding
