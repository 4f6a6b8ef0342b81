import Mathlib.Analysis.SpecialFunctions.Pow.Real
import Mathlib.NumberTheory.Padics.PadicVal.Basic
import OneFass.Shared.OrderedMap

set_option autoImplicit false

namespace ExactPower

structure Scaled where
  coefficient : ℚ
  exponent : ℚ
  deriving DecidableEq

namespace Scaled

noncomputable def value (x : Scaled) : ℝ := x.coefficient * (2 : ℝ) ^ (x.exponent : ℝ)

def ofRat (q : ℚ) : Scaled := ⟨q, 0⟩

def pow2 (exponent : ℚ) : Scaled := ⟨1, exponent⟩

def scale (x : Scaled) (q : ℚ) : Scaled := ⟨x.coefficient * q, x.exponent⟩

@[simp] theorem value_ofRat (q : ℚ) : (ofRat q).value = q := by simp [value, ofRat]

@[simp] theorem value_pow2 (q : ℚ) : (pow2 q).value = (2 : ℝ) ^ (q : ℝ) := by simp [value, pow2]

@[simp] theorem value_scale (x : Scaled) (q : ℚ) : (x.scale q).value = x.value * q := by
  simp only [value, scale, Rat.cast_mul]
  ring

theorem value_pos (x : Scaled) : 0 < x.value ↔ 0 < x.coefficient := by
  have power : (0 : ℝ) < 2 ^ (x.exponent : ℝ) := Real.rpow_pos_of_pos (by norm_num) _
  rw [value, mul_pos_iff_of_pos_right power, Rat.cast_pos]

theorem value_neg (x : Scaled) : x.value < 0 ↔ x.coefficient < 0 := by
  have power : (0 : ℝ) < 2 ^ (x.exponent : ℝ) := Real.rpow_pos_of_pos (by norm_num) _
  rw [value, mul_neg_iff, Rat.cast_lt_zero]
  simp [power, not_lt.mpr power.le]

theorem abs_value (x : Scaled) : |x.value| = |x.coefficient| * (2 : ℝ) ^ (x.exponent : ℝ) := by
  have power : (0 : ℝ) < 2 ^ (x.exponent : ℝ) := Real.rpow_pos_of_pos (by norm_num) _
  rw [value, abs_mul, abs_of_pos power, Rat.cast_abs]

theorem cast_two_zpow (n : ℤ) : (((2 : ℚ) ^ n : ℚ) : ℝ) = (2 : ℝ) ^ n := by simp

theorem two_rpow_pow_den (q : ℚ) : ((2 : ℝ) ^ (q : ℝ)) ^ q.den = (2 : ℝ) ^ q.num := by
  rw [← Real.rpow_mul_natCast (by norm_num), ← Real.rpow_intCast]
  congr 1
  exact_mod_cast Rat.mul_den_eq_num q

def magnitudeLt (a b : Scaled) : Bool :=
  let difference := b.exponent - a.exponent
  decide (|a.coefficient| ^ difference.den < |b.coefficient| ^ difference.den * 2 ^ difference.num)

theorem magnitudeLt_iff (a b : Scaled) : magnitudeLt a b = true ↔ |a.value| < |b.value| := by
  set difference := b.exponent - a.exponent with gap
  have power : (0 : ℝ) < 2 ^ (a.exponent : ℝ) := Real.rpow_pos_of_pos (by norm_num) _
  have split : (2 : ℝ) ^ (b.exponent : ℝ) = 2 ^ (difference : ℝ) * 2 ^ (a.exponent : ℝ) := by
    rw [← Real.rpow_add (by norm_num), gap]
    push_cast
    ring_nf
  rw [abs_value, abs_value, split, ← mul_assoc, mul_lt_mul_iff_left₀ power,
    ← pow_lt_pow_iff_left₀ (by positivity) (by positivity) difference.den_nz, mul_pow,
    two_rpow_pow_den, ← cast_two_zpow]
  simp only [magnitudeLt, ← gap, decide_eq_true_eq]
  exact_mod_cast Iff.rfl

def lt (a b : Scaled) : Bool :=
  if a.coefficient < 0 then decide (0 ≤ b.coefficient) || magnitudeLt b a
  else decide (0 < b.coefficient) && magnitudeLt a b

theorem lt_iff (a b : Scaled) : lt a b = true ↔ a.value < b.value := by
  simp only [lt]
  split_ifs with negative
  · have left := (value_neg a).mpr negative
    by_cases sign : 0 ≤ b.coefficient
    · have right : 0 ≤ b.value := not_lt.mp fun h => absurd ((value_neg b).mp h) (not_lt.mpr sign)
      simp only [sign, decide_true, Bool.true_or, true_iff]
      exact lt_of_lt_of_le left right
    · have right := (value_neg b).mpr (not_le.mp sign)
      simp only [sign, decide_false, Bool.false_or, magnitudeLt_iff, abs_of_neg left,
        abs_of_neg right]
      exact neg_lt_neg_iff
  · have left : 0 ≤ a.value := not_lt.mp fun h => negative ((value_neg a).mp h)
    by_cases sign : 0 < b.coefficient
    · have right := (value_pos b).mpr sign
      simp [sign, magnitudeLt_iff, abs_of_nonneg left, abs_of_pos right]
    · have right : b.value ≤ 0 := not_lt.mp fun h => sign ((value_pos b).mp h)
      simp only [sign, decide_false, Bool.false_and, Bool.false_eq_true, false_iff, not_lt]
      exact right.trans left

theorem value_eq_iff_quotient (a b e f : ℚ) :
    (Scaled.mk a e).value = (Scaled.mk b f).value ↔ (b : ℝ) = a * 2 ^ ((e - f : ℚ) : ℝ) := by
  have power : (0 : ℝ) < 2 ^ (f : ℝ) := Real.rpow_pos_of_pos (by norm_num) _
  have split : (2 : ℝ) ^ (e : ℝ) = 2 ^ ((e - f : ℚ) : ℝ) * 2 ^ (f : ℝ) := by
    rw [← Real.rpow_add (by norm_num)]
    push_cast
    ring_nf
  simp only [value, split, ← mul_assoc]
  rw [mul_left_inj' power.ne', eq_comm]

-- the 2-adic valuation of both sides makes the exponent an integer
theorem integral_of_pow {q d : ℚ} (cleared : q ^ d.den = (2 : ℚ) ^ d.num) :
    d = padicValRat 2 q := by
  have valuation := congrArg (padicValRat 2) cleared
  have base : padicValRat 2 (2 : ℚ) = 1 := padicValRat.self one_lt_two
  rw [padicValRat.pow, padicValRat.zpow, base, mul_one] at valuation
  rw [← Rat.num_div_den d, ← valuation]
  have den : (d.den : ℚ) ≠ 0 := by exact_mod_cast d.den_nz
  push_cast
  field_simp

theorem value_eq_iff (a b e f : ℚ) (positive : 0 < a) :
    (Scaled.mk a e).value = (Scaled.mk b f).value ↔ ∃ k : ℤ, e - f = k ∧ b = a * 2 ^ k := by
  rw [value_eq_iff_quotient]
  constructor
  · intro equal
    set d := e - f
    have cleared : (b / a) ^ d.den = (2 : ℚ) ^ d.num := by
      have real : ((b / a : ℚ) : ℝ) ^ d.den = (2 : ℝ) ^ d.num := by
        rw [← two_rpow_pow_den, Rat.cast_div, equal]
        congr 1
        field_simp
      rw [← cast_two_zpow] at real
      exact_mod_cast real
    have integral := integral_of_pow cleared
    refine ⟨padicValRat 2 (b / a), integral, ?_⟩
    rw [integral] at equal
    have real : (b : ℝ) = a * (2 : ℝ) ^ padicValRat 2 (b / a) := by
      simpa [Real.rpow_intCast] using equal
    rw [← cast_two_zpow] at real
    exact_mod_cast real
  · rintro ⟨k, integral, equal⟩
    rw [integral, equal]
    simp [Real.rpow_intCast]

end Scaled

-- finite values are taken exactly
inductive FloatValue (α : Type) where
  | nan
  | infinite (negative : Bool)
  | finite (value : α)
  deriving DecidableEq

namespace FloatValue

variable {α : Type}

def map {β : Type} (f : α → β) : FloatValue α → FloatValue β
  | nan => nan
  | infinite negative => infinite negative
  | finite value => finite (f value)

/-- The IEEE comparison `a < b`: a NaN compares with nothing. -/
def lt (less : α → α → Bool) : FloatValue α → FloatValue α → Bool
  | nan, _ => false
  | _, nan => false
  | infinite true, infinite negative => !negative
  | infinite true, finite _ => true
  | infinite false, _ => false
  | finite _, infinite negative => !negative
  | finite a, finite b => less a b

@[simp] theorem lt_finite (less : α → α → Bool) (a b : α) :
    lt less (finite a) (finite b) = less a b := rfl

end FloatValue

-- the order of `std::greater<float>`
def greaterOrder : OrderedMap.KeyOrder (FloatValue Scaled) where
  lt a b := FloatValue.lt Scaled.lt b a
  irrefl key := by
    rcases key with _ | ⟨_ | _⟩ | x
    · rfl
    · rfl
    · rfl
    · exact Bool.eq_false_iff.mpr fun h => lt_irrefl _ ((Scaled.lt_iff x x).mp h)
  trans a b c := by
    rcases a with _ | ⟨_ | _⟩ | x <;> rcases b with _ | ⟨_ | _⟩ | y <;>
      rcases c with _ | ⟨_ | _⟩ | z <;> simp [FloatValue.lt, Scaled.lt_iff]
    exact fun first second => second.trans first

theorem greaterOrder_finite (a b : Scaled) :
    greaterOrder.lt (.finite a) (.finite b) = true ↔ b.value < a.value := Scaled.lt_iff b a

theorem apart_finite (a b : Scaled) :
    greaterOrder.Apart (.finite a) (.finite b) ↔ a.value ≠ b.value := by
  simp only [OrderedMap.KeyOrder.Apart, greaterOrder_finite]
  exact lt_or_lt_iff_ne.trans ne_comm

end ExactPower
