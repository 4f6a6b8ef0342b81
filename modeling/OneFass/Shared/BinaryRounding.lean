import Mathlib.Algebra.Order.Ring.Nat
import Mathlib.Data.Nat.Size
import Mathlib.Tactic.SplitIfs

set_option autoImplicit false

namespace BinaryRounding

/-- The multiple of `d` nearest to `n`, counted in units of `d`. -/
def roundEven (n d : Nat) : Nat :=
  if 2 * (n % d) < d then n / d
  else if d < 2 * (n % d) then n / d + 1
  else n / d + n / d % 2

theorem roundEven_mul (q : Nat) {d : Nat} (positive : 0 < d) : roundEven (q * d) d = q := by
  simp [roundEven, Nat.mul_div_cancel _ positive, positive]

theorem le_roundEven (n d : Nat) : n / d ≤ roundEven n d := by
  rw [roundEven]
  split_ifs <;> omega

theorem roundEven_le (n d : Nat) : roundEven n d ≤ n / d + 1 := by
  rw [roundEven]
  split_ifs <;> omega

theorem roundEven_mono {d a b : Nat} (le : a ≤ b) : roundEven a d ≤ roundEven b d := by
  rcases Nat.lt_or_eq_of_le (Nat.div_le_div_right le : a / d ≤ b / d) with less | same
  · -- a later multiple is between them
    calc roundEven a d ≤ a / d + 1 := roundEven_le a d
      _ ≤ b / d := less
      _ ≤ roundEven b d := le_roundEven b d
  · have divA := Nat.div_add_mod a d
    have divB := Nat.div_add_mod b d
    rw [← same] at divB
    have remainders : a % d ≤ b % d := by omega
    simp only [roundEven, ← same]
    split_ifs <;> omega

def toDigits (digits n : Nat) : Nat := roundEven n (2 ^ (n.size - digits)) * 2 ^ (n.size - digits)

theorem toDigits_of_lt {digits n : Nat} (small : n < 2 ^ digits) : toDigits digits n = n := by
  have size := Nat.size_le.mpr small
  have whole := roundEven_mul n (Nat.one_pos)
  rw [Nat.mul_one] at whole
  rw [toDigits, Nat.sub_eq_zero_of_le size, Nat.pow_zero, whole, Nat.mul_one]

theorem roundEven_pow {k spacing : Nat} (fine : spacing ≤ k) :
    roundEven (2 ^ k) (2 ^ spacing) * 2 ^ spacing = 2 ^ k := by
  have split : 2 ^ k = 2 ^ (k - spacing) * 2 ^ spacing := by
    rw [← Nat.pow_add, Nat.sub_add_cancel fine]
  rw [split, roundEven_mul _ (Nat.two_pow_pos spacing)]

theorem toDigits_le {digits n k : Nat} (below : n ≤ 2 ^ k) (fine : n.size ≤ k + digits) :
    toDigits digits n ≤ 2 ^ k := by
  rw [toDigits, ← roundEven_pow (by omega : n.size - digits ≤ k)]
  exact Nat.mul_le_mul_right _ (roundEven_mono below)

theorem le_toDigits {digits n k : Nat} (above : 2 ^ k ≤ n) (fine : n.size ≤ k + digits) :
    2 ^ k ≤ toDigits digits n := by
  rw [toDigits, ← roundEven_pow (by omega : n.size - digits ≤ k)]
  exact Nat.mul_le_mul_right _ (roundEven_mono above)

theorem toDigits_mono {digits a b : Nat} (positive : 0 < digits) (le : a ≤ b) :
    toDigits digits a ≤ toDigits digits b := by
  rcases Nat.lt_or_eq_of_le (Nat.size_le_size le) with shorter | same
  · have above : 2 ^ (b.size - 1) ≤ b := Nat.lt_size.mp (by omega)
    have grown : 2 ^ a.size ≤ 2 ^ (b.size - 1) := Nat.pow_le_pow_right (by omega) (by omega)
    calc toDigits digits a ≤ 2 ^ a.size :=
      toDigits_le (Nat.le_of_lt (Nat.lt_size_self a)) (by omega)
      _ ≤ 2 ^ (b.size - 1) := grown
      _ ≤ toDigits digits b := le_toDigits above (by omega)
  · rw [toDigits, toDigits, same]
    exact Nat.mul_le_mul_right _ (roundEven_mono le)

example : toDigits 24 16777216 = 16777216 ∧ toDigits 24 16777217 = 16777216 ∧
  toDigits 24 16777219 = 16777220 := by
  decide

end BinaryRounding
