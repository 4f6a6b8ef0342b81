import Mathlib.Data.List.TakeWhile
import OneFass.Shared.ExactPower
import OneFass.Shared.Runtime

set_option autoImplicit false

namespace Runtime

open ExactPower

def integerText (text : Text) : Option Int :=
  let (negative, digits) := takeSign text
  if digits ≠ [] ∧ digits.all Char.isDigit then some (signed negative (digitsValue digits))
  else none

def lexicalInteger (lowest highest : Int) (text : Text) : Option Int :=
  (integerText text).filter fun value => lowest ≤ value ∧ value ≤ highest

def lexicalInt16 : Text → Option Int := lexicalInteger (-2 ^ 15) (2 ^ 15 - 1)

def lexicalInt64 : Text → Option Int := lexicalInteger (-2 ^ 63) (2 ^ 63 - 1)

-- `parse_inf_nan`, which is tried before the digits
def infinityOrNan (text : Text) : Option (FloatValue ℚ) :=
  let (negative, rest) := takeSign text
  let lower := rest.map Char.toLower
  if lower = "inf".toList ∨ lower = "infinity".toList then some (.infinite negative)
  else if lower = "nan".toList ∨ (lower.take 4 = "nan(".toList ∧ rest.getLast? = some ')') then
    some .nan
  else none

def decimalText (text : Text) : Option ℚ :=
  let (negative, rest) := takeSign text
  match scanDecimal rest with
  | none => none
  | some (magnitude, tail) =>
      let value := if negative then -magnitude else magnitude
      match tail, scanExponent tail with
      | [], _ => boundFloat value
      | _, some (exponent, _ :: _, []) => boundFloat (value * 10 ^ exponent)
      | _, _ => none

-- for a `float`, without rounding
def lexicalFloat (text : Text) : Option (FloatValue ℚ) :=
  match infinityOrNan text with
  | some value => some value
  | none => (decimalText text).map .finite

theorem lexicalInteger_eq_some {lowest highest : Int} {text : Text} {value : Int} :
    lexicalInteger lowest highest text = some value ↔
      integerText text = some value ∧ lowest ≤ value ∧ value ≤ highest := by
  simp [lexicalInteger, Option.filter_eq_some_iff]

theorem integerText_eq_some {text : Text} {value : Int} :
    integerText text = some value ↔ ∃ negative digits, takeSign text = (negative, digits) ∧
    digits ≠ [] ∧
      (∀ c ∈ digits, c.isDigit = true) ∧ signed negative (digitsValue digits) = value := by
  rcases signs : takeSign text with ⟨negative, digits⟩
  simp only [integerText, signs]
  split_ifs with whole
  · simp_all
  · simp only [Prod.mk.injEq, false_iff, not_exists, not_and]
    rintro _ _ ⟨rfl, rfl⟩ nonempty digital
    exact absurd ⟨nonempty, List.all_eq_true.mpr digital⟩ whole

section Digits

theorem toLower_digit {c : Char} (digit : c.isDigit = true) : c.toLower = c := by
  simp only [Char.isDigit, Bool.and_eq_true, decide_eq_true_eq, ge_iff_le,
    UInt32.le_iff_toNat_le] at digit
  have notUpper : ¬ (c.val ≥ 'A'.val ∧ c.val ≤ 'Z'.val) := by
    simp only [ge_iff_le, UInt32.le_iff_toNat_le, not_and, not_le]
    intro above
    simp at above digit ⊢
    omega
  exact dif_neg notUpper

variable {digits : Text}

theorem scanDecimal_digits (nonempty : digits ≠ []) (whole : ∀ c ∈ digits, c.isDigit = true) :
    scanDecimal digits = some ((digitsValue digits : ℚ), []) := by
  have taken : digits.takeWhile Char.isDigit = digits := List.takeWhile_eq_self_iff.mpr whole
  have dropped : digits.dropWhile Char.isDigit = [] := List.dropWhile_eq_nil_iff.mpr whole
  simp [scanDecimal, taken, dropped, nonempty]

theorem infinityOrNan_digits {text : Text} {negative : Bool}
    (signs : takeSign text = (negative, digits)) (whole : ∀ c ∈ digits, c.isDigit = true) :
    infinityOrNan text = none := by
  have lower : digits.map Char.toLower = digits := by
    rw [List.map_congr_left fun c member => toLower_digit (whole c member), List.map_id']
  simp only [infinityOrNan, signs, lower]
  have inside (word : Text) (same : digits = word) : ∀ c ∈ word, c.isDigit = true := same ▸ whole
  have start (same : digits.take 4 = "nan(".toList) : ('n').isDigit = true := by
    apply whole
    apply List.mem_of_mem_take
    rw [same]
    exact List.mem_cons_self
  rw [if_neg, if_neg]
  · rintro (same | ⟨same, _⟩)
    · exact absurd (inside _ same 'n' (by decide)) (by decide)
    · exact absurd (start same) (by decide)
  · rintro (same | same)
    · exact absurd (inside _ same 'n' (by decide)) (by decide)
    · exact absurd (inside _ same 'n' (by decide)) (by decide)

end Digits

theorem lexicalFloat_of_int16 {text : Text} {value : Int} (read : lexicalInt16 text = some value) :
    lexicalFloat text = some (.finite value) := by
  obtain ⟨denoted, low, high⟩ := lexicalInteger_eq_some.mp read
  obtain ⟨negative, digits, signs, nonempty, whole, rfl⟩ := integerText_eq_some.mp denoted
  have bounded : boundFloat (signed negative (digitsValue digits)) =
      some (signed negative (digitsValue digits) : ℚ) := by
    rw [boundFloat, if_pos]
    constructor
    · exact le_trans (by norm_num [maxFloat]) (Int.cast_le.mpr low)
    · exact le_trans (Int.cast_le.mpr high) (by norm_num [maxFloat])
  have value : (if negative then -(digitsValue digits : ℚ) else digitsValue digits) =
      (signed negative (digitsValue digits) : ℚ) := by
    cases negative <;> simp [signed]
  simp only [lexicalFloat, infinityOrNan_digits signs whole, decimalText, signs,
    scanDecimal_digits nonempty whole]
  rw [value, bounded, Option.map_some]

end Runtime
