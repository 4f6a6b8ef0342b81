import OneFass.Shared.BinaryRounding
import OneFass.Shared.Decimal

set_option autoImplicit false

namespace Runtime

def decimalExponent (magnitude : ℚ) : Int :=
  if 1 ≤ magnitude then (decimal magnitude.floor.toNat).length - 1
  else -(decimal (magnitude⁻¹.ceil.toNat - 1)).length

def sixDigits (magnitude : ℚ) : Nat × Int :=
  let e := decimalExponent magnitude
  let digits := BinaryRounding.roundEven (magnitude.num.natAbs * 10 ^ (5 - e).toNat)
    (magnitude.den * 10 ^ (e - 5).toNat)
  if digits = 10 ^ 6 then (10 ^ 5, e + 1) else (digits, e)

def trimZeros (digits : Text) : Text := (digits.reverse.dropWhile (· = '0')).reverse

def pointed (whole fraction : Text) : Text :=
  if trimZeros fraction = [] then whole else whole ++ '.' :: trimZeros fraction

def exponentText (e : Int) : Text :=
  let digits := decimal e.natAbs
  'e' :: (if e < 0 then '-' else '+') :: (if digits.length < 2 then '0' :: digits else digits)

/-- `oss << value` for a floating-point number, with the default precision. -/
def floatText (value : ℚ) : Text :=
  if value = 0 then ['0']
  else
    let (number, e) := sixDigits |value|
    let digits := decimal number
    let body :=
      if e < -4 ∨ 6 ≤ e then pointed (digits.take 1) (digits.drop 1) ++ exponentText e
      else if e < 0 then pointed ['0'] (List.replicate (-e - 1).toNat '0' ++ digits)
      else pointed (digits.take (e + 1).toNat) (digits.drop (e + 1).toNat)
    if value < 0 then '-' :: body else body

example : [floatText (7 / 10), floatText 7, floatText (-1 / 32), floatText 700000000000,
  floatText (1 / 3000000)] =
    ["0.7", "7", "-0.03125", "7e+11", "3.33333e-07"].map String.toList := by
  decide +kernel

def numeric (c : Char) : Bool := c.isDigit || c ∈ ['.', '-', '+', 'e']

section Numeric

theorem numeric_decimal {n : Nat} {c : Char} (member : c ∈ decimal n) : numeric c = true := by
  simp [numeric, isDigit_decimal member]

theorem mem_trimZeros {digits : Text} {c : Char} (member : c ∈ trimZeros digits) : c ∈ digits := by
  have kept := (List.dropWhile_sublist _).mem (List.mem_reverse.mp member)
  exact List.mem_reverse.mp kept

theorem numeric_pointed {whole fraction : Text} (left : ∀ c ∈ whole, numeric c = true)
    (right : ∀ c ∈ fraction, numeric c = true) :
    ∀ c ∈ pointed whole fraction, numeric c = true := by
  intro c member
  rw [pointed] at member
  split_ifs at member
  · exact left c member
  · rcases List.mem_append.mp member with before | after
    · exact left c before
    · rcases List.mem_cons.mp after with rfl | behind
      · rfl
      · exact right c (mem_trimZeros behind)

theorem numeric_exponentText (e : Int) : ∀ c ∈ exponentText e, numeric c = true := by
  have padded : ∀ c ∈ (if (decimal e.natAbs).length < 2 then
    '0' :: decimal e.natAbs else decimal e.natAbs),
      numeric c = true := by
    intro c member
    split_ifs at member
    · rcases List.mem_cons.mp member with rfl | digit
      · rfl
      · exact numeric_decimal digit
    · exact numeric_decimal member
  refine List.forall_mem_cons.mpr ⟨rfl, List.forall_mem_cons.mpr ⟨?_, padded⟩⟩
  split_ifs <;> rfl

theorem numeric_floatText (value : ℚ) : ∀ c ∈ floatText value, numeric c = true := by
  have digits : ∀ c ∈ decimal (sixDigits |value|).1, numeric c = true :=
    fun c member => numeric_decimal member
  have front (n : Nat) : ∀ c ∈ (decimal (sixDigits |value|).1).take n, numeric c = true :=
    fun c member => digits c (List.mem_of_mem_take member)
  have back (n : Nat) : ∀ c ∈ (decimal (sixDigits |value|).1).drop n, numeric c = true :=
    fun c member => digits c (List.mem_of_mem_drop member)
  have zeros (n : Nat) : ∀ c ∈ List.replicate n '0' ++ decimal (sixDigits |value|).1,
    numeric c = true := by
    intro c member
    rcases List.mem_append.mp member with zero | digit
    · rw [List.eq_of_mem_replicate zero]
      rfl
    · exact digits c digit
  have scientific (e : Int) : ∀ c ∈ pointed ((decimal (sixDigits |value|).1).take 1)
      ((decimal (sixDigits |value|).1).drop 1) ++ exponentText e, numeric c = true := by
    intro c member
    rcases List.mem_append.mp member with number | exponent
    · exact numeric_pointed (front 1) (back 1) c number
    · exact numeric_exponentText e c exponent
  have sign : numeric '-' = true := rfl
  have zero : ∀ c ∈ ['0'], numeric c = true := List.forall_mem_singleton.mpr rfl
  simp only [floatText]
  split_ifs
  · exact zero
  · exact List.forall_mem_cons.mpr ⟨sign, scientific _⟩
  · exact List.forall_mem_cons.mpr ⟨sign, numeric_pointed zero (zeros _)⟩
  · exact List.forall_mem_cons.mpr ⟨sign, numeric_pointed (front _) (back _)⟩
  · exact scientific _
  · exact numeric_pointed zero (zeros _)
  · exact numeric_pointed (front _) (back _)

theorem not_mem_floatText {value : ℚ} {c : Char} (mark : numeric c = false) :
    c ∉ floatText value := by
  intro member
  rw [numeric_floatText value c member] at mark
  cases mark

theorem floatText_ne_nil (value : ℚ) : floatText value ≠ [] := by
  have nonempty {whole : Text} (some : whole ≠ []) (fraction : Text) :
      pointed whole fraction ≠ [] := by
    rw [pointed]
    split_ifs <;> simp [some]
  have front (n : Nat) : (decimal (sixDigits |value|).1).take (n + 1) ≠ [] := by
    simp [List.take_eq_nil_iff, decimal_ne_nil]
  simp only [floatText]
  split_ifs with zero negative large small <;> try simp [exponentText]
  · exact nonempty (List.cons_ne_nil _ _) _
  · next bounded =>
      obtain ⟨n, same⟩ : ∃ n : Nat, (sixDigits |value|).2 + 1 = (n + 1 : Nat) :=
        ⟨(sixDigits |value|).2.toNat, by omega⟩
      rw [same, Int.toNat_natCast]
      exact nonempty (front n) _

end Numeric

end Runtime
