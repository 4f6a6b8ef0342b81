import OneFass.Shared.LexicalCast

set_option autoImplicit false

namespace Runtime

def decimal (n : Nat) : Text := Nat.toDigits 10 n

-- `oss << value`
def intText : Int → Text
  | .ofNat n => decimal n
  | .negSucc n => '-' :: decimal (n + 1)

theorem decimal_ne_nil (n : Nat) : decimal n ≠ [] := Nat.toDigits_ne_nil

theorem isDigit_decimal {n : Nat} {c : Char} (member : c ∈ decimal n) : c.isDigit = true :=
  Nat.isDigit_of_mem_toDigits (by decide) (by decide) member

theorem digitsValue_decimal (n : Nat) : digitsValue (decimal n) = n := by
  have read := @Nat.ofDigitChars_ten_toDigits n
  rw [Nat.ofDigitChars_eq_foldl] at read
  simpa only [digitsValue, decimal, Nat.mul_comm] using read

theorem takeSign_digits {digits : Text} (whole : ∀ c ∈ digits, c.isDigit = true) :
    takeSign digits = (false, digits) := by
  rcases digits with _ | ⟨c, rest⟩
  · rfl
  · have digit := whole c List.mem_cons_self
    rw [takeSign]
    · rintro tail ⟨rfl, _⟩
      exact absurd digit (by decide)
    · rintro tail ⟨rfl, _⟩
      exact absurd digit (by decide)

theorem integerText_decimal (n : Nat) : integerText (decimal n) = some (n : Int) := by
  rw [integerText_eq_some]
  refine ⟨false, decimal n, takeSign_digits fun _ => isDigit_decimal, decimal_ne_nil n, fun _ =>
    isDigit_decimal, ?_⟩
  simp [signed, digitsValue_decimal]

theorem integerText_intText (value : Int) : integerText (intText value) = some value := by
  cases value with
  | ofNat n => exact integerText_decimal n
  | negSucc n =>
      rw [integerText_eq_some]
      refine ⟨true, decimal (n + 1), rfl, decimal_ne_nil _, fun _ => isDigit_decimal, ?_⟩
      simp only [signed, digitsValue_decimal]
      rfl

theorem not_mem_intText {value : Int} {c : Char} (sign : c ≠ '-') (letter : c.isDigit = false) :
    c ∉ intText value := by
  have absent (n : Nat) : c ∉ decimal n := by
    intro member
    simp [isDigit_decimal member] at letter
  cases value with
  | ofNat n => exact absent n
  | negSucc n => simp [intText, sign, absent]

theorem intText_ne_nil (value : Int) : intText value ≠ [] := by
  cases value with
  | ofNat n => exact decimal_ne_nil n
  | negSucc n => simp [intText]

end Runtime
