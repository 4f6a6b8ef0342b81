import Mathlib.Data.Rat.Floor
import OneFass.Shared.Search

set_option autoImplicit false

namespace Runtime

abbrev Text := List Char

inductive Raised where
  | outOfRange
  | runtimeError (what : String)
  | girerr
  deriving DecidableEq

inductive Hazard where
  | nullPointer
  | missingEntry
  | uninitialised
  | zeroDivisor
  | indexOutOfBounds
  | overflow
  deriving DecidableEq

inductive Fault where
  | raised (exception : Raised)
  | undefined (hazard : Hazard)
  deriving DecidableEq

theorem bind_eq_ok {α β : Type} {first : Except Fault α} {next : α → Except Fault β} {result : β} :
    (first >>= next) = .ok result ↔ ∃ value, first = .ok value ∧ next value = .ok result := by
  cases first <;> simp [bind, Except.bind]

theorem map_eq_ok {α β : Type} {first : Except Fault α} {f : α → β} {result : β} :
    (f <$> first) = .ok result ↔ ∃ value, first = .ok value ∧ f value = result := by
  cases first <;> simp [Functor.map, Except.map]

def mapAll {α β : Type} (f : α → Except Fault β) : List α → Except Fault (List β)
  | [] => .ok []
  | head :: rest => do
      let image ← f head
      let images ← mapAll f rest
      return image :: images

theorem mapAll_eq_ok {α β : Type} {f : α → Except Fault β} {inputs : List α} {images : List β} :
    mapAll f inputs = .ok images ↔
    List.Forall₂ (fun input image => f input = .ok image) inputs images := by
  induction inputs generalizing images with
  | nil => simp [mapAll, eq_comm]
  | cons head rest ih =>
      simp only [mapAll, bind_eq_ok, pure, Except.pure, Except.ok.injEq, ih,
        List.forall₂_cons_left_iff]
      grind

theorem mapAll_map {α β γ : Type} (f : β → Except Fault γ) (g : α → β) (inputs : List α) :
    mapAll f (inputs.map g) = mapAll (fun input => f (g input)) inputs := by
  induction inputs with
  | nil => rfl
  | cons head rest ih => simp only [List.map_cons, mapAll, ih]

theorem mapAll_congr {α β : Type} {f g : α → Except Fault β} {inputs : List α}
    (same : ∀ input ∈ inputs, f input = g input) : mapAll f inputs = mapAll g inputs := by
  induction inputs with
  | nil => rfl
  | cons head rest ih =>
      have others := ih fun input member => same input (List.mem_cons_of_mem _ member)
      simp only [mapAll, same head List.mem_cons_self, others]

theorem mapAll_defined {α β : Type} {f : α → Except Fault β} {inputs : List α} :
    (∃ images, mapAll f inputs = .ok images) ↔ ∀ input ∈ inputs, ∃ image, f input = .ok image := by
  induction inputs with
  | nil => simp [mapAll]
  | cons head rest ih =>
      simp only [mapAll, bind_eq_ok, pure, Except.pure, List.forall_mem_cons, ← ih]
      grind

theorem foldlM_range_ok {σ : Type} (body : σ → Nat → Except Fault σ) (states : Nat → σ) (n : Nat)
    (round : ∀ k < n, body (states k) k = .ok (states (k + 1))) :
    (List.range n).foldlM body (states 0) = .ok (states n) := by
  induction n with
  | zero => rfl
  | succ n ih =>
      have earlier := ih fun k less => round k (by omega)
      simp [List.range_succ, List.foldlM_append, earlier, round n (by omega), bind, Except.bind,
        pure, Except.pure]

section Strings

/-- `std::string::find`, with `none` for `npos`. -/
def find (text pattern : Text) : Option Nat := Search.indexOf pattern text

-- `npos` is the largest `size_t`, so the sum wraps to `n - 1`
def past (position : Option Nat) (n : Nat) : Nat :=
  match position with
  | some index => index + n
  | none => n - 1

-- `text.erase(0, position)`: an erased length of `npos` takes the whole text
def eraseUpTo (text : Text) (position : Option Nat) : Text :=
  match position with
  | some index => text.drop index
  | none => []

-- `text.erase(position)`
def eraseFrom (text : Text) (position : Nat) : Except Fault Text :=
  if text.length < position then .error (.raised .outOfRange) else .ok (text.take position)

-- `text.erase(start, stop - start)`: a negative length wraps and takes the rest of the text
def eraseSpan (text : Text) (start stop : Nat) : Except Fault Text :=
  if text.length < start then .error (.raised .outOfRange)
  else if stop < start then .ok (text.take start)
  else .ok (text.take start ++ text.drop stop)

-- `text.insert(position, piece)`
def insertAt (text : Text) (position : Nat) (piece : Text) : Except Fault Text :=
  if text.length < position then .error (.raised .outOfRange)
  else .ok (text.take position ++ piece ++ text.drop position)

end Strings

section Streams

def isSpace (c : Char) : Bool := c ∈ [' ', '\t', '\n', '\x0b', '\x0c', '\r']

def takeSign : Text → Bool × Text
  | '-' :: rest => (true, rest)
  | '+' :: rest => (false, rest)
  | rest => (false, rest)

def digitsValue (digits : Text) : Nat :=
  digits.foldl (fun value c => value * 10 + (c.toNat - '0'.toNat)) 0

def signed (negative : Bool) (magnitude : Nat) : Int :=
  if negative then -(magnitude : Int) else magnitude

-- `iss >> std::dec >> value`; nothing where the fail bit is set
def readInteger (lowest highest : Int) (text : Text) : Option Int :=
  let (negative, rest) := takeSign (text.dropWhile isSpace)
  let digits := rest.takeWhile Char.isDigit
  let value := signed negative (digitsValue digits)
  if digits = [] then none
  else if lowest ≤ value ∧ value ≤ highest then some value
  else none

def readInt : Text → Option Int := readInteger (-2 ^ 31) (2 ^ 31 - 1)

def readInt64 : Text → Option Int := readInteger (-2 ^ 63) (2 ^ 63 - 1)

def scanDecimal (text : Text) : Option (ℚ × Text) :=
  let whole := text.takeWhile Char.isDigit
  let afterWhole := text.dropWhile Char.isDigit
  let (fraction, rest) :=
    match afterWhole with
    | '.' :: tail => (tail.takeWhile Char.isDigit, tail.dropWhile Char.isDigit)
    | _ => ([], afterWhole)
  if whole = [] ∧ fraction = [] then none
  else some (digitsValue (whole ++ fraction) / 10 ^ fraction.length, rest)

def scanExponent : Text → Option (Int × Text × Text)
  | 'e' :: tail | 'E' :: tail =>
      let (negative, rest) := takeSign tail
      let digits := rest.takeWhile Char.isDigit
      some (signed negative (digitsValue digits), digits, rest.dropWhile Char.isDigit)
  | _ => none

def maxFloat : ℚ := 340282346638528859811704183484516925440

def boundFloat (value : ℚ) : Option ℚ :=
  if -maxFloat ≤ value ∧ value ≤ maxFloat then some value else none

-- `iss >> value` for a `float`, without rounding
def readFloat (text : Text) : Option ℚ :=
  let (negative, rest) := takeSign (text.dropWhile isSpace)
  match scanDecimal rest with
  | none => none
  | some (magnitude, tail) =>
      let value := if negative then -magnitude else magnitude
      match scanExponent tail with
      | none => boundFloat value
      -- an exponent mark without digits fails the extraction
      | some (_, [], _) => none
      | some (exponent, _ :: _, _) => boundFloat (value * 10 ^ exponent)

end Streams

def checkInt (value : Int) : Except Fault Int :=
  if -2 ^ 31 ≤ value ∧ value < 2 ^ 31 then .ok value else .error (.undefined .overflow)

def fits64 (value : Int) : Prop := -2 ^ 63 ≤ value ∧ value < 2 ^ 63

instance (value : Int) : Decidable (fits64 value) := inferInstanceAs (Decidable (_ ∧ _))

-- `int64_t` arithmetic, and the conversion to it
def checkInt64 (value : Int) : Except Fault Int :=
  if fits64 value then .ok value else .error (.undefined .overflow)

theorem checkInt64_eq_ok {value result : Int} :
    checkInt64 value = .ok result ↔ fits64 value ∧ value = result := by
  rw [checkInt64]
  split_ifs with inside <;> simp [inside]

-- the conversion of a floating-point value to an integer type: the fraction is dropped
def truncate (value : ℚ) : Int := value.num.tdiv value.den

theorem truncate_of_nonneg {value : ℚ} (nonneg : 0 ≤ value) : truncate value = ⌊value⌋ := by
  rw [truncate, Int.tdiv_eq_ediv_of_nonneg (Rat.num_nonneg.mpr nonneg)]
  exact (Rat.floor_def value).symm

end Runtime
