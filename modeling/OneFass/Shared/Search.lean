import Mathlib.Data.List.Basic
import Mathlib.Data.List.Infix

set_option autoImplicit false

namespace Search

variable {α : Type} [DecidableEq α]

def indexOf (pattern : List α) : List α → Option Nat
  | [] => if pattern = [] then some 0 else none
  | head :: rest =>
      if pattern <+: head :: rest then some 0 else (indexOf pattern rest).map (· + 1)

theorem indexOf_eq_some_iff (pattern text : List α) (position : Nat) :
    indexOf pattern text = some position ↔
      pattern <+: text.drop position ∧ position ≤ text.length ∧
        ∀ earlier < position, ¬ pattern <+: text.drop earlier := by
  induction text generalizing position with
  | nil =>
      by_cases trivialPattern : pattern = []
      · cases position <;> simp [indexOf, trivialPattern]
      · simp [indexOf, trivialPattern]
  | cons head rest ih =>
      simp only [indexOf]
      split_ifs with here
      · cases position with
        | zero => simp [here]
        | succ position =>
            have blocked : ¬ ∀ earlier < position + 1,
                ¬ pattern <+: (head :: rest).drop earlier := by
              intro clear
              exact clear 0 (by omega) here
            constructor
            · intro found
              simp at found
            · intro occurs
              exact absurd occurs.2.2 blocked
      · cases position with
        | zero => simp [here]
        | succ position =>
            simp only [Option.map_eq_some_iff, Nat.add_right_cancel_iff, exists_eq_right, ih,
              List.drop_succ_cons, List.length_cons, Nat.add_le_add_iff_right]
            refine and_congr_right fun _ => and_congr_right fun _ => ?_
            constructor
            · intro clear earlier less
              cases earlier with
              | zero => simpa using here
              | succ earlier => simpa using clear earlier (by omega)
            · intro clear earlier less
              simpa using clear (earlier + 1) (by omega)

theorem indexOf_eq_none_iff (pattern text : List α) :
    indexOf pattern text = none ↔ ¬ pattern <:+: text := by
  induction text with
  | nil => by_cases trivialPattern : pattern = [] <;> simp [indexOf, trivialPattern]
  | cons head rest ih =>
      simp only [indexOf, List.infix_cons_iff]
      split_ifs with here
      · simp [here]
      · simp [here, ih]

theorem indexOf_bound {pattern text : List α} {position : Nat}
    (found : indexOf pattern text = some position) :
    position + pattern.length ≤ text.length := by
  obtain ⟨occurs, within, _⟩ := (indexOf_eq_some_iff _ _ _).mp found
  have := occurs.length_le
  simp only [List.length_drop] at this
  omega

theorem indexOf_append {pattern text : List α} {position : Nat} (later : List α)
    (found : indexOf pattern text = some position) :
    indexOf pattern (text ++ later) = some position := by
  obtain ⟨occurs, within, first⟩ := (indexOf_eq_some_iff _ _ _).mp found
  have bound := indexOf_bound found
  refine (indexOf_eq_some_iff _ _ _).mpr ⟨?_, by simp; omega, ?_⟩
  · rw [List.drop_append_of_le_length within]
    exact occurs.trans (List.prefix_append _ _)
  · intro earlier less again
    rw [List.drop_append_of_le_length (by omega)] at again
    refine first earlier less (List.prefix_of_prefix_length_le again (List.prefix_append _ _) ?_)
    simp
    omega

theorem indexOf_cons_of_ne {first : α} {pattern : List α} {head : α} (rest : List α)
    (different : first ≠ head) :
    indexOf (first :: pattern) (head :: rest) = (indexOf (first :: pattern) rest).map (· + 1) := by
  simp [indexOf, List.cons_prefix_cons, different]

theorem indexOf_append_of_notMem {first : α} {pattern skipped : List α} (text : List α)
    (absent : first ∉ skipped) :
    indexOf (first :: pattern) (skipped ++ text) =
      (indexOf (first :: pattern) text).map (· + skipped.length) := by
  induction skipped with
  | nil => simp
  | cons head rest ih =>
      rw [List.mem_cons, not_or] at absent
      rw [List.cons_append, indexOf_cons_of_ne _ absent.1, ih absent.2]
      cases indexOf (first :: pattern) text with
      | none => rfl
      | some position => simp [Nat.add_assoc]

theorem indexOf_of_prefix {pattern text : List α} (occurs : pattern <+: text) :
    indexOf pattern text = some 0 := by
  cases text with
  | nil => simp [indexOf, List.prefix_nil.mp occurs]
  | cons head rest => simp [indexOf, occurs]

theorem indexOf_take {pattern text : List α} {position : Nat}
    (found : indexOf pattern text = some position) {n : Nat}
    (enough : position + pattern.length ≤ n) : indexOf pattern (text.take n) = some position := by
  obtain ⟨occurs, within, first⟩ := (indexOf_eq_some_iff _ _ _).mp found
  have bound := indexOf_bound found
  refine (indexOf_eq_some_iff _ _ _).mpr ⟨?_, by simp; omega, ?_⟩
  · rw [List.drop_take]
    refine List.prefix_take_iff.mpr ⟨occurs, by omega⟩
  · intro earlier less again
    rw [List.drop_take] at again
    exact first earlier less (List.prefix_take_iff.mp again).1

section Occurrences

variable {β : Type}

-- no proper end of the pattern is also its beginning
def Unbordered (pattern : List β) : Prop :=
  ∀ front back, pattern = front ++ back → front ≠ [] → back ≠ [] → ¬ back <+: pattern

theorem Unbordered.shift {pattern skipped first last : List β} (whole : Unbordered pattern)
    (same : pattern ++ first = skipped ++ (pattern ++ last)) :
    skipped = [] ∨ pattern <+: skipped := by
  rcases List.append_eq_append_iff.mp same with ⟨middle, rfl, _⟩ | ⟨back, split, again⟩
  · exact Or.inr (List.prefix_append _ _)
  · by_cases start : skipped = []
    · exact Or.inl start
    by_cases stop : back = []
    · rw [split, stop, List.append_nil]
      exact Or.inr List.prefix_rfl
    have border : back <+: pattern := by
      refine List.prefix_of_prefix_length_le ?_ (List.prefix_append pattern last) ?_
      · rw [again]
        exact List.prefix_append _ _
      · rw [split]
        simp
    exact absurd border (whole skipped back split start stop)

theorem Unbordered.unique {pattern before after first last : List β} (whole : Unbordered pattern)
    (notBefore : ¬ pattern <:+: before) (notAfter : ¬ pattern <:+: after)
    (same : before ++ pattern ++ after = first ++ pattern ++ last) :
    before = first ∧ after = last := by
  have placed : before = first := by
    rw [List.append_assoc, List.append_assoc] at same
    rcases List.append_eq_append_iff.mp same with ⟨middle, rfl, later⟩ | ⟨middle, rfl, later⟩
    · rcases whole.shift later with rfl | ⟨rest, rfl⟩
      · simp
      · rw [List.append_assoc, List.append_cancel_left_eq] at later
        exact absurd ⟨rest, last, by rw [later]; simp⟩ notAfter
    · rcases whole.shift later with rfl | ⟨rest, rfl⟩
      · simp
      · exact absurd ⟨first, rest, by simp⟩ notBefore
  subst placed
  exact ⟨rfl, List.append_cancel_left same⟩

end Occurrences

end Search
