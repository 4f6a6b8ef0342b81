import Mathlib.Data.List.Infix

set_option autoImplicit false

namespace Delimited

variable {α : Type} [DecidableEq α]

def readUntil (delim buffer : List α) : List (List α) → Option (List α × List (List α))
  | [] => if delim <:+: buffer then some (buffer, []) else none
  | chunk :: rest =>
      if delim <:+: buffer then some (buffer, chunk :: rest)
      else readUntil delim (buffer ++ chunk) rest

variable {delim buffer read : List α} {chunks later : List (List α)}

theorem readUntil_of_present (present : delim <:+: buffer) :
    readUntil delim buffer chunks = some (buffer, chunks) := by
  cases chunks <;> simp [readUntil, present]

theorem readUntil_eq_some (done : readUntil delim buffer chunks = some (read, later)) :
    delim <:+: read ∧ read ++ later.flatten = buffer ++ chunks.flatten := by
  induction chunks generalizing buffer with
  | nil =>
      rw [readUntil] at done
      split_ifs at done with present
      cases done
      exact ⟨present, rfl⟩
  | cons chunk rest ih =>
      rw [readUntil] at done
      split_ifs at done with present
      · cases done
        exact ⟨present, rfl⟩
      · have := ih done
        simpa using this

theorem readUntil_early (front back : List (List α))
    (present : delim <:+: buffer ++ front.flatten) :
    ∃ taken rest, front = taken ++ rest ∧
      readUntil delim buffer (front ++ back) = some (buffer ++ taken.flatten, rest ++ back) := by
  induction front generalizing buffer with
  | nil =>
      rw [List.flatten_nil, List.append_nil] at present
      exact ⟨[], [], rfl, by simp [readUntil_of_present present]⟩
  | cons chunk rest ih =>
      by_cases already : delim <:+: buffer
      · exact ⟨[], chunk :: rest, rfl, by simp [readUntil_of_present already]⟩
      · obtain ⟨taken, remaining, rfl, done⟩ := @ih (buffer ++ chunk) (by simpa using present)
        refine ⟨chunk :: taken, remaining, rfl, ?_⟩
        rw [List.cons_append, readUntil, if_neg already, done]
        simp

section Occurrence

variable {first : α} {pattern skipped text head : List α}

omit [DecidableEq α] in
theorem infix_append_of_notMem (absent : first ∉ skipped) :
    first :: pattern <:+: skipped ++ text ↔ first :: pattern <:+: text := by
  induction skipped with
  | nil => rfl
  | cons c rest ih =>
      rw [List.mem_cons, not_or] at absent
      rw [List.cons_append, List.infix_cons_iff, List.cons_prefix_cons, ih absent.2]
      simp [absent.1]

omit [DecidableEq α] in
-- where the delimiter first ends with `head`, a beginning of the input that holds it holds all of
-- `head`
theorem prefix_of_present (nonempty : head ≠ []) (unmarked : ¬ delim <:+: head.dropLast)
    (present : delim <:+: read) (start : read <+: head ++ text) : head <+: read := by
  have whole : head <+: head ++ text := List.prefix_append head text
  rcases Nat.lt_or_ge read.length head.length with short | long
  · have positive := List.length_pos_iff.mpr nonempty
    have inner : read <+: head.dropLast := by
      refine List.prefix_of_prefix_length_le start ((List.dropLast_prefix head).trans whole) ?_
      rw [List.length_dropLast]
      omega
    exact absurd (present.trans inner.isInfix) unmarked
  · exact List.prefix_of_prefix_length_le whole start long

end Occurrence

end Delimited
