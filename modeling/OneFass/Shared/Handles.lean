import Mathlib.Data.List.Basic
import Mathlib.Data.List.Nodup
import Mathlib.Tactic.SplitIfs

set_option autoImplicit false

inductive HandleStatus where
  | unallocated
  | live
  | released
  deriving DecidableEq

inductive HandleViolation where
  | release (handle : Nat)
  | use (handle : Nat)
  deriving DecidableEq

structure Handles where
  released : List Bool
  violations : List HandleViolation
  deriving DecidableEq

namespace Handles

def empty : Handles := ⟨[], []⟩

def status (handles : Handles) (handle : Nat) : HandleStatus :=
  match handles.released[handle]? with
  | none => .unallocated
  | some false => .live
  | some true => .released

def allocate (handles : Handles) : Nat × Handles :=
  (handles.released.length, { handles with released := handles.released ++ [false] })

def release (handles : Handles) (handle : Nat) : Handles :=
  if handles.status handle = .live then
    { handles with released := handles.released.set handle true }
  else { handles with violations := handles.violations ++ [.release handle] }

def use (handles : Handles) (handle : Nat) : Handles :=
  if handles.status handle = .live then handles
  else { handles with violations := handles.violations ++ [.use handle] }

def Clean (handles : Handles) : Prop := handles.violations = []

structure Owns (handles : Handles) (owned : List Nat) : Prop where
  distinct : owned.Nodup
  live : ∀ handle, handles.status handle = .live ↔ handle ∈ owned

variable {handles : Handles} {handle : Nat} {owned : List Nat}

theorem live_iff : handles.status handle = .live ↔ handles.released[handle]? = some false := by
  unfold status
  rcases handles.released[handle]? with _ | _ | _ <;> simp

theorem live_allocate (other : Nat) :
    handles.allocate.2.status other = .live ↔ other = handles.allocate.1 ∨
    handles.status other = .live := by
  simp only [live_iff, allocate]
  rcases Nat.lt_trichotomy other handles.released.length with earlier | rfl | later
  · rw [List.getElem?_append_left earlier]
    simp [Nat.ne_of_lt earlier]
  · simp
  · rw [List.getElem?_eq_none (by simp; omega), List.getElem?_eq_none (by omega)]
    simp [Nat.ne_of_gt later]

theorem live_release (live : handles.status handle = .live) (other : Nat) :
    (handles.release handle).status other = .live ↔
      other ≠ handle ∧ handles.status other = .live := by
  rw [release, if_pos live]
  simp only [live_iff, List.getElem?_set]
  split_ifs with same inside
  · simp [same]
  · simp [same]
  · simp [Ne.symm same]

@[simp] theorem clean_empty : empty.Clean := rfl

@[simp] theorem clean_allocate : handles.allocate.2.Clean ↔ handles.Clean := Iff.rfl

theorem clean_release : (handles.release handle).Clean ↔ handles.Clean ∧
    handles.status handle = .live := by
  by_cases live : handles.status handle = .live <;> simp [release, Clean, live]

theorem clean_use : (handles.use handle).Clean ↔ handles.Clean ∧ handles.status handle = .live := by
  by_cases live : handles.status handle = .live <;> simp [use, Clean, live]

theorem use_live (live : handles.status handle = .live) : handles.use handle = handles := by
  simp [use, live]

theorem owns_empty : empty.Owns [] := ⟨List.nodup_nil, by simp [live_iff, empty]⟩

theorem owns_nil_iff : handles.Owns [] ↔ ∀ handle, handles.status handle ≠ .live := by
  constructor
  · intro owns handle live
    exact List.not_mem_nil ((owns.live handle).mp live)
  · intro settled
    exact ⟨List.nodup_nil, by simpa using settled⟩

theorem Owns.perm {others : List Nat} (owns : handles.Owns owned) (same : owned.Perm others) :
    handles.Owns others :=
  ⟨same.nodup_iff.mp owns.distinct, fun handle => (owns.live handle).trans same.mem_iff⟩

theorem Owns.allocate (owns : handles.Owns owned) :
    handles.allocate.2.Owns (handles.allocate.1 :: owned) where
  distinct := by
    refine List.nodup_cons.mpr ⟨fun member => ?_, owns.distinct⟩
    have live := live_iff.mp ((owns.live _).mpr member)
    simp [Handles.allocate] at live
  live other := by rw [live_allocate, owns.live, List.mem_cons]

theorem Owns.release (owns : handles.Owns (handle :: owned)) :
    (handles.release handle).Owns owned where
  distinct := owns.distinct.of_cons
  live other := by
    have apart : handle ∉ owned := (List.nodup_cons.mp owns.distinct).1
    rw [live_release ((owns.live handle).mpr List.mem_cons_self), owns.live, List.mem_cons]
    constructor
    · rintro ⟨different, same | member⟩
      · exact absurd same different
      · exact member
    · intro member
      exact ⟨fun same => apart (same ▸ member), Or.inr member⟩

section Many

def allocateMany : Nat → Handles → List Nat × Handles
  | 0, handles => ([], handles)
  | n + 1, handles =>
      let (first, handles) := handles.allocate
      let (rest, handles) := allocateMany n handles
      (first :: rest, handles)

def releaseMany (handles : Handles) (released : List Nat) : Handles :=
  released.foldl release handles

theorem length_allocateMany (n : Nat) (handles : Handles) :
    (allocateMany n handles).1.length = n := by
  induction n generalizing handles with
  | zero => rfl
  | succ n ih => exact congrArg (· + 1) (ih handles.allocate.2)

theorem clean_allocateMany (n : Nat) : (allocateMany n handles).2.Clean ↔ handles.Clean := by
  induction n generalizing handles with
  | zero => exact Iff.rfl
  | succ n ih => exact ih.trans clean_allocate

theorem Owns.allocateMany (owns : handles.Owns owned) (n : Nat) :
    (allocateMany n handles).2.Owns ((allocateMany n handles).1 ++ owned) := by
  induction n generalizing handles owned with
  | zero => exact owns
  | succ n ih => exact (ih owns.allocate).perm List.perm_middle

theorem Owns.releaseMany {released : List Nat} (owns : handles.Owns (released ++ owned))
    (clean : handles.Clean) :
    (handles.releaseMany released).Owns owned ∧ (handles.releaseMany released).Clean := by
  induction released generalizing handles with
  | nil => exact ⟨owns, clean⟩
  | cons first rest ih =>
      have live := (owns.live first).mpr List.mem_cons_self
      exact ih (Owns.release owns) (clean_release.mpr ⟨clean, live⟩)

end Many

end Handles
