import Mathlib.Algebra.BigOperators.Field
import OneFass.Config.Records
import OneFass.Pm.Complete

set_option autoImplicit false

namespace OneFass.Config

open Runtime ExactPower Pm

def configured (record : Text) : Int :=
  match initialShare record with
  | .ok share => share
  | .error _ => 0

def total (records : List Text) : Int := (records.map configured).sum

structure Apportioned (records : List Text) (users : List User) : Prop where
  parts : ∃ sum, records.foldlM addShare 0 = .ok sum ∧ sum ≠ 0 ∧
    List.Forall₂ (fun record user => makeUser record sum = .ok user ∧
      user.share = some (.finite (configured record / total records))) records users
  whole : (users.map shareOf).sum = 1

section Sum

theorem addShare_eq_ok {sum next : Int} {record : Text} (added : addShare sum record = .ok next) :
    initialShare record = .ok (configured record) ∧ next = sum + configured record := by
  obtain ⟨share, read, checked⟩ := bind_accepts.mp added
  have stated : configured record = share := by simp [configured, read]
  rw [stated]
  split_ifs at checked
  exact ⟨read, (Except.ok.inj checked).symm⟩

theorem foldlM_addShare {records : List Text} {start sum : Int}
    (summed : records.foldlM addShare start = .ok sum) :
    sum = start + total records ∧ ∀ record ∈ records,
    initialShare record = .ok (configured record) := by
  induction records generalizing start with
  | nil =>
      cases summed
      simp [total]
  | cons record rest ih =>
      rw [List.foldlM_cons, bind_accepts] at summed
      obtain ⟨next, added, later⟩ := summed
      obtain ⟨read, rfl⟩ := addShare_eq_ok added
      obtain ⟨same, others⟩ := ih later
      refine ⟨?_, List.forall_mem_cons.mpr ⟨read, others⟩⟩
      rw [same, total, total, List.map_cons, List.sum_cons]
      omega

theorem makeUser_share {record : Text} {sum : Int} {user : User}
    (read : initialShare record = .ok (configured record)) (made : makeUser record sum = .ok user) :
    user.share = some (divide (.finite (configured record)) sum) := by
  simp only [makeUser] at made
  split at made
  · next fields =>
      simp only [initialShare, fields, List.getElem?_cons_succ, List.getElem?_cons_zero,
        cast_eq_ok] at read
      simp only [bind_accepts, cast_eq_ok, pure, Except.pure, Except.ok.injEq] at made
      obtain ⟨uid, _, gid, _, share, float, ttl, _, rfl⟩ := made
      rw [lexicalFloat_of_int16 read] at float
      rw [Option.some.inj float]
  · cases made

end Sum

section Parts

variable {records : List Text} {users : List User}

theorem calculateInitialShares_made (completed : calculateInitialShares records = .ok users) :
    records.foldlM addShare 0 = .ok (total records) ∧
      List.Forall₂ (fun record user => makeUser record (total records) = .ok user ∧
        user.share = some (divide (.finite (configured record)) (total records)))
        records users := by
  obtain ⟨sum, summed, made⟩ := calculateInitialShares_ok completed
  obtain ⟨same, read⟩ := foldlM_addShare summed
  rw [Int.zero_add] at same
  subst same
  refine ⟨summed, ?_⟩
  have pairs := (List.forall₂_and_left records users).mpr ⟨read, made⟩
  exact pairs.imp fun record user built => ⟨built.2, makeUser_share built.1 built.2⟩

theorem sum_parts {divisor : ℚ}
    (parts : List.Forall₂ (fun record user =>
      user.share = some (.finite (configured record / divisor))) records users) :
    (users.map shareOf).sum = total records / divisor := by
  induction parts with
  | nil => simp [total]
  | cons first rest ih =>
      rw [List.map_cons, List.sum_cons, ih]
      simp only [shareOf, first, total, List.map_cons, List.sum_cons]
      push_cast
      ring

theorem apportioned_of_total (completed : calculateInitialShares records = .ok users)
    (nonzero : total records ≠ 0) :
    Apportioned records users := by
  obtain ⟨summed, made⟩ := calculateInitialShares_made completed
  have parts : List.Forall₂ (fun record user => makeUser record (total records) = .ok user ∧
      user.share = some (.finite (configured record / total records))) records users := by
    refine made.imp fun record user built => ⟨built.1, ?_⟩
    rw [built.2, divide, if_pos nonzero]
  refine ⟨⟨_, summed, nonzero, parts⟩, ?_⟩
  rw [sum_parts (parts.imp fun _ _ part => part.2), div_self (Int.cast_ne_zero.mpr nonzero)]

end Parts

theorem apportioned_iff (records : List Text) (users : List User)
    (completed : calculateInitialShares records = .ok users) :
    Apportioned records users ↔ total records ≠ 0 := by
  constructor
  · rintro ⟨⟨sum, summed, nonzero, _⟩, _⟩
    have same := (foldlM_addShare summed).1
    omega
  · exact apportioned_of_total completed

section Example

def unequalShares : List Text := ["goofy:2:1:70:1000".toList, "admin:0:0:30:1000".toList]

theorem apportioned_iff_unequalShares : ∃ users, calculateInitialShares unequalShares = .ok users ∧
    (Apportioned unequalShares users ↔ total unequalShares ≠ 0) := by
  have accepted : (calculateInitialShares unequalShares).toOption.isSome = true := by decide +kernel
  cases completed : calculateInitialShares unequalShares with
  | error rejection => simp [completed, Except.toOption] at accepted
  | ok users => exact ⟨users, rfl, apportioned_iff unequalShares users completed⟩

theorem not_apportioned :
    (fun users => users.map User.share) <$> calculateInitialShares ["goofy:2:1:0:1000".toList] =
      .ok [some .nan] ∧
      ∀ users, ¬ Apportioned ["goofy:2:1:0:1000".toList] users := by
  refine ⟨by decide +kernel, ?_⟩
  rintro users ⟨⟨sum, summed, nonzero, _⟩, _⟩
  have zero : total ["goofy:2:1:0:1000".toList] = 0 := by decide +kernel
  have same := (foldlM_addShare summed).1
  omega

end Example

end OneFass.Config
