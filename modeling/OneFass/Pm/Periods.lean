import OneFass.Pm.Defined

set_option autoImplicit false

namespace OneFass.Pm

open Runtime OrderedMap Xml BasicPlugin AcctPool

section Accumulators

-- the fifth entry is written before the first record is looked at
theorem initSums_beyond (more : Nat) :
    initSums (4 + (more + 1)) = .error (.undefined .indexOutOfBounds) := by
  have four : (List.range 4).foldlM (fun sums k => store sums k 0) (fun _ => none) =
      .ok (known 4 fun _ => 0) :=
    initSums_known (le_refl 4)
  rw [initSums, List.range_add, List.foldlM_append, four, List.range_succ_eq_map]
  simp [store, bind, Except.bind]

theorem evalUser_beyond (objects : AcctObjects) (time_start time_stop period : Int) (user : User)
    {n : Nat} (large : 5 ≤ n) :
    evalUser objects time_start time_stop period n user =
      .error (.undefined .indexOutOfBounds) := by
  obtain ⟨more, rfl⟩ := Nat.exists_eq_add_of_le large
  have sums : initSums (5 + more) = .error (.undefined .indexOutOfBounds) := by
    rw [show 5 + more = 4 + (more + 1) by omega]
    exact initSums_beyond more
  simp [evalUser, sums, bind, Except.bind]

theorem evalUsage_beyond (objects : AcctObjects) (first : User) (tail : List User)
    (time_start time_stop period : Int) {num_periods : Int} (large : 4 ≤ num_periods) :
    evalUsage objects (first :: tail) time_start time_stop period num_periods =
      .error (.undefined .indexOutOfBounds) := by
  have failed := evalUser_beyond objects time_start time_stop period first
    (show 5 ≤ (num_periods + 1).toNat by omega)
  simp [evalUsage, mapAll, failed, bind, Except.bind]

theorem evalUsage_ok {objects : AcctObjects} {user_list users : List User}
    {time_start time_stop period num_periods : Int}
    (evaluated : evalUsage objects user_list time_start time_stop period num_periods = .ok users) :
    users = user_list.map
      (withUsage objects time_start time_stop period (num_periods + 1).toNat) := by
  cases user_list with
  | nil =>
      cases evaluated
      rfl
  | cons first tail =>
      rcases lt_or_ge 3 num_periods with many | few
      · rw [evalUsage_beyond objects first tail time_start time_stop period (by omega)] at evaluated
        cases evaluated
      · rw [evalUsage_eq objects _ time_start time_stop period num_periods few] at evaluated
        exact (Except.ok.inj evaluated).symm

theorem find_usageMap_none {n k : Nat} (usage : Nat → Usage) (beyond : n ≤ k) :
    (usageMap n usage).find k = none := by
  rw [Map.find_eq_none_iff intOrder_total]
  intro value member
  rw [entries_usageMap] at member
  obtain ⟨i, inside, same⟩ := List.mem_map.mp member
  have key := congrArg Prod.fst same
  have less := List.mem_range.mp inside
  simp only at key
  omega

end Accumulators

def Consistent (objects : AcctObjects) (user_list : List User)
    (time_start time_stop period num_periods : Int) :
    Prop :=
  ∃ evaluated, evalUsage objects user_list time_start time_stop period num_periods = .ok evaluated ∧
    (∀ user ∈ evaluated, ∃ h_usage, userUsage user = .ok h_usage) ∧
    ∃ t_usage, totalUsage (evaluateTotalUsage evaluated) = .ok t_usage

section Consistent

variable {objects : AcctObjects} {user_list : List User}
    {time_start time_stop period num_periods : Int}

theorem totalUsage_nil (t_usage : ℚ) : totalUsage (evaluateTotalUsage []) ≠ .ok t_usage := by
  intro total
  obtain ⟨_, _, _, _, found, _⟩ := totalUsage_eq_ok.mp total
  simp [evaluateTotalUsage] at found

theorem userUsage_few (user : User) {n : Nat} (few : n ≤ 3) (h_usage : ℚ) :
    userUsage (withUsage objects time_start time_stop period n user) ≠ .ok h_usage := by
  intro used
  obtain ⟨_, _, _, h3, _, _, _, found, _⟩ := userUsage_eq_ok.mp used
  have absent := find_usageMap_none
    (usageEntry AcctObject.cpu (AcctPool.get objects user.userID.toNat) time_start
    time_stop period) few
  simp only [withUsage] at found
  rw [show (3 : Int) = ((3 : Nat) : Int) by rfl, absent] at found
  cases found

theorem consistent_three (listed : user_list ≠ []) :
    Consistent objects user_list time_start time_stop period 3 := by
  refine ⟨_, evalUsage_eq objects user_list time_start time_stop period 3 (le_refl 3), ?_, ?_⟩
  · intro user member
    obtain ⟨old, _, rfl⟩ := List.mem_map.mp member
    exact ⟨_, userUsage_carries (carries_usageMap 3 _) (le_refl 3)⟩
  · cases user_list with
    | nil => exact absurd rfl listed
    | cons first tail => exact ⟨_, totalUsage_carries (carries_usageMap 3 _) (le_refl 3)⟩

theorem three_of_consistent
    (consistent : Consistent objects user_list time_start time_stop period num_periods) :
    num_periods = 3 ∧ user_list ≠ [] := by
  obtain ⟨evaluated, returned, used, t_usage, total⟩ := consistent
  cases user_list with
  | nil =>
      cases returned
      exact absurd total (totalUsage_nil t_usage)
  | cons first tail =>
      refine ⟨?_, by simp⟩
      rcases lt_trichotomy num_periods 3 with few | three | many
      · rw [evalUsage_eq objects _ time_start time_stop period num_periods (by omega),
          Except.ok.injEq] at returned
        subst returned
        obtain ⟨h_usage, found⟩ := used _ (List.mem_map_of_mem List.mem_cons_self)
        exact absurd found (userUsage_few first (by omega) h_usage)
      · exact three
      · rw [evalUsage_beyond objects first tail time_start time_stop period (by omega)] at returned
        cases returned

end Consistent

theorem periods_consistent_iff (objects : AcctObjects) (user_list : List User)
    (time_start time_stop period num_periods : Int) :
    Consistent objects user_list time_start time_stop period num_periods ↔ num_periods = 3 ∧
    user_list ≠ [] := by
  constructor
  · exact three_of_consistent
  · rintro ⟨rfl, listed⟩
    exact consistent_three listed

theorem periods_inconsistent :
    evalUsage Map.empty [sample 1 0] 20 120 20 4 = .error (.undefined .indexOutOfBounds) ∧
      ∃ evaluated, evalUsage Map.empty [sample 1 0] 20 80 20 2 = .ok evaluated ∧
        ∀ user ∈ evaluated, userUsage user = .error (.undefined .missingEntry) := by
  refine ⟨evalUsage_beyond _ _ [] 20 120 20 (le_refl 4), _,
    evalUsage_eq _ _ 20 80 20 2 (by norm_num), ?_⟩
  intro user member
  rw [List.mem_map] at member
  obtain ⟨old, inside, rfl⟩ := member
  rw [List.mem_singleton.mp inside]
  decide +kernel

end OneFass.Pm
