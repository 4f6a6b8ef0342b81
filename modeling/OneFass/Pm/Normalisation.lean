import OneFass.Pm.TotalUsage

set_option autoImplicit false

namespace OneFass.Pm

open Runtime OrderedMap ExactPower BasicPlugin

def history (usage : Map intOrder Usage) : ℚ :=
  halfLife (amount usage 0) (amount usage 1) (amount usage 2) (amount usage 3)

section History

variable {n : Nat} {user first : User} {tail : List User}

theorem userUsage_carries (carries : Carries n user.cpu_usage) (enough : 3 ≤ n) :
    userUsage user = .ok (history user.cpu_usage) := by
  obtain ⟨h0, found0, used0, _⟩ := find_of_carries carries (show 0 ≤ n by omega)
  obtain ⟨h1, found1, used1, _⟩ := find_of_carries carries (show 1 ≤ n by omega)
  obtain ⟨h2, found2, used2, _⟩ := find_of_carries carries (show 2 ≤ n by omega)
  obtain ⟨h3, found3, used3, _⟩ := find_of_carries carries enough
  refine userUsage_eq_ok.mpr ⟨h0, h1, h2, h3, found0, found1, found2, found3, ?_⟩
  rw [used0, used1, used2, used3]
  rfl

theorem userUsage_unset (h_usage : ℚ) : userUsage User.unset ≠ .ok h_usage := by
  intro used
  obtain ⟨_, _, _, _, found, _⟩ := userUsage_eq_ok.mp used
  simp [User.unset] at found

theorem totalUsage_carries (carries : Carries n first.cpu_usage) (enough : 3 ≤ n) :
    totalUsage (evaluateTotalUsage (first :: tail)) = .ok (history first.cpu_usage) := by
  rw [evaluateTotalUsage_eq]
  refine totalUsage_eq_ok.mpr ⟨_, _, _, _, ?_, ?_, ?_, ?_, rfl⟩
  · exact find_totalOf_cons User.cpu_usage first tail carries (show 0 ≤ n by omega)
  · exact find_totalOf_cons User.cpu_usage first tail carries (show 1 ≤ n by omega)
  · exact find_totalOf_cons User.cpu_usage first tail carries (show 2 ≤ n by omega)
  · exact find_totalOf_cons User.cpu_usage first tail carries enough

theorem totalUsage_short {users : List User} (carries : ∀ user ∈ users, Carries n user.cpu_usage)
    (short : n < 3) (t_usage : ℚ) : totalUsage (evaluateTotalUsage users) ≠ .ok t_usage := by
  intro total
  obtain ⟨_, _, _, _, _, _, _, found, _⟩ := totalUsage_eq_ok.mp total
  have missing := find_totalOf_none User.cpu_usage users carries short
  rw [evaluateTotalUsage_eq] at found
  cases found.symm.trans missing

theorem usages_eq {users : List User} {h_usages : List ℚ} (enough : 3 ≤ n)
    (carries : ∀ user ∈ users, Carries n user.cpu_usage)
    (used : List.Forall₂ (fun user h_usage => userUsage user = .ok h_usage) users h_usages) :
    h_usages = users.map fun user => history user.cpu_usage := by
  induction used with
  | nil => rfl
  | cons head _ ih =>
      rw [userUsage_carries (carries _ List.mem_cons_self) enough, Except.ok.injEq] at head
      rw [List.map_cons, head, ih fun user member => carries user (List.mem_cons_of_mem _ member)]

end History

section Property

def periodSum (select : User → Map intOrder Usage) (users : List User) (k : Nat) : Int :=
  (users.map fun user => amount (select user) k).sum

def TotalsAreSums (n : Nat) (users : List User) : Prop :=
  ∀ k ≤ n, ((evaluateTotalUsage users).tot_cpu.find k).getD 0 = periodSum User.cpu_usage users k ∧
    ((evaluateTotalUsage users).tot_mem.find k).getD 0 = periodSum User.memory_usage users k

def Decaying (n : Nat) (usage : Map intOrder Usage) : Prop :=
  ∀ k : Nat, k ≤ n → 0 ≤ amount usage k ∧ (k < n → amount usage (k + 1) ≤ amount usage k)

def RatiosNormalised (users : List User) : Prop :=
  ∀ t_usage, totalUsage (evaluateTotalUsage users) = .ok t_usage →
    (∀ user ∈ users, ∀ h_usage, userUsage user = .ok h_usage →
      0 ≤ usageRatio h_usage t_usage ∧ usageRatio h_usage t_usage ≤ 1) ∧
    ∀ h_usages, List.Forall₂ (fun user h_usage => userUsage user = .ok h_usage) users h_usages →
      0 < t_usage → (h_usages.map fun h_usage => usageRatio h_usage t_usage).sum = 1

noncomputable def priorityOf (users : List User) (oid uid debug_flag : Int) :
    Option (FloatValue ℝ) :=
  match updatePrio (evaluateTotalUsage users) oid (owner users uid) debug_flag with
  | .ok prio => some (prio.map Scaled.value)
  | .error _ => none

def OrderIndependent (users : List User) : Prop :=
  ∀ permuted : List User, permuted.Perm users → ∀ oid uid debug_flag,
    priorityOf permuted oid uid debug_flag = priorityOf users oid uid debug_flag

def Normalised (n : Nat) (users : List User) : Prop :=
  TotalsAreSums n users ∧
    ((∀ user ∈ users, Decaying n user.cpu_usage ∧ Decaying n user.memory_usage) →
      RatiosNormalised users ∧ OrderIndependent users)

end Property

section Condition

inductive ShareKind where
  | usable
  | nan
  | undefined
  deriving DecidableEq

def shareKind : Option (FloatValue ℚ) → ShareKind
  | none => .undefined
  | some .nan => .nan
  | some (.infinite _) => .usable
  | some (.finite share) => if share = 0 then .undefined else .usable

def TailIdle (n : Nat) (tail : List User) : Prop :=
  ∀ k ≤ n, periodSum User.cpu_usage tail k = 0 ∧ periodSum User.memory_usage tail k = 0

def SameKinds (users : List User) : Prop :=
  ∀ a ∈ users, ∀ b ∈ users, a.userID = b.userID → shareKind a.share = shareKind b.share

def FirstHarmless (first : User) (tail : List User) : Prop :=
  tail = [] ∨ history first.cpu_usage = 0 ∨
    (∀ share, share ≠ 0 → first.share ≠ some (.finite share)) ∨
    ∃ other ∈ tail, other.userID = first.userID

def OnlyFirstCounts (n : Nat) : List User → Prop
  | [] => True
  | first :: tail => TailIdle n tail ∧
      (3 ≤ n → (∀ user ∈ first :: tail, Decaying n user.cpu_usage ∧ Decaying n user.memory_usage) →
        SameKinds (first :: tail) ∧ FirstHarmless first tail)

end Condition

section Totals

variable {n : Nat} {first : User} {tail : List User}

theorem totalsAreSums_iff (cpu : Carries n first.cpu_usage) (mem : Carries n first.memory_usage) :
    TotalsAreSums n (first :: tail) ↔ TailIdle n tail := by
  apply forall₂_congr
  intro k within
  rw [evaluateTotalUsage_eq]
  simp only [find_totalOf_cons User.cpu_usage first tail cpu within,
    find_totalOf_cons User.memory_usage first tail mem within, Option.getD_some, periodSum,
      List.map_cons,
    List.sum_cons]
  omega

theorem amount_eq_zero {k : Nat} (select : User → Map intOrder Usage)
    (nonneg : ∀ user ∈ tail, 0 ≤ amount (select user) k) (idle : periodSum select tail k = 0) :
    ∀ user ∈ tail, amount (select user) k = 0 := by
  induction tail with
  | nil => simp
  | cons head rest ih =>
      have here := nonneg head List.mem_cons_self
      have others : ∀ user ∈ rest, 0 ≤ amount (select user) k := fun user member =>
        nonneg user (List.mem_cons_of_mem _ member)
      have remaining : 0 ≤ periodSum select rest k := by
        apply List.sum_nonneg
        intro value member
        obtain ⟨user, inside, rfl⟩ := List.mem_map.mp member
        exact others user inside
      simp only [periodSum, List.map_cons, List.sum_cons] at idle remaining
      intro user member
      rcases List.mem_cons.mp member with rfl | later
      · omega
      · exact ih others (by simp only [periodSum]; omega) user later

theorem history_eq_zero (enough : 3 ≤ n) (decaying : ∀ user ∈ tail, Decaying n user.cpu_usage)
    (idle : TailIdle n tail) : ∀ user ∈ tail, history user.cpu_usage = 0 := by
  intro user member
  have zero (k : Nat) (within : k ≤ n) : amount user.cpu_usage k = 0 :=
    amount_eq_zero User.cpu_usage (fun other inside => (decaying other inside k within).1)
      (idle k within).1
      user member
  have zero0 := zero 0 (by omega)
  have zero1 := zero 1 (by omega)
  have zero2 := zero 2 (by omega)
  have zero3 := zero 3 enough
  norm_num at zero0 zero1 zero2 zero3
  simp [history, halfLife, zero0, zero1, zero2, zero3]

theorem usageRatio_zero (t_usage : ℚ) : usageRatio 0 t_usage = 0 := by
  simp [usageRatio]

theorem usageRatio_self {usage : ℚ} (used : usage ≠ 0) : usageRatio usage usage = 1 := by
  simp [usageRatio, used]

theorem ratiosNormalised (carries : ∀ user ∈ first :: tail, Carries n user.cpu_usage)
    (idle : 3 ≤ n → ∀ user ∈ tail, history user.cpu_usage = 0) :
    RatiosNormalised (first :: tail) := by
  intro t_usage total
  by_cases enough : 3 ≤ n
  · rw [totalUsage_carries (carries first List.mem_cons_self) enough, Except.ok.injEq] at total
    subst total
    have zero := idle enough
    constructor
    · intro user member h_usage used
      rw [userUsage_carries (carries user member) enough, Except.ok.injEq] at used
      subst used
      rcases List.mem_cons.mp member with rfl | later
      · by_cases none : history user.cpu_usage = 0
        · simp [none, usageRatio_zero]
        · simp [usageRatio_self none]
      · simp [zero user later, usageRatio_zero]
    · intro h_usages used positive
      have rest : (tail.map fun user =>
        usageRatio (history user.cpu_usage) (history first.cpu_usage)).sum = 0 := by
        apply List.sum_eq_zero
        intro ratio member
        obtain ⟨user, listed, rfl⟩ := List.mem_map.mp member
        rw [zero user listed, usageRatio_zero]
      rw [usages_eq enough carries used, List.map_map, List.map_cons, List.sum_cons]
      simp only [Function.comp_def, usageRatio_self positive.ne', rest, add_zero]
  · exact absurd total (totalUsage_short carries (by omega) t_usage)

end Totals

section Priorities

noncomputable def outcome (ratio : ℚ) (share : Option (FloatValue ℚ)) (oid : Int) :
    Option (FloatValue ℝ) :=
  match divideByShare ratio share with
  | .ok effort => if oid = 0 then none else some ((fairShare effort oid).map Scaled.value)
  | .error _ => none

noncomputable def idleOutcome (kind : ShareKind) (oid : Int) : Option (FloatValue ℝ) :=
  match kind with
  | .usable => if oid = 0 then none else some ((fairShare (some 0) oid).map Scaled.value)
  | .nan => if oid = 0 then none else some .nan
  | .undefined => none

theorem outcome_zero (share : Option (FloatValue ℚ)) (oid : Int) :
    outcome 0 share oid = idleOutcome (shareKind share) oid := by
  rcases share with _ | _ | negative | share
  · rfl
  · rfl
  · rfl
  · by_cases zero : share = 0 <;> simp [outcome, divideByShare, shareKind, idleOutcome, zero]

theorem outcome_unused {share : Option (FloatValue ℚ)}
    (unused : ∀ q, q ≠ 0 → share ≠ some (.finite q)) (ratio : ℚ) (oid : Int) :
    outcome ratio share oid = outcome 0 share oid := by
  rcases share with _ | _ | negative | share
  · rfl
  · rfl
  · rfl
  · by_cases zero : share = 0
    · simp [outcome, divideByShare, zero]
    · exact absurd rfl (unused share zero)

theorem idleOutcome_injective {a b : ShareKind} (same : idleOutcome a 1 = idleOutcome b 1) :
    a = b := by
  cases a <;> cases b <;> simp [idleOutcome, fairShare, FloatValue.map] at same ⊢

theorem outcome_one_ne {share : ℚ} (nonzero : share ≠ 0) :
    outcome 1 (some (.finite share)) 1 ≠ idleOutcome .usable 1 := by
  intro same
  simp only [outcome, divideByShare, nonzero, ↓reduceIte, idleOutcome, fairShare, FloatValue.map,
    one_ne_zero,
    Option.some.injEq, FloatValue.finite.injEq, Scaled.value_scale, Scaled.value_pow2] at same
  norm_num at same
  have exponent := (Real.rpow_right_inj (by norm_num : (0 : ℝ) < 2) (by norm_num)).mp
    (same.trans (Real.rpow_zero 2).symm)
  simp [nonzero] at exponent

variable {n : Nat} {users : List User} {first user : User} {tail : List User}
    {oid uid debug_flag : Int}

theorem priorityOf_debug : priorityOf users oid uid 0 = some (.finite oid) := by
  simp [priorityOf, updatePrio, FloatValue.map]

theorem priorityOf_undefined
    (undefined : ∀ prio,
      updatePrio (evaluateTotalUsage users) oid (owner users uid) debug_flag ≠ .ok prio) :
    priorityOf users oid uid debug_flag = none := by
  cases updated : updatePrio (evaluateTotalUsage users) oid (owner users uid) debug_flag with
  | ok prio => exact absurd updated (undefined prio)
  | error fault => simp [priorityOf, updated]

theorem priorityOf_absent (fair : debug_flag ≠ 0)
    (absent : ∀ user ∈ users, (user.userID.toNat : Int) ≠ uid) :
    priorityOf users oid uid debug_flag = none := by
  apply priorityOf_undefined
  intro prio updated
  obtain ⟨h_usage, _, _, used, _⟩ := (updatePrio_eq_ok fair).mp updated
  rw [owner_eq_unset absent] at used
  exact userUsage_unset h_usage used

theorem priorityOf_short (fair : debug_flag ≠ 0)
    (carries : ∀ user ∈ users, Carries n user.cpu_usage) (short : n < 3) :
    priorityOf users oid uid debug_flag = none := by
  apply priorityOf_undefined
  intro prio updated
  obtain ⟨_, t_usage, _, _, total, _⟩ := (updatePrio_eq_ok fair).mp updated
  exact totalUsage_short carries short t_usage total

theorem priorityOf_listed (fair : debug_flag ≠ 0) (enough : 3 ≤ n)
    (carries : ∀ user ∈ first :: tail, Carries n user.cpu_usage)
    (listed : LastListed (first :: tail) uid user) :
    priorityOf (first :: tail) oid uid debug_flag =
      outcome (usageRatio (history user.cpu_usage) (history first.cpu_usage)) user.share oid := by
  have used := userUsage_carries (carries user listed.mem) enough
  have total := @totalUsage_carries n first tail (carries first List.mem_cons_self) enough
  simp only [priorityOf, updatePrio, fair, ↓reduceIte, owner_of_lastListed listed, used, total,
    outcome, bind, Except.bind]
  cases divideByShare (usageRatio (history user.cpu_usage)
    (history first.cpu_usage)) user.share with
  | error fault => rfl
  | ok effort => by_cases zero : oid = 0 <;> simp [zero]

end Priorities

section Permutations

variable {n : Nat} {first : User} {tail : List User}

theorem ratio_harmless (idle : ∀ user ∈ tail, history user.cpu_usage = 0)
    (harmless : FirstHarmless first tail) (several : tail ≠ []) {head user : User}
    {others : List User} (permuted : (head :: others).Perm (first :: tail)) {uid : Int}
    (listed : LastListed (head :: others) uid user) (oid : Int) :
    outcome (usageRatio (history user.cpu_usage) (history head.cpu_usage)) user.share oid =
      outcome 0 user.share oid := by
  by_cases used : history user.cpu_usage = 0
  · rw [used, usageRatio_zero]
  have unique (other : User) (member : other ∈ first :: tail)
    (active : history other.cpu_usage ≠ 0) :
      other = first := by
    rcases List.mem_cons.mp member with same | later
    · exact same
    · exact absurd (idle other later) active
  have isFirst := unique user (permuted.mem_iff.mp listed.mem) used
  subst isFirst
  rcases harmless with alone | unused | unshared | ⟨other, member, same⟩
  · exact absurd alone several
  · exact absurd unused used
  · exact outcome_unused unshared _ oid
  · by_cases activeHead : history head.cpu_usage = 0
    · simp [usageRatio, activeHead]
    -- the first user heads the list, so somebody with its id comes later
    have headIs := unique head (permuted.mem_iff.mp List.mem_cons_self) activeHead
    subst headIs
    have rest := permuted.cons_inv
    have matching : (other.userID.toNat : Int) = uid := by
      rw [same]
      exact listed.matching
    obtain ⟨last, lastListed⟩ := exists_lastListed (rest.mem_iff.mpr member) matching
    have equal := (owner_of_lastListed listed).symm.trans (owner_of_lastListed (lastListed.cons _))
    rw [equal] at used
    exact absurd (idle last (rest.mem_iff.mp lastListed.mem)) used

theorem orderIndependent_of (enough : 3 ≤ n)
    (carries : ∀ user ∈ first :: tail, Carries n user.cpu_usage)
    (idle : ∀ user ∈ tail, history user.cpu_usage = 0) (kinds : SameKinds (first :: tail))
    (harmless : FirstHarmless first tail) : OrderIndependent (first :: tail) := by
  intro permuted perm oid uid debug_flag
  by_cases fair : debug_flag = 0
  · rw [fair, priorityOf_debug, priorityOf_debug]
  by_cases several : tail = []
  · subst several
    rw [List.perm_singleton.mp perm]
  rcases lastListed_or_absent (first :: tail) uid with ⟨user, listed⟩ | absent
  · cases permuted with
    | nil => exact absurd perm.length_eq (by simp)
    | cons head others =>
        obtain ⟨other, otherListed⟩ :=
          exists_lastListed (perm.mem_iff.mpr listed.mem) listed.matching
        have sameId : other.userID = user.userID := by
          have equal := otherListed.matching.trans listed.matching.symm
          exact UInt16.toNat_inj.mp (by exact_mod_cast equal)
        have kind := kinds other (perm.mem_iff.mp otherListed.mem) user listed.mem sameId
        rw [priorityOf_listed fair enough (fun user member =>
          carries user (perm.mem_iff.mp member)) otherListed,
          priorityOf_listed fair enough carries listed,
          ratio_harmless idle harmless several perm otherListed oid,
          ratio_harmless idle harmless several (List.Perm.refl _) listed oid, outcome_zero,
            outcome_zero, kind]
  · rw [priorityOf_absent fair absent,
      priorityOf_absent fair fun user member => absent user (perm.mem_iff.mp member)]

theorem priorityOf_last (enough : 3 ≤ n)
    (carries : ∀ user ∈ first :: tail, Carries n user.cpu_usage)
    (idle : ∀ user ∈ tail, history user.cpu_usage = 0)
    (independent : OrderIndependent (first :: tail)) (several : tail ≠ []) {user : User}
    (member : user ∈ first :: tail) :
    priorityOf (first :: tail) 1 user.userID.toNat 1 = idleOutcome (shareKind user.share) 1 := by
  obtain ⟨before, after, split⟩ := List.append_of_mem member
  have perm : (before ++ after ++ [user]).Perm (first :: tail) := by
    rw [split]
    exact (List.perm_append_singleton user (before ++ after)).trans List.perm_middle.symm
  rw [← independent _ perm]
  cases others : before ++ after with
  | nil =>
      rw [others] at perm
      have size := perm.length_eq
      simp only [List.nil_append, List.length_cons, List.length_nil] at size
      exact absurd (List.eq_nil_of_length_eq_zero (by omega)) several
  | cons head rest =>
      rw [others] at perm
      have listed : LastListed (head :: (rest ++ [user])) user.userID.toNat user :=
        ⟨head :: rest, [], by simp, rfl, by simp⟩
      have direct := @priorityOf_listed n head user (rest ++ [user]) 1 _ 1 one_ne_zero enough
        (fun other inside => carries other (perm.mem_iff.mp inside)) listed
      rw [List.cons_append, direct, ← outcome_zero]
      by_cases used : history user.cpu_usage = 0
      · rw [used, usageRatio_zero]
      · have isFirst : user = first := by
          rcases List.mem_cons.mp member with same | later
          · exact same
          · exact absurd (idle user later) used
        subst isFirst
        have behind : (head :: rest).Perm tail :=
          ((List.perm_append_singleton _ _).symm.trans perm).cons_inv
        have idleHead := idle head (behind.mem_iff.mp List.mem_cons_self)
        simp [usageRatio, idleHead]

theorem of_orderIndependent (enough : 3 ≤ n)
    (carries : ∀ user ∈ first :: tail, Carries n user.cpu_usage)
    (idle : ∀ user ∈ tail, history user.cpu_usage = 0)
    (independent : OrderIndependent (first :: tail)) :
    SameKinds (first :: tail) ∧ FirstHarmless first tail := by
  by_cases several : tail = []
  · subst several
    refine ⟨?_, Or.inl rfl⟩
    intro a memberA b memberB _
    rw [List.mem_singleton.mp memberA, List.mem_singleton.mp memberB]
  have last (user : User) (member : user ∈ first :: tail) :=
    priorityOf_last enough carries idle independent several member
  constructor
  · intro a memberA b memberB same
    apply idleOutcome_injective
    rw [← last a memberA, ← last b memberB, same]
  · by_contra harmful
    simp only [FirstHarmless, not_or, not_forall, not_exists, not_and, ne_eq, not_not] at harmful
    obtain ⟨_, used, ⟨share, nonzero, shared⟩, sole⟩ := harmful
    have listed : LastListed (first :: tail) first.userID.toNat first := by
      refine ⟨[], tail, rfl, rfl, ?_⟩
      intro other member same
      exact sole other member (UInt16.toNat_inj.mp (by exact_mod_cast same))
    have direct := @priorityOf_listed n first first tail 1 _ 1 one_ne_zero enough carries listed
    rw [last first List.mem_cons_self, usageRatio_self used, shared] at direct
    have kind : shareKind (some (.finite share)) = .usable := by simp [shareKind, nonzero]
    rw [kind] at direct
    exact outcome_one_ne nonzero direct.symm

end Permutations

theorem normalised_nil (n : Nat) : Normalised n [] := by
  have total (t_usage : ℚ) : totalUsage (evaluateTotalUsage []) ≠ .ok t_usage := by
    simp [totalUsage_eq_ok, evaluateTotalUsage]
  refine ⟨?_, fun _ => ⟨?_, ?_⟩⟩
  · intro k _
    simp [evaluateTotalUsage, periodSum]
  · intro t_usage found
    exact absurd found (total t_usage)
  · intro permuted perm oid uid debug_flag
    rw [List.perm_nil.mp perm]

theorem normalised_iff (n : Nat) (users : List User)
    (carries : ∀ user ∈ users, Carries n user.cpu_usage ∧ Carries n user.memory_usage) :
    Normalised n users ↔ OnlyFirstCounts n users := by
  cases users with
  | nil => exact iff_of_true (normalised_nil n) trivial
  | cons first tail =>
      have cpu : ∀ user ∈ first :: tail, Carries n user.cpu_usage :=
        fun user member => (carries user member).1
      have start := carries first List.mem_cons_self
      have idleOf (idle : TailIdle n tail) (enough : 3 ≤ n)
          (decaying : ∀ user ∈ first :: tail, Decaying n user.cpu_usage ∧
            Decaying n user.memory_usage) :
          ∀ user ∈ tail, history user.cpu_usage = 0 :=
        history_eq_zero enough (fun user member =>
          (decaying user (List.mem_cons_of_mem _ member)).1) idle
      simp only [Normalised, OnlyFirstCounts, totalsAreSums_iff start.1 start.2]
      constructor
      · rintro ⟨idle, consequences⟩
        refine ⟨idle, fun enough decaying => ?_⟩
        exact of_orderIndependent enough cpu (idleOf idle enough decaying) (consequences decaying).2
      · rintro ⟨idle, condition⟩
        refine ⟨idle, fun decaying => ⟨?_, ?_⟩⟩
        · exact ratiosNormalised cpu fun enough => idleOf idle enough decaying
        · by_cases enough : 3 ≤ n
          · obtain ⟨kinds, harmless⟩ := condition enough decaying
            exact orderIndependent_of enough cpu (idleOf idle enough decaying) kinds harmless
          · intro permuted perm oid uid debug_flag
            by_cases fair : debug_flag = 0
            · rw [fair, priorityOf_debug, priorityOf_debug]
            · rw [priorityOf_short fair cpu (by omega),
                priorityOf_short fair (fun user member => cpu user (perm.mem_iff.mp member))
                  (by omega)]

def sample (uid : UInt16) (usage : Int) : User :=
  let entries := Map.empty.insertAll [(0, ⟨usage, 0, 0⟩), (1, ⟨0, 0, 0⟩), (2, ⟨0, 0, 0⟩),
    (3, ⟨0, 0, 0⟩)]
  { User.unset with
    userID := uid, share := some (.finite (1 / 2)), cpu_usage := entries, memory_usage := entries }

theorem normalised_iff_sample : Normalised 3 [sample 1 5, sample 2 0] ↔
    OnlyFirstCounts 3 [sample 1 5, sample 2 0] := by
  apply normalised_iff
  intro user member
  simp only [List.mem_cons, List.not_mem_nil, or_false] at member
  rcases member with rfl | rfl <;> exact ⟨rfl, rfl⟩

theorem not_normalised_sample : ¬ Normalised 3 [sample 1 1, sample 2 3] := by
  rintro ⟨sums, _⟩
  have total := (sums 0 (by omega)).1
  revert total
  decide

end OneFass.Pm
