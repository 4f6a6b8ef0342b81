import OneFass.Pm.Precedence

set_option autoImplicit false

namespace OneFass.Pm

open OrderedMap ExactPower Xml BasicPlugin

def Eases (uid : Int) (before after : User) : Prop :=
  after.userID = before.userID ∧
    if (before.userID.toNat : Int) = uid then
      history after.cpu_usage ≤ history before.cpu_usage ∧ shareOf before ≤ shareOf after
    else history after.cpu_usage = history before.cpu_usage ∧ shareOf after ≤ shareOf before

def divisor (users : List User) : ℚ := (users.head?.map fun first => history first.cpu_usage).getD 0

section Ratios

theorem usageRatio_le {less more total : ℚ} (used : 0 < total) (le : less ≤ more) :
    usageRatio less total ≤ usageRatio more total := by
  rw [usageRatio, usageRatio, if_neg used.ne', if_neg used.ne']
  exact div_le_div_of_nonneg_right le used.le

theorem usageRatio_le_of_total {usage less more : ℚ} (nonneg : 0 ≤ usage) (used : 0 < less)
    (le : less ≤ more) :
    usageRatio usage more ≤ usageRatio usage less := by
  rw [usageRatio, usageRatio, if_neg used.ne', if_neg (used.trans_le le).ne']
  exact div_le_div_of_nonneg_left nonneg used le

theorem usageRatio_nonneg {usage total : ℚ} (nonneg : 0 ≤ usage) (used : 0 < total) :
    0 ≤ usageRatio usage total := by
  rw [usageRatio, if_neg used.ne']
  exact div_nonneg nonneg used.le

end Ratios

section Owners

variable {uid : Int} {before after : List User}

theorem eases_refl (user : User) : Eases uid user user := by
  unfold Eases
  split_ifs <;> simp

theorem owner_eases (eases : List.Forall₂ (Eases uid) before after) (target : Int) :
    Eases uid (owner before target) (owner after target) := by
  unfold owner
  refine List.rel_foldl ?_ (eases_refl User.unset) eases
  intro kept keptAfter same listed listedAfter eased
  simp only [eased.1]
  split_ifs
  · exact eased
  · exact same

theorem userIDs_eases (eases : List.Forall₂ (Eases uid) before after) :
    after.map User.userID = before.map User.userID := by
  induction eases with
  | nil => rfl
  | cons eased _ ih => rw [List.map_cons, List.map_cons, eased.1, ih]

theorem owner_of_first {first : User} {tail : List User}
    (distinct : ((first :: tail).map User.userID).Nodup) :
    owner (first :: tail) first.userID.toNat = first := by
  refine owner_of_lastListed ⟨[], tail, rfl, rfl, ?_⟩
  intro later member same
  have ids : later.userID = first.userID := UInt16.toNat_inj.mp (by exact_mod_cast same)
  exact (List.nodup_cons.mp distinct).1 (ids ▸ List.mem_map_of_mem member)

end Owners

structure Comparable (users : List User) : Prop where
  distinct : (users.map User.userID).Nodup
  nonneg : ∀ user ∈ users, 0 ≤ history user.cpu_usage
  first : 0 < divisor users

section Efforts

variable {uid : Int} {before after : List User} (eases : List.Forall₂ (Eases uid) before after)
  (comparable : Comparable after)
include eases comparable

theorem divisor_le : divisor after ≤ divisor before := by
  cases eases with
  | nil => exact le_refl _
  | cons first rest =>
      obtain ⟨_, amounts⟩ := first
      simp only [divisor, List.head?_cons, Option.map_some, Option.getD_some]
      split_ifs at amounts
      · exact amounts.1
      · exact amounts.1.le

theorem effort_le (positive : ∀ user ∈ before, 0 < shareOf user) {own ownAfter : User}
    (listed : LastListed before uid own) (listedAfter : LastListed after uid ownAfter) :
    effort after ownAfter ≤ effort before own := by
  have eased := owner_eases eases uid
  rw [owner_of_lastListed listed, owner_of_lastListed listedAfter, Eases,
    if_pos listed.matching] at eased
  obtain ⟨_, less, more⟩ := eased
  have shared := positive own listed.mem
  have ratio : usageRatio (history ownAfter.cpu_usage) (divisor after) ≤
      usageRatio (history own.cpu_usage) (divisor before) := by
    have distinct := comparable.distinct
    rw [userIDs_eases eases] at distinct
    cases eases with
    | nil => exact absurd comparable.first (lt_irrefl 0)
    | @cons first firstAfter tail tailAfter easedFirst rest =>
        have used : 0 < history firstAfter.cpu_usage := comparable.first
        by_cases here : (first.userID.toNat : Int) = uid
        · have same : own = first := by
            rw [← owner_of_lastListed listed, ← here, owner_of_first distinct]
          have hereAfter : (firstAfter.userID.toNat : Int) = uid := by rw [easedFirst.1, here]
          have sameAfter : ownAfter = firstAfter := by
            rw [← owner_of_lastListed listedAfter, ← hereAfter, owner_of_first comparable.distinct]
          subst same sameAfter
          exact (usageRatio_self used.ne').trans_le (usageRatio_self (used.trans_le less).ne').ge
        · have total := easedFirst.2
          rw [if_neg here] at total
          simp only [divisor, List.head?_cons, Option.map_some, Option.getD_some, ← total.1]
          exact usageRatio_le used less
  calc effort after ownAfter =
      usageRatio (history ownAfter.cpu_usage) (divisor after) / shareOf ownAfter := rfl
    _ ≤ usageRatio (history ownAfter.cpu_usage) (divisor after) / shareOf own :=
        div_le_div_of_nonneg_left (usageRatio_nonneg
          (comparable.nonneg _ listedAfter.mem) comparable.first) shared more
    _ ≤ usageRatio (history own.cpu_usage) (divisor before) / shareOf own :=
      div_le_div_of_nonneg_right ratio shared.le
    _ = effort before own := rfl

theorem le_effort (positive : ∀ user ∈ after, 0 < shareOf user) {target : Int}
    (other : target ≠ uid) {user userAfter : User} (listed : LastListed before target user)
    (listedAfter : LastListed after target userAfter) :
    effort before user ≤ effort after userAfter := by
  have eased := owner_eases eases target
  rw [owner_of_lastListed listed, owner_of_lastListed listedAfter, Eases,
    if_neg (listed.matching.trans_ne other)] at eased
  obtain ⟨_, same, less⟩ := eased
  have nonneg := comparable.nonneg _ listedAfter.mem
  have shared := positive _ listedAfter.mem
  have ratio : usageRatio (history user.cpu_usage) (divisor before) ≤
      usageRatio (history userAfter.cpu_usage) (divisor after) := by
    rw [← same]
    exact usageRatio_le_of_total nonneg comparable.first (divisor_le eases comparable)
  calc effort before user = usageRatio (history user.cpu_usage) (divisor before) / shareOf user :=
    rfl
    _ ≤ usageRatio (history userAfter.cpu_usage) (divisor after) / shareOf user :=
        div_le_div_of_nonneg_right ratio (shared.trans_le less).le
    _ ≤ usageRatio (history userAfter.cpu_usage) (divisor after) / shareOf userAfter :=
        div_le_div_of_nonneg_left (usageRatio_nonneg nonneg comparable.first) shared less
    _ = effort after userAfter := rfl

end Efforts

namespace Prioritised

variable {users : List User} {plugin_debug : Int} {objects : Objects} {prios : Priorities}
    {vm : VMObject}

theorem owner_listed (done : Prioritised users plugin_debug objects prios)
    (member : vm ∈ machines objects) :
    ∃ user, LastListed users vm.uid user := by
  obtain ⟨_, rating, _⟩ := updateWith_eq_ok.mp (done.updates member)
  obtain ⟨h_usage, _, _, used, _⟩ := (updatePrio_eq_ok done.selected).mp rating
  rcases lastListed_or_absent users vm.uid with listed | absent
  · exact listed
  · rw [owner_eq_unset absent] at used
    exact absurd used (userUsage_unset h_usage)

theorem mem_of_listed (done : Prioritised users plugin_debug objects prios)
    (member : vm ∈ machines objects) (listed : vm.oid ∈ queueOrder prios) :
    entryFor (FairShare.key users) vm ∈ prios.entries := by
  obtain ⟨entry, inside, same⟩ := List.mem_map.mp listed
  obtain ⟨other, memberOther, rfl⟩ := done.mem_entries inside
  rwa [← done.same_oid memberOther member same]

theorem shares_pos (done : Prioritised users plugin_debug objects prios) :
    ∀ user ∈ users, 0 < shareOf user := by
  intro user member
  obtain ⟨share, shared, positive⟩ := done.shares user member
  rwa [shareOf, shared]

end Prioritised

theorem factor_le {users others : List User} {a b : VMObject} {user other : User}
    (listed : LastListed users a.uid user) (listedOther : LastListed others b.uid other)
    (less : effort others other ≤ effort users user) :
    factor users a ≤ factor others b := by
  have exponents : (-effort users user : ℝ) ≤ (-effort others other : ℝ) := by
    rw [neg_le_neg_iff]
    exact_mod_cast less
  rw [factor, factor, owner_of_lastListed listed, owner_of_lastListed listedOther,
    Scaled.value_pow2, Scaled.value_pow2]
  push_cast
  exact Real.rpow_le_rpow_of_exponent_le one_le_two exponents

theorem less_usage_keeps_place (uid : Int) (before after : List User) (plugin_debug : Int)
    (objects : Objects) (priosBefore priosAfter : Priorities)
    (doneBefore : Prioritised before plugin_debug objects priosBefore)
    (doneAfter : Prioritised after plugin_debug objects priosAfter)
    (eases : List.Forall₂ (Eases uid) before after) (comparable : Comparable after) (a b : VMObject)
    (memberA : a ∈ machines objects) (memberB : b ∈ machines objects) (own : a.uid = uid)
    (other : b.uid ≠ uid) (posA : 0 < a.oid) (posB : 0 < b.oid)
    (listedA : a.oid ∈ queueOrder priosAfter) (listedB : b.oid ∈ queueOrder priosAfter)
    (precedes : Precedes priosBefore a b) : Precedes priosAfter a b := by
  obtain ⟨ownerA, ownA⟩ := doneBefore.owner_listed memberA
  obtain ⟨ownerB, ownB⟩ := doneBefore.owner_listed memberB
  obtain ⟨ownerA', ownA'⟩ := doneAfter.owner_listed memberA
  obtain ⟨ownerB', ownB'⟩ := doneAfter.owner_listed memberB
  have rises : factor before a ≤ factor after a := by
    refine factor_le ownA ownA' ?_
    rw [own] at ownA ownA'
    exact effort_le eases comparable doneBefore.shares_pos ownA ownA'
  have falls : factor after b ≤ factor before b :=
    factor_le ownB' ownB (le_effort eases comparable doneAfter.shares_pos other ownB ownB')
  have idA : (0 : ℝ) < a.oid := by exact_mod_cast posA
  have idB : (0 : ℝ) < b.oid := by exact_mod_cast posB
  have leads := Map.lt_of_sublist ((doneBefore.precedes_iff memberA memberB).mp precedes)
  have ahead : factor after b * a.oid < factor after a * b.oid :=
    calc factor after b * a.oid ≤ factor before b * a.oid := mul_le_mul_of_nonneg_right falls idA.le
      _ < factor before a * b.oid := (key_before_iff before posA posB).mp leads
      _ ≤ factor after a * b.oid := mul_le_mul_of_nonneg_right rises idB.le
  apply (doneAfter.precedes_iff memberA memberB).mpr
  exact Map.sublist_of_lt (doneAfter.mem_of_listed memberA listedA)
    (doneAfter.mem_of_listed memberB listedB)
    ((key_before_iff after posA posB).mpr ahead)

section Example

def placesOf (users : List User) : Except Runtime.Fault (List Int) :=
  (doPrioritize id users 1 unequalPool Map.empty).map queueOrder

theorem unequalPool_places {users : List User}
    (samples : ∀ user ∈ users, ∃ uid usage, user = sample uid usage) {oids : List Int}
    (runs : placesOf users = .ok oids) :
    ∃ prios, Prioritised users 1 unequalPool prios ∧ queueOrder prios = oids := by
  unfold placesOf at runs
  cases completed : doPrioritize id users 1 unequalPool Map.empty with
  | error fault => rw [completed] at runs; cases runs
  | ok prios =>
      rw [completed] at runs
      refine ⟨prios, ⟨one_ne_zero, ?_, ?_, ?_, completed⟩, Except.ok.inj runs⟩
      · have entries : unequalPool.entries = [(1, oldMachine), (9, lateMachine)] := rfl
        simp [Keyed, entries, oldMachine_ids, lateMachine_ids]
      · intro user member
        obtain ⟨uid, usage, rfl⟩ := samples user member
        exact rfl
      · intro user member
        obtain ⟨uid, usage, rfl⟩ := samples user member
        exact ⟨1 / 2, rfl, by norm_num⟩

theorem samples_pair (first second : UInt16) (usage other : Int) :
    ∀ user ∈ [sample first usage, sample second other], ∃ uid usage, user = sample uid usage := by
  intro user member
  rcases List.mem_pair.mp member with rfl | rfl <;> exact ⟨_, _, rfl⟩

theorem less_usage_keeps_place_unequalPool : ∃ priosBefore priosAfter,
    Precedes priosBefore oldMachine lateMachine ∧ Precedes priosAfter oldMachine lateMachine ∧
      Prioritised [sample 2 2, sample 1 2] 1 unequalPool priosBefore ∧
      Prioritised [sample 2 2, sample 1 1] 1 unequalPool priosAfter := by
  obtain ⟨priosBefore, doneBefore, before⟩ :=
    @unequalPool_places [sample 2 2, sample 1 2] (samples_pair 2 1 2 2) [1, 9] (by decide +kernel)
  obtain ⟨priosAfter, doneAfter, after⟩ :=
    @unequalPool_places [sample 2 2, sample 1 1] (samples_pair 2 1 2 1) [1, 9] (by decide +kernel)
  have leads : Precedes priosBefore oldMachine lateMachine := by
    rw [Precedes, before, oldMachine_ids.1, lateMachine_ids.1]
  refine ⟨priosBefore, priosAfter, leads, ?_, doneBefore, doneAfter⟩
  refine less_usage_keeps_place 1 _ _ 1 unequalPool priosBefore priosAfter doneBefore doneAfter ?_
    ?_ oldMachine
    lateMachine ?_ ?_ oldMachine_ids.2 ?_ ?_ ?_ ?_ ?_ leads
  · refine .cons (eases_refl _) (.cons ⟨rfl, ?_⟩ .nil)
    exact ⟨by decide +kernel, le_refl _⟩
  · exact ⟨by decide, by decide +kernel, by decide +kernel⟩
  · exact List.mem_cons_self
  · exact List.mem_cons_of_mem _ List.mem_cons_self
  · rw [lateMachine_ids.2]
    decide
  · rw [oldMachine_ids.1]
    decide
  · rw [lateMachine_ids.1]
    decide
  · rw [after, oldMachine_ids.1]
    decide
  · rw [after, lateMachine_ids.1]
    decide

-- a first user who used nothing makes everybody's usage count for nothing, and loses his place by
-- it
example : placesOf [sample 2 1, sample 1 100] = .ok [9, 1] ∧
  placesOf [sample 2 0, sample 1 100] = .ok [1, 9] := by
  decide +kernel

end Example

end OneFass.Pm
