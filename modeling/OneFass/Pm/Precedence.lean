import OneFass.Pm.Complete

set_option autoImplicit false

namespace OneFass.Pm

open Runtime OrderedMap ExactPower Xml BasicPlugin

-- `pow(2, 0.-(ratio/(user->share)))` of the machine's owner
noncomputable def factor (users : List User) (vm : VMObject) : ℝ :=
  (Scaled.pow2 (-effort users (owner users vm.uid))).value

theorem factor_pos (users : List User) (vm : VMObject) : 0 < factor users vm := by
  rw [factor, Scaled.value_pos]
  exact one_pos

def ShouldPrecede (users : List User) (a b : VMObject) : Prop :=
  factor users b < factor users a ∨ (factor users a = factor users b ∧ a.oid < b.oid)

def queueOrder (prios : Priorities) : List Int := prios.entries.map Prod.snd

def Precedes (prios : Priorities) (a b : VMObject) : Prop :=
  [a.oid, b.oid].Sublist (queueOrder prios)

def Lists (format : FloatValue Scaled → Text) (objects : Objects) (oids : List Int) (queue : Text) :
    Prop :=
  ∃ pieces, List.Forall₂ (fun oid piece => ∃ vm prio, objects.find oid = some vm ∧
    queueNode (format prio) vm = .ok piece) oids pieces ∧
      queue = queueOpen ++ pieces.flatten ++ queueClose

theorem makeQueue_lists {format : FloatValue Scaled → Text} {objects : Objects} {prios : Priorities}
    {queue : Text} (made : makeQueue format objects prios = .ok queue) :
    Lists format objects (queueOrder prios) queue := by
  obtain ⟨pieces, nodes, joined⟩ := bind_eq_ok.mp made
  refine ⟨pieces, ?_, (Except.ok.inj joined).symm⟩
  rw [queueOrder, List.forall₂_map_left_iff]
  refine (mapAll_eq_ok.mp nodes).imp ?_
  intro entry piece queued
  simp only [queuedNode] at queued
  split at queued
  · cases queued
  · next vm found => exact ⟨vm, entry.1, found, queued⟩

structure Prioritised (users : List User) (plugin_debug : Int) (objects : Objects)
    (prios : Priorities) : Prop where
  selected : plugin_debug ≠ 0
  keyed : Keyed objects
  carries : ∀ user ∈ users, Carries 3 user.cpu_usage
  shares : ∀ user ∈ users, ∃ share, user.share = some (.finite share) ∧ 0 < share
  completed : doPrioritize id users plugin_debug objects Map.empty = .ok prios

namespace Prioritised

variable {users : List User} {plugin_debug : Int} {objects : Objects} {prios : Priorities}
    {a b : VMObject}

theorem updates (done : Prioritised users plugin_debug objects prios) {vm : VMObject}
    (member : vm ∈ machines objects) :
    updateWith id (evaluateTotalUsage users) users plugin_debug vm =
      .ok (FairShare.key users vm) := by
  obtain ⟨prio, updated⟩ := (prioritizeAll_eq_ok.mp done.completed).1 vm member
  obtain ⟨_, rating, _⟩ := updateWith_eq_ok.mp updated
  obtain ⟨h_usage, _, _, used, _, _, nonzero, _⟩ := (updatePrio_eq_ok done.selected).mp rating
  rcases lastListed_or_absent users vm.uid with ⟨user, listed⟩ | absent
  · obtain ⟨share, shared, positive⟩ := done.shares user listed.mem
    refine updateWith_eq_ok.mpr ⟨_,
      updatePrio_key done.selected done.carries nonzero listed shared positive, ?_⟩
    rw [FairShare.key, owner_of_lastListed listed, id]
  · rw [owner_eq_unset absent] at used
    exact absurd used (userUsage_unset h_usage)

theorem nonzero (done : Prioritised users plugin_debug objects prios) {vm : VMObject}
    (member : vm ∈ machines objects) :
    vm.oid ≠ 0 := by
  obtain ⟨_, rating, _⟩ := updateWith_eq_ok.mp (done.updates member)
  obtain ⟨_, _, _, _, _, _, nonzero, _⟩ := (updatePrio_eq_ok done.selected).mp rating
  exact nonzero

theorem entries (done : Prioritised users plugin_debug objects prios) :
    prios = Map.empty.insertAll ((machines objects).map (entryFor (FairShare.key users))) := by
  have prioritized := prioritizeAll_of_updates (fun vm member => done.updates member) Map.empty
  exact Except.ok.inj (done.completed.symm.trans prioritized)

theorem same_oid (done : Prioritised users plugin_debug objects prios)
    (memberA : a ∈ machines objects) (memberB : b ∈ machines objects) (same : a.oid = b.oid) :
    a = b := by
  have found := machine_found done.keyed memberA
  rw [same, machine_found done.keyed memberB] at found
  exact (Option.some.inj found).symm

theorem mem_entries (done : Prioritised users plugin_debug objects prios)
    {entry : FloatValue Scaled × Int} (member : entry ∈ prios.entries) :
    ∃ vm ∈ machines objects, entry = entryFor (FairShare.key users) vm := by
  have kept := @Map.insertAll_empty_subperm _ _ greaterOrder
    ((machines objects).map (entryFor (FairShare.key users)))
  rw [← done.entries] at kept
  obtain ⟨vm, inside, rfl⟩ := List.mem_map.mp (kept.subset member)
  exact ⟨vm, inside, rfl⟩

theorem precedes_iff (done : Prioritised users plugin_debug objects prios)
    (memberA : a ∈ machines objects) (memberB : b ∈ machines objects) :
    Precedes prios a b ↔
      [entryFor (FairShare.key users) a, entryFor (FairShare.key users) b].Sublist
        prios.entries := by
  constructor
  · intro precedes
    obtain ⟨pair, listed, oids⟩ := List.sublist_map_iff.mp precedes
    rcases pair with _ | ⟨first, _ | ⟨second, _ | ⟨third, rest⟩⟩⟩
    · simp at oids
    · simp at oids
    · simp only [List.map_cons, List.map_nil, List.cons.injEq, and_true] at oids
      obtain ⟨vmA, insideA, rfl⟩ := done.mem_entries (listed.subset List.mem_cons_self)
      obtain ⟨vmB, insideB, rfl⟩ := done.mem_entries (listed.subset (by simp : second ∈ _))
      rw [done.same_oid memberA insideA oids.1, done.same_oid memberB insideB oids.2]
      exact listed
    · simp at oids
  · intro listed
    exact listed.map Prod.snd

end Prioritised

section Keys

variable (users : List User) {a b : VMObject}

theorem keyOf_value (e : ℚ) (oid : Int) :
    (keyOf e oid).value = (Scaled.pow2 (-e)).value * (1 / oid) * 1000000000000 := by
  have scaled : keyOf e oid = ((Scaled.pow2 (-e)).scale (1 / oid)).scale 1000000000000 := rfl
  rw [scaled, Scaled.value_scale, Scaled.value_scale]
  push_cast
  ring

theorem key_before_iff (posA : 0 < a.oid) (posB : 0 < b.oid) :
    greaterOrder.lt (FairShare.key users a) (FairShare.key users b) = true ↔
      factor users b * a.oid < factor users a * b.oid := by
  have a0 : (0 : ℝ) < a.oid := by exact_mod_cast posA
  have b0 : (0 : ℝ) < b.oid := by exact_mod_cast posB
  rw [FairShare.key, FairShare.key, greaterOrder_finite, keyOf_value, keyOf_value]
  simp only [factor]
  rw [mul_lt_mul_iff_left₀ (by norm_num), mul_one_div, mul_one_div, div_lt_div_iff₀ b0 a0]

theorem apart_of_negative (negative : a.oid < 0) (positive : 0 < b.oid) :
    greaterOrder.Apart (FairShare.key users b) (FairShare.key users a) := by
  have below : (keyOf (effort users (owner users a.uid)) a.oid).value < 0 := by
    have id : (a.oid : ℚ) < 0 := by exact_mod_cast negative
    rw [Scaled.value_neg, keyOf]
    have inverse := one_div_neg.mpr id
    linarith
  have above : 0 < (keyOf (effort users (owner users b.uid)) b.oid).value := by
    have id : (0 : ℚ) < b.oid := by exact_mod_cast positive
    rw [Scaled.value_pos, keyOf]
    positivity
  exact Or.inl ((greaterOrder_finite _ _).mpr (below.trans above))

end Keys

def Dominates (users : List User) (objects : Objects) : Prop :=
  ∀ a ∈ machines objects, ∀ b ∈ machines objects, 0 < a.oid → 0 < b.oid →
    factor users b < factor users a → factor users b * a.oid < factor users a * b.oid

namespace Prioritised

variable {users : List User} {plugin_debug : Int} {objects : Objects} {prios : Priorities}
    {a b : VMObject}

theorem before_of_shouldPrecede (dominates : Dominates users objects)
    (memberA : a ∈ machines objects) (memberB : b ∈ machines objects) (posA : 0 < a.oid)
    (posB : 0 < b.oid) (should : ShouldPrecede users a b) :
    greaterOrder.lt (FairShare.key users a) (FairShare.key users b) = true := by
  rw [key_before_iff users posA posB]
  rcases should with larger | ⟨equal, older⟩
  · exact dominates a memberA b memberB posA posB larger
  · rw [equal]
    have ids : (a.oid : ℝ) < b.oid := by exact_mod_cast older
    exact mul_lt_mul_of_pos_left ids (factor_pos users b)

theorem shouldPrecede_or (users : List User) (different : a.oid ≠ b.oid) :
    ShouldPrecede users a b ∨ ShouldPrecede users b a := by
  rcases lt_trichotomy (factor users a) (factor users b) with less | equal | greater
  · exact Or.inr (Or.inl less)
  · rcases lt_or_gt_of_ne different with older | newer
    · exact Or.inl (Or.inr ⟨equal, older⟩)
    · exact Or.inr (Or.inr ⟨equal.symm, newer⟩)
  · exact Or.inl (Or.inl greater)

theorem listed (done : Prioritised users plugin_debug objects prios)
    (dominates : Dominates users objects) (memberA : a ∈ machines objects) (posA : 0 < a.oid) :
    entryFor (FairShare.key users) a ∈ prios.entries := by
  obtain ⟨entry, inside, near⟩ := Map.insertAll_covers (Map.empty : Priorities)
    (List.mem_map_of_mem memberA : entryFor (FairShare.key users) a ∈ _)
  rw [← done.entries] at inside
  obtain ⟨b, memberB, rfl⟩ := done.mem_entries inside
  by_cases same : a.oid = b.oid
  · rwa [done.same_oid memberA memberB same]
  · rcases lt_or_gt_of_ne (done.nonzero memberB) with negative | posB
    · exact absurd (apart_of_negative users negative posA) near
    · rcases shouldPrecede_or users same with first | second
      · exact absurd (Or.inl (before_of_shouldPrecede dominates memberA memberB posA posB first))
          near
      · exact absurd (Or.inr (before_of_shouldPrecede dominates memberB memberA posB posA second))
          near

end Prioritised

theorem fair_share_decides_iff (format : FloatValue Scaled → Text) (users : List User)
    (plugin_debug : Int) (objects : Objects) (prios : Priorities) (queue : Text)
    (done : Prioritised users plugin_debug objects prios)
    (made : makeQueue format objects prios = .ok queue) :
    Lists format objects (queueOrder prios) queue ∧
      ((∀ a ∈ machines objects, ∀ b ∈ machines objects, 0 < a.oid → 0 < b.oid →
          ShouldPrecede users a b → Precedes prios a b) ↔ Dominates users objects) := by
  refine ⟨makeQueue_lists made, ?_⟩
  constructor
  · intro decides a memberA b memberB posA posB larger
    have precedes := decides a memberA b memberB posA posB (Or.inl larger)
    have before := Map.lt_of_sublist ((done.precedes_iff memberA memberB).mp precedes)
    exact (key_before_iff users posA posB).mp before
  · intro dominates a memberA b memberB posA posB should
    rw [done.precedes_iff memberA memberB]
    have before := Prioritised.before_of_shouldPrecede dominates memberA memberB posA posB should
    exact Map.sublist_of_lt (done.listed dominates memberA posA)
      (done.listed dominates memberB posB) before

section Example

def lateMachine : VMObject := machine "9".toList "2".toList

def unequalPool : Objects := Map.empty.insertAll [(1, oldMachine), (9, lateMachine)]

theorem lateMachine_ids : lateMachine.oid = 9 ∧ lateMachine.uid = 2 := by decide +kernel

theorem unequalPool_prioritised : ∃ prios queue, Prioritised tiedUsers 1 unequalPool prios ∧
    makeQueue (fun _ => "0".toList) unequalPool prios = .ok queue ∧ queueOrder prios = [1, 9] := by
  have runs : ((doPrioritize id tiedUsers 1 unequalPool Map.empty).bind fun prios =>
      (makeQueue (fun _ => "0".toList) unequalPool prios).bind fun _ => .ok (queueOrder prios)) =
        .ok [1, 9] := by
    decide +kernel
  obtain ⟨prios, completed, rest⟩ := bind_eq_ok.mp runs
  obtain ⟨queue, made, listed⟩ := bind_eq_ok.mp rest
  refine ⟨prios, queue, ⟨one_ne_zero, ?_, ?_, ?_, completed⟩, made, Except.ok.inj listed⟩
  · have entries : unequalPool.entries = [(1, oldMachine), (9, lateMachine)] := rfl
    simp [Keyed, entries, oldMachine_ids, lateMachine_ids]
  · simp only [tiedUsers, List.forall_mem_cons, List.not_mem_nil, false_implies, implies_true,
      and_true]
    exact ⟨rfl, rfl⟩
  · simp [tiedUsers, sample]

theorem fair_share_decides_iff_unequalPool : ∃ prios queue,
    Lists (fun _ => "0".toList) unequalPool (queueOrder prios) queue ∧
      ((∀ a ∈ machines unequalPool, ∀ b ∈ machines unequalPool, 0 < a.oid → 0 < b.oid →
          ShouldPrecede tiedUsers a b → Precedes prios a b) ↔ Dominates tiedUsers unequalPool) := by
  obtain ⟨prios, queue, done, made, _⟩ := unequalPool_prioritised
  exact ⟨prios, queue, fair_share_decides_iff _ tiedUsers 1 unequalPool prios queue done made⟩

theorem smaller_id_outweighs_factor :
    factor tiedUsers oldMachine < factor tiedUsers lateMachine ∧
      ∃ prios, doPrioritize id tiedUsers 1 unequalPool Map.empty = .ok prios ∧
        ¬ Precedes prios lateMachine oldMachine := by
  constructor
  · exact (Scaled.lt_iff _ _).mp (by decide +kernel)
  · obtain ⟨prios, _, done, _, order⟩ := unequalPool_prioritised
    refine ⟨prios, done.completed, ?_⟩
    rw [Precedes, order, lateMachine_ids.1, oldMachine_ids.1]
    decide

end Example

end OneFass.Pm
