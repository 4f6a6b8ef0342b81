import OneFass.Pm.Complete
import OneFass.Shared.BinaryRounding

set_option autoImplicit false

namespace OneFass.Pm

open Runtime OrderedMap ExactPower Xml BasicPlugin

-- an id as a `float`, which has 24 significant binary digits
def single (oid : Int) : Int := (BinaryRounding.toDigits 24 oid.toNat : Nat)

theorem single_mono {a b : Int} (le : a ≤ b) : single a ≤ single b := by
  have rounded := @BinaryRounding.toDigits_mono 24 _ _ (by decide) (Int.toNat_le_toNat le)
  exact Int.ofNat_le.mpr rounded

theorem single_of_lt {oid : Int} (nonneg : 0 ≤ oid) (small : oid < 2 ^ 24) : single oid = oid := by
  rw [single, BinaryRounding.toDigits_of_lt (by omega)]
  omega

def Converts (narrow : FloatValue Scaled → FloatValue Scaled) : Prop :=
  ∀ oid : Int, 0 ≤ oid → oid < 2 ^ 31 →
    narrow (.finite (Scaled.ofRat oid)) = .finite (Scaled.ofRat (single oid))

structure Dummy (narrow : FloatValue Scaled → FloatValue Scaled) (objects : Objects) : Prop where
  converts : Converts narrow
  keyed : Keyed objects
  ids : ∀ vm ∈ machines objects, 0 ≤ vm.oid ∧ vm.oid < 2 ^ 31

namespace Dummy

variable {format : FloatValue Scaled → Text} {narrow : FloatValue Scaled → FloatValue Scaled}
    {users : List User}
  {objects : Objects} {a b : VMObject}

def key (vm : VMObject) : FloatValue Scaled := .finite (Scaled.ofRat (single vm.oid))

theorem key_before_iff : greaterOrder.lt (key a) (key b) = true ↔ single b.oid < single a.oid := by
  rw [key, key, greaterOrder_finite, Scaled.value_ofRat, Scaled.value_ofRat]
  norm_cast

theorem key_apart_iff : greaterOrder.Apart (key a) (key b) ↔ single a.oid ≠ single b.oid := by
  rw [KeyOrder.Apart, key_before_iff, key_before_iff]
  omega

theorem prioritizes (dummy : Dummy narrow objects) (users : List User) :
    doPrioritize narrow users 0 objects Map.empty =
      .ok (Map.empty.insertAll ((machines objects).map (entryFor key))) := by
  apply prioritizeAll_of_updates
  intro vm member
  exact updateWith_eq_ok.mpr ⟨_, rfl,
    dummy.converts vm.oid (dummy.ids vm member).1 (dummy.ids vm member).2⟩

theorem decreasing {prios : Priorities} {vms : List VMObject}
    (entries : prios.entries = vms.map (entryFor key)) :
    vms.Pairwise fun a b => b.oid < a.oid := by
  have sorted := prios.sorted
  rw [entries, List.pairwise_map] at sorted
  refine sorted.imp ?_
  intro a b before
  have below := key_before_iff.mp before
  by_contra later
  have le := single_mono (not_lt.mp later)
  omega

end Dummy

def Inverts (format : FloatValue Scaled → Text) (narrow : FloatValue Scaled → FloatValue Scaled)
    (users : List User) (objects : Objects) : Prop :=
  ∃ prios queue listed pieces, doPrioritize narrow users 0 objects Map.empty = .ok prios ∧
    makeQueue format objects prios = .ok queue ∧ listed.Perm (machines objects) ∧
    listed.Pairwise (fun a b => b.oid < a.oid) ∧
    List.Forall₂ (fun vm piece => VmNode (format (Dummy.key vm)) vm piece) listed pieces ∧
    queue = queueOpen ++ pieces.flatten ++ queueClose

section Inversion

variable {format : FloatValue Scaled → Text} {narrow : FloatValue Scaled → FloatValue Scaled}
    {users : List User}
  {objects : Objects}

theorem apart_of_inverts (dummy : Dummy narrow objects)
    (inverts : Inverts format narrow users objects) :
    ∀ a ∈ machines objects, ∀ b ∈ machines objects, a.oid ≠ b.oid →
      single a.oid ≠ single b.oid := by
  obtain ⟨prios, queue, listed, pieces, prioritized, made, perm, _, nodes, rfl⟩ := inverts
  have stored := (dummy.prioritizes users).symm.trans prioritized
  rw [← Except.ok.inj stored] at made
  intro a memberA b memberB different
  exact Dummy.key_apart_iff.mp (apart_of_listed dummy.keyed made perm nodes memberA memberB
    different)

theorem editable_of_inverts (plain : ∀ value, Plain (format value))
    (fresh : ∀ vm ∈ machines objects, ¬ prioNode (format (Dummy.key vm)) <:+: serialize vm.xml)
    (inverts : Inverts format narrow users objects) : ∀ vm ∈ machines objects, EditableNode vm := by
  obtain ⟨_, _, listed, pieces, _, _, perm, _, nodes, _⟩ := inverts
  exact editable_of_listed plain perm fresh nodes

theorem inverts_of_apart (dummy : Dummy narrow objects) (plain : ∀ value, Plain (format value))
    (editable : ∀ vm ∈ machines objects, EditableNode vm)
    (apart : ∀ a ∈ machines objects, ∀ b ∈ machines objects, a.oid ≠ b.oid →
      single a.oid ≠ single b.oid) :
    Inverts format narrow users objects := by
  obtain ⟨vms, pieces, perm, entries, listed, made⟩ :=
    @makeQueue_apart format objects Dummy.key dummy.keyed
    (fun vm member => (editable vm member).spliceable) fun a memberA b memberB different =>
      Dummy.key_apart_iff.mpr (apart a memberA b memberB different)
  exact ⟨_, _, vms, pieces, dummy.prioritizes users, made, perm, Dummy.decreasing entries,
    nodes_of_queued plain perm editable listed, rfl⟩

theorem inverts_of_small (dummy : Dummy narrow objects) (plain : ∀ value, Plain (format value))
    (editable : ∀ vm ∈ machines objects, EditableNode vm)
    (small : ∀ vm ∈ machines objects, vm.oid < 2 ^ 24) :
    Inverts format narrow users objects := by
  refine inverts_of_apart dummy plain editable ?_
  intro a memberA b memberB different
  rwa [single_of_lt (dummy.ids a memberA).1 (small a memberA),
    single_of_lt (dummy.ids b memberB).1 (small b memberB)]

end Inversion

theorem inverts_iff (narrow : FloatValue Scaled → FloatValue Scaled) (users : List User)
    (objects : Objects) (dummy : Dummy narrow objects) :
    ((∀ format, (∀ value, Plain (format value)) → Inverts format narrow users objects) ↔
      (∀ vm ∈ machines objects, EditableNode vm) ∧
        ∀ a ∈ machines objects, ∀ b ∈ machines objects, a.oid ≠ b.oid →
        single a.oid ≠ single b.oid) ∧
    ∀ format, (∀ value, Plain (format value)) →
      (∀ vm ∈ machines objects, ¬ prioNode (format (Dummy.key vm)) <:+: serialize vm.xml) →
      (Inverts format narrow users objects ↔
        (∀ vm ∈ machines objects, EditableNode vm) ∧
          ∀ a ∈ machines objects, ∀ b ∈ machines objects, a.oid ≠ b.oid →
          single a.oid ≠ single b.oid) := by
  refine ⟨⟨?_, ?_⟩, ?_⟩
  · intro inverts
    obtain ⟨prio, plain, fresh⟩ := fresh_for_all objects
    have always := inverts (fun _ => prio) fun _ => plain
    exact ⟨editable_of_inverts (fun _ => plain) fresh always, apart_of_inverts dummy always⟩
  · rintro ⟨editable, apart⟩ format plain
    exact inverts_of_apart dummy plain editable apart
  · intro format plain fresh
    constructor
    · intro inverts
      exact ⟨editable_of_inverts plain fresh inverts, apart_of_inverts dummy inverts⟩
    · rintro ⟨editable, apart⟩
      exact inverts_of_apart dummy plain editable apart

section Neighbours

def narrowIntegers : FloatValue Scaled → FloatValue Scaled
  | .finite x =>
      if x.exponent = 0 ∧ x.coefficient.den = 1 ∧ 0 ≤ x.coefficient then
        .finite (Scaled.ofRat (single x.coefficient.num))
      else .finite x
  | other => other

theorem narrowIntegers_converts : Converts narrowIntegers := by
  intro oid nonneg _
  have cast : (0 : ℚ) ≤ oid := by exact_mod_cast nonneg
  simp [narrowIntegers, Scaled.ofRat, cast]

def lastExact : VMObject := machine "16777216".toList "1".toList
def firstRounded : VMObject := machine "16777217".toList "1".toList

def neighbours : Objects := Map.empty.insertAll [(16777216, lastExact), (16777217, firstRounded)]

theorem lastExact_oid : lastExact.oid = 16777216 := by decide +kernel

theorem firstRounded_oid : firstRounded.oid = 16777217 := by decide +kernel

theorem machines_neighbours : machines neighbours = [lastExact, firstRounded] := rfl

theorem neighbours_dummy {narrow : FloatValue Scaled → FloatValue Scaled}
    (converts : Converts narrow) :
    Dummy narrow neighbours := by
  constructor
  · exact converts
  · have entries : neighbours.entries = [(16777216, lastExact), (16777217, firstRounded)] := rfl
    simp [Keyed, entries, lastExact_oid, firstRounded_oid]
  · simp [machines_neighbours, lastExact_oid, firstRounded_oid]

theorem neighbours_editable : ∀ vm ∈ machines neighbours, EditableNode vm := by
  simp only [machines_neighbours, List.forall_mem_cons, List.not_mem_nil, false_implies,
    implies_true, and_true]
  refine ⟨@machine_editable _ _ 82 ?_ ?_ ?_ ?_,
    @machine_editable _ _ 82 ?_ ?_ ?_ ?_⟩ <;> decide +kernel

theorem inverts_iff_neighbours :
    (∀ format, (∀ value, Plain (format value)) → Inverts format narrowIntegers [] neighbours) ↔
      (∀ vm ∈ machines neighbours, EditableNode vm) ∧
        ∀ a ∈ machines neighbours, ∀ b ∈ machines neighbours, a.oid ≠ b.oid →
        single a.oid ≠ single b.oid :=
  (inverts_iff narrowIntegers [] neighbours (neighbours_dummy narrowIntegers_converts)).1

theorem not_inverts_neighbours :
    (∀ vm ∈ machines neighbours, EditableNode vm ∧ 0 ≤ vm.oid ∧ vm.oid < 2 ^ 31) ∧
      ∀ format narrow users, Converts narrow → ¬ Inverts format narrow users neighbours := by
  constructor
  · intro vm member
    exact ⟨neighbours_editable vm member, (neighbours_dummy narrowIntegers_converts).ids vm member⟩
  · intro format narrow users converts inverts
    have apart := apart_of_inverts (neighbours_dummy converts) inverts
    refine apart lastExact (by simp [machines_neighbours]) firstRounded
      (by simp [machines_neighbours]) ?_ ?_
    · simp [lastExact_oid, firstRounded_oid]
    · rw [lastExact_oid, firstRounded_oid]
      decide

end Neighbours

end OneFass.Pm
