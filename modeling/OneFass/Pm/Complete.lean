import OneFass.Pm.Defined
import OneFass.Pm.Queue
import OneFass.Xml.PriorityPlaces

set_option autoImplicit false

namespace OneFass.Pm

open Runtime OrderedMap ExactPower Xml BasicPlugin

section Effort

def shareOf (user : User) : ℚ :=
  match user.share with
  | some (.finite share) => share
  | _ => 0

def effort (users : List User) (user : User) : ℚ :=
  usageRatio (history user.cpu_usage)
    ((users.head?.map fun first => history first.cpu_usage).getD 0) / shareOf user

def keyOf (e : ℚ) (oid : Int) : Scaled := ⟨1 * (1 / oid) * 1000000000000, -e⟩

theorem keyOf_value_eq_iff {e f : ℚ} {a b : Int} (posA : 0 < a) (posB : 0 < b) :
    (keyOf e a).value = (keyOf f b).value ↔ ∃ k : ℤ, f - e = k ∧ (a : ℚ) = b * 2 ^ k := by
  have a0 : (0 : ℚ) < a := by exact_mod_cast posA
  have b0 : (0 : ℚ) < b := by exact_mod_cast posB
  rw [keyOf, keyOf, Scaled.value_eq_iff _ _ _ _ (by positivity)]
  apply exists_congr
  intro k
  have power : (0 : ℚ) < 2 ^ k := by positivity
  apply and_congr
  · rw [neg_sub_neg]
  · constructor
    · intro equal
      field_simp at equal
      linarith
    · intro equal
      rw [equal]
      field_simp

end Effort

section Keys

variable {users : List User} {oid uid plugin_debug : Int} {user : User} {share : ℚ}

theorem updatePrio_key (fair : plugin_debug ≠ 0)
    (carries : ∀ user ∈ users, Carries 3 user.cpu_usage) (nonzero : oid ≠ 0)
    (listed : LastListed users uid user) (shared : user.share = some (.finite share))
    (positive : 0 < share) :
    updatePrio (evaluateTotalUsage users) oid (owner users uid) plugin_debug =
      .ok (.finite (keyOf (effort users user) oid)) := by
  have used := userUsage_carries (carries user listed.mem) (le_refl 3)
  cases users with
  | nil => exact absurd listed.mem (by simp)
  | cons first tail =>
      have total := @totalUsage_carries 3 first tail (carries first List.mem_cons_self) (le_refl 3)
      have divided : divideByShare (usageRatio (history user.cpu_usage)
        (history first.cpu_usage)) user.share =
          .ok (some (effort (first :: tail) user)) := by
        simp [shared, divideByShare, positive.ne', effort, shareOf]
      rw [owner_of_lastListed listed]
      exact (updatePrio_eq_ok fair).mpr ⟨_, _, _, used, total, divided, nonzero, rfl⟩

end Keys

-- equal priorities: the owners' efforts differ by an integer, the ids by that power of 2
def Tied (users : List User) (a b : VMObject) : Prop :=
  ∃ ownerA ownerB, LastListed users a.uid ownerA ∧ LastListed users b.uid ownerB ∧
    ∃ k : ℤ, effort users ownerB - effort users ownerA = k ∧ (a.oid : ℚ) = b.oid * 2 ^ k

def EditableNode (vm : VMObject) : Prop :=
  ∃ attributes children, vm.xml = Xml.machine attributes children ∧ Editable attributes children

def VmNode (prio : Text) (vm : VMObject) (piece : Text) : Prop :=
  ∃ attributes children, vm.xml = Xml.machine attributes children ∧
    SetsPriority attributes children prio ∧
    queueNode prio vm = .ok piece

section Nodes

variable {prio piece : Text} {vm : VMObject}

theorem VmNode.element (node : VmNode prio vm piece) :
    ∃ attributes children edited, vm.xml = Xml.machine attributes children ∧
      piece = serialize (Xml.machine attributes edited) ∧
      priorities edited = [priorityElement prio] ∧
      withoutPriority edited = withoutPriority children := by
  obtain ⟨attributes, children, document, ⟨edited, queued, single, others⟩, made⟩ := node
  have same : queueNode prio (VMObject.ofNode (Xml.machine attributes children)) =
      queueNode prio vm := by
    simp only [queueNode, document, VMObject.ofNode]
  rw [same, made] at queued
  exact ⟨attributes, children, edited, document, Except.ok.inj queued, single, others⟩

theorem VmNode.queued (node : VmNode prio vm piece) : queueNode prio vm = .ok piece := by
  obtain ⟨_, _, _, _, made⟩ := node
  exact made

theorem VmNode.editable (plain : Plain prio) (fresh : ¬ prioNode prio <:+: serialize vm.xml)
    (node : VmNode prio vm piece) : EditableNode vm := by
  obtain ⟨attributes, children, document, sets, _⟩ := node
  rw [document] at fresh
  exact ⟨attributes, children, document, sets.editable plain fresh⟩

theorem EditableNode.node (editable : EditableNode vm) (plain : Plain prio)
    (made : queueNode prio vm = .ok piece) :
    VmNode prio vm piece := by
  obtain ⟨attributes, children, document, edits⟩ := editable
  exact ⟨attributes, children, document, edits.sets plain, made⟩

theorem EditableNode.spliceable (editable : EditableNode vm) : Spliceable vm.xml := by
  obtain ⟨attributes, children, document, edits⟩ := editable
  obtain ⟨prio, plain, _⟩ := fresh_priority []
  obtain ⟨edited, queued, _⟩ := edits.sets plain
  have spliceable := (queueNode_defined prio _).mp ⟨_, queued⟩
  rwa [VMObject.ofNode, ← document] at spliceable

end Nodes

def ListsAll (format : FloatValue Scaled → Text) (users : List User) (plugin_debug : Int)
    (vms : List VMObject) (queue : Text) : Prop :=
  ∃ listed pieces, listed.Perm vms ∧
    List.Forall₂ (fun vm piece => ∃ prio,
      updatePrio (evaluateTotalUsage users) vm.oid (owner users vm.uid) plugin_debug = .ok prio ∧
        VmNode (format prio) vm piece) listed pieces ∧
    queue = queueOpen ++ pieces.flatten ++ queueClose

def Complete (format : FloatValue Scaled → Text) (users : List User) (plugin_debug : Int)
    (objects : Objects) :
    Prop :=
  ∃ prios queue, doPrioritize id users plugin_debug objects Map.empty = .ok prios ∧
    makeQueue format objects prios = .ok queue ∧
      ListsAll format users plugin_debug (machines objects) queue

section Queue

variable {objects : Objects} {prio : VMObject → FloatValue Scaled}

theorem listed_entries (keyed : Keyed objects)
    (apart : ∀ a ∈ machines objects, ∀ b ∈ machines objects, a.oid ≠ b.oid →
      greaterOrder.Apart (prio a) (prio b)) :
    ∃ vms : List VMObject, vms.Perm (machines objects) ∧
      (Map.empty.insertAll ((machines objects).map (entryFor prio)) : Priorities).entries =
        vms.map (entryFor prio) := by
  have separated : ((machines objects).map (entryFor prio)).Pairwise
      fun a b => greaterOrder.Apart a.1 b.1 := by
    rw [List.pairwise_map]
    refine (machines_pairwise keyed).imp_of_mem ?_
    intro a b memberA memberB different
    exact apart a memberA b memberB different
  have perm := Map.insertAll_empty_perm _ separated
  obtain ⟨vms, inside, entries⟩ := machines_of_entries fun entry member => perm.mem_iff.mp member
  refine ⟨vms, ?_, entries.symm⟩
  rw [← entries] at perm
  have restored := perm.filterMap fun entry => objects.find entry.2
  rwa [filterMap_entries keyed inside, filterMap_entries keyed fun _ member => member] at restored

theorem fewer_entries {a b : VMObject} (memberA : a ∈ machines objects)
    (memberB : b ∈ machines objects) (different : a.oid ≠ b.oid)
    (tied : ¬ greaterOrder.Apart (prio a) (prio b)) :
    (Map.empty.insertAll ((machines objects).map (entryFor prio)) : Priorities).entries.length <
      (machines objects).length := by
  have kept := @Map.insertAll_empty_subperm _ _ greaterOrder
    ((machines objects).map (entryFor prio))
  have bound := kept.length_le
  rw [List.length_map] at bound
  refine lt_of_le_of_ne bound fun same => ?_
  have perm := kept.perm_of_length_le (by rw [List.length_map, same])
  have separated := (Map.empty.insertAll
    ((machines objects).map (entryFor prio)) : Priorities).entries_apart
  rw [perm.pairwise_iff KeyOrder.Apart.symm] at separated
  have symmetric : Std.Symm fun x y : FloatValue Scaled × Int => greaterOrder.Apart x.1 y.1 :=
    ⟨fun _ _ => KeyOrder.Apart.symm⟩
  exact tied (separated.forall (List.mem_map_of_mem memberA) (List.mem_map_of_mem memberB)
    fun equal => different (congrArg Prod.snd equal))

theorem forall₂_mem {R : VMObject → Text → Prop} {listed : List VMObject} {pieces : List Text}
    (perm : listed.Perm (machines objects)) (related : List.Forall₂ R listed pieces) :
    List.Forall₂ (fun vm piece => vm ∈ machines objects ∧ R vm piece) listed pieces :=
  (List.forall₂_and_left listed pieces).mpr ⟨fun _ member => perm.mem_iff.mp member, related⟩

theorem listsAll_iff {users : List User} {plugin_debug : Int} {format : FloatValue Scaled → Text}
    {queue : Text}
    (updates : ∀ vm ∈ machines objects,
      updatePrio (evaluateTotalUsage users) vm.oid (owner users vm.uid) plugin_debug =
        .ok (prio vm)) :
    ListsAll format users plugin_debug (machines objects) queue ↔
      ∃ listed pieces, List.Perm listed (machines objects) ∧
        List.Forall₂ (fun vm piece => VmNode (format (prio vm)) vm piece) listed pieces ∧
        queue = queueOpen ++ pieces.flatten ++ queueClose := by
  constructor
  · rintro ⟨listed, pieces, perm, nodes, joined⟩
    refine ⟨listed, pieces, perm, (forall₂_mem perm nodes).imp ?_, joined⟩
    rintro vm piece ⟨member, own, updated, node⟩
    rw [updates vm member] at updated
    cases updated
    exact node
  · rintro ⟨listed, pieces, perm, nodes, joined⟩
    refine ⟨listed, pieces, perm, (forall₂_mem perm nodes).imp ?_, joined⟩
    rintro vm piece ⟨member, node⟩
    exact ⟨_, updates vm member, node⟩

theorem editable_of_listed {format : FloatValue Scaled → Text} {listed : List VMObject}
    {pieces : List Text} (plain : ∀ value, Plain (format value))
    (perm : listed.Perm (machines objects))
    (fresh : ∀ vm ∈ machines objects, ¬ prioNode (format (prio vm)) <:+: serialize vm.xml)
    (nodes : List.Forall₂ (fun vm piece => VmNode (format (prio vm)) vm piece) listed pieces) :
    ∀ vm ∈ machines objects, EditableNode vm := by
  have edits : ∀ vm ∈ listed, ¬ prioNode (format (prio vm)) <:+: serialize vm.xml →
      EditableNode vm :=
    ((List.forall₂_and_left _ _).mp (nodes.imp fun vm piece node =>
      ⟨node.editable (plain _), node⟩)).1
  intro vm member
  exact edits vm (perm.mem_iff.mpr member) (fresh vm member)

theorem nodes_of_queued {format : FloatValue Scaled → Text} {listed : List VMObject}
    {pieces : List Text} (plain : ∀ value, Plain (format value))
    (perm : listed.Perm (machines objects)) (editable : ∀ vm ∈ machines objects, EditableNode vm)
    (queued : mapAll (fun vm => queueNode (format (prio vm)) vm) listed = .ok pieces) :
    List.Forall₂ (fun vm piece => VmNode (format (prio vm)) vm piece) listed pieces := by
  refine (forall₂_mem perm (mapAll_eq_ok.mp queued)).imp ?_
  rintro vm piece ⟨member, made⟩
  exact (editable vm member).node (plain _) made

end Queue

section Lengths

variable {f : VMObject → Except Fault Text}

def sizeOf (f : VMObject → Except Fault Text) (vm : VMObject) : Nat :=
  match f vm with
  | .ok piece => piece.length
  | .error _ => 0

theorem flatten_length {vms : List VMObject} {pieces : List Text}
    (made : mapAll f vms = .ok pieces) :
    pieces.flatten.length = (vms.map (sizeOf f)).sum := by
  induction vms generalizing pieces with
  | nil =>
      cases made
      rfl
  | cons vm rest ih =>
      simp only [mapAll, bind_eq_ok, pure, Except.pure, Except.ok.injEq] at made
      obtain ⟨piece, first, others, made, rfl⟩ := made
      simp [sizeOf, first, ih made]

theorem sizes_lt {part all : List VMObject} (kept : part.Subperm all)
    (fewer : part.length < all.length) (positive : ∀ vm ∈ all, 0 < sizeOf f vm) :
    (part.map (sizeOf f)).sum < (all.map (sizeOf f)).sum := by
  obtain ⟨middle, perm, sub⟩ := kept
  obtain ⟨rest, split⟩ := sub.exists_perm_append
  have sums : (all.map (sizeOf f)).sum = (part.map (sizeOf f)).sum + (rest.map (sizeOf f)).sum := by
    rw [(split.map (sizeOf f)).sum_eq, List.map_append, List.sum_append,
      (perm.map (sizeOf f)).sum_eq]
  have lengths := split.length_eq
  rw [List.length_append, perm.length_eq] at lengths
  cases rest with
  | nil =>
      simp only [List.length_nil] at lengths
      omega
  | cons vm others =>
      have here := positive vm (split.mem_iff.mpr (by simp))
      rw [sums, List.map_cons, List.sum_cons]
      omega

end Lengths

theorem makeQueue_apart {format : FloatValue Scaled → Text} {objects : Objects}
    {prio : VMObject → FloatValue Scaled} (keyed : Keyed objects)
    (spliceable : ∀ vm ∈ machines objects, Spliceable vm.xml)
    (apart : ∀ a ∈ machines objects, ∀ b ∈ machines objects, a.oid ≠ b.oid →
      greaterOrder.Apart (prio a) (prio b)) :
    ∃ vms pieces, List.Perm vms (machines objects) ∧
      (Map.empty.insertAll ((machines objects).map (entryFor prio)) : Priorities).entries =
        vms.map (entryFor prio) ∧
      mapAll (fun vm => queueNode (format (prio vm)) vm) vms = .ok pieces ∧
      makeQueue format objects (Map.empty.insertAll ((machines objects).map (entryFor prio))) =
        .ok (queueOpen ++ pieces.flatten ++ queueClose) := by
  obtain ⟨vms, perm, entries⟩ := listed_entries keyed apart
  have inside : ∀ vm ∈ vms, vm ∈ machines objects := fun vm member => perm.mem_iff.mp member
  obtain ⟨pieces, listed⟩ := mapAll_defined.mpr fun vm member =>
    (queueNode_defined (format (prio vm)) vm).mpr (spliceable vm (inside vm member))
  refine ⟨vms, pieces, perm, entries, listed, ?_⟩
  rw [makeQueue_listed keyed format inside entries.symm, listed]
  rfl

theorem apart_of_listed {format : FloatValue Scaled → Text} {objects : Objects}
    {prio : VMObject → FloatValue Scaled} {listed : List VMObject} {pieces : List Text}
    (keyed : Keyed objects)
    (made : makeQueue format objects
      (Map.empty.insertAll ((machines objects).map (entryFor prio))) =
      .ok (queueOpen ++ pieces.flatten ++ queueClose))
    (perm : listed.Perm (machines objects))
    (nodes : List.Forall₂ (fun vm piece => VmNode (format (prio vm)) vm piece) listed pieces)
    {a b : VMObject}
    (memberA : a ∈ machines objects) (memberB : b ∈ machines objects) (different : a.oid ≠ b.oid) :
    greaterOrder.Apart (prio a) (prio b) := by
  by_contra together
  have listedMade := mapAll_eq_ok.mpr (nodes.imp fun vm piece node => node.queued)
  obtain ⟨vms, kept, entries⟩ := @kept_entries objects prio keyed
  have fewer := fewer_entries memberA memberB different together
  rw [← entries, List.length_map] at fewer
  have positive : ∀ vm ∈ machines objects,
    0 < sizeOf (fun vm => queueNode (format (prio vm)) vm) vm := by
    have sizes : ∀ vm ∈ listed, 0 < sizeOf (fun vm => queueNode (format (prio vm)) vm) vm := by
      refine ((List.forall₂_and_left _ _).mp (nodes.imp fun vm piece node => ⟨?_, node⟩)).1
      simpa [sizeOf, node.queued] using queueNode_length node.queued
    intro vm member
    exact sizes vm (perm.mem_iff.mpr member)
  rw [makeQueue_listed keyed format (fun vm member => kept.subset member) entries,
    map_eq_ok] at made
  obtain ⟨keptPieces, keptMade, same⟩ := made
  -- both ways to make the queue have the same length
  have lengths := congrArg List.length same
  simp only [List.length_append, flatten_length keptMade, flatten_length listedMade] at lengths
  have sums := (perm.map (sizeOf fun vm => queueNode (format (prio vm)) vm)).sum_eq
  have less := sizes_lt kept fewer positive
  omega

structure FairShare (users : List User) (plugin_debug : Int) (objects : Objects) : Prop where
  selected : plugin_debug ≠ 0
  keyed : Keyed objects
  positive : ∀ vm ∈ machines objects, 0 < vm.oid
  carries : ∀ user ∈ users, Carries 3 user.cpu_usage
  owners : ∀ vm ∈ machines objects, ∃ user share, LastListed users vm.uid user ∧
    user.share = some (.finite share) ∧ 0 < share

namespace FairShare

variable {users : List User} {plugin_debug : Int} {objects : Objects}

def key (users : List User) (vm : VMObject) : FloatValue Scaled :=
  .finite (keyOf (effort users (owner users vm.uid)) vm.oid)

theorem updates (fair : FairShare users plugin_debug objects) (vm : VMObject)
    (member : vm ∈ machines objects) :
    updatePrio (evaluateTotalUsage users) vm.oid (owner users vm.uid) plugin_debug =
      .ok (key users vm) := by
  obtain ⟨user, share, listed, shared, positive⟩ := fair.owners vm member
  rw [updatePrio_key fair.selected fair.carries
    (fair.positive vm member).ne' listed shared positive, key, owner_of_lastListed listed]

theorem prioritizes (fair : FairShare users plugin_debug objects) :
    doPrioritize id users plugin_debug objects Map.empty =
      .ok (Map.empty.insertAll ((machines objects).map (entryFor (key users)))) := by
  apply prioritizeAll_of_updates
  intro vm member
  exact updateWith_eq_ok.mpr ⟨_, fair.updates vm member, rfl⟩

theorem apart_iff (fair : FairShare users plugin_debug objects) {a b : VMObject}
    (memberA : a ∈ machines objects) (memberB : b ∈ machines objects) :
    greaterOrder.Apart (key users a) (key users b) ↔ ¬ Tied users a b := by
  obtain ⟨ownerA, _, listedA, _, _⟩ := fair.owners a memberA
  obtain ⟨ownerB, _, listedB, _, _⟩ := fair.owners b memberB
  rw [key, key, apart_finite, ne_eq,
    keyOf_value_eq_iff (fair.positive a memberA) (fair.positive b memberB),
    owner_of_lastListed listedA, owner_of_lastListed listedB]
  apply not_congr
  constructor
  · intro tied
    exact ⟨ownerA, ownerB, listedA, listedB, tied⟩
  · rintro ⟨otherA, otherB, alsoA, alsoB, tied⟩
    have sameA := (owner_of_lastListed listedA).symm.trans (owner_of_lastListed alsoA)
    have sameB := (owner_of_lastListed listedB).symm.trans (owner_of_lastListed alsoB)
    rwa [sameA, sameB]

end FairShare

section Completeness

variable {format : FloatValue Scaled → Text} {users : List User} {plugin_debug : Int}
    {objects : Objects}

theorem complete_keys (fair : FairShare users plugin_debug objects) :
    Complete format users plugin_debug objects ↔
      ∃ queue, makeQueue format objects
          (Map.empty.insertAll ((machines objects).map (entryFor (FairShare.key users)))) =
            .ok queue ∧
        ∃ listed pieces, List.Perm listed (machines objects) ∧
          List.Forall₂ (fun vm piece => VmNode
            (format (FairShare.key users vm)) vm piece) listed pieces ∧
          queue = queueOpen ++ pieces.flatten ++ queueClose := by
  simp only [Complete, fair.prioritizes, Except.ok.injEq, exists_eq_left', exists_and_left,
    listsAll_iff fair.updates]

theorem editable_of_complete (fair : FairShare users plugin_debug objects)
    (plain : ∀ value, Plain (format value))
    (fresh : ∀ vm ∈ machines objects,
      ¬ prioNode (format (FairShare.key users vm)) <:+: serialize vm.xml)
    (complete : Complete format users plugin_debug objects) :
    ∀ vm ∈ machines objects, EditableNode vm := by
  obtain ⟨queue, _, listed, pieces, perm, nodes, _⟩ := (complete_keys fair).mp complete
  exact editable_of_listed plain perm fresh nodes

theorem untied_of_complete (fair : FairShare users plugin_debug objects)
    (complete : Complete format users plugin_debug objects) {a b : VMObject}
    (memberA : a ∈ machines objects) (memberB : b ∈ machines objects) (different : a.oid ≠ b.oid) :
    ¬ Tied users a b := by
  intro tied
  have together : ¬ greaterOrder.Apart (FairShare.key users a) (FairShare.key users b) :=
    fun apart => (fair.apart_iff memberA memberB).mp apart tied
  obtain ⟨queue, made, listed, pieces, perm, nodes, joined⟩ := (complete_keys fair).mp complete
  rw [joined] at made
  exact together (apart_of_listed fair.keyed made perm nodes memberA memberB different)

theorem complete_of_untied (fair : FairShare users plugin_debug objects)
    (plain : ∀ value, Plain (format value)) (editable : ∀ vm ∈ machines objects, EditableNode vm)
    (untied : ∀ a ∈ machines objects, ∀ b ∈ machines objects, a.oid ≠ b.oid → ¬ Tied users a b) :
    Complete format users plugin_debug objects := by
  obtain ⟨vms, pieces, perm, _, listed, made⟩ :=
    @makeQueue_apart format objects (FairShare.key users) fair.keyed
    (fun vm member => (editable vm member).spliceable) fun a memberA b memberB different =>
      (fair.apart_iff memberA memberB).mpr (untied a memberA b memberB different)
  exact (complete_keys fair).mpr ⟨_, made, vms, pieces, perm,
    nodes_of_queued plain perm editable listed, rfl⟩

end Completeness

theorem fresh_for_all (objects : Objects) :
    ∃ prio, Plain prio ∧ ∀ vm ∈ machines objects, ¬ prioNode prio <:+: serialize vm.xml := by
  obtain ⟨prio, plain, fresh⟩ := fresh_priority ((machines objects).flatMap fun vm =>
    serialize vm.xml)
  refine ⟨prio, plain, fun vm member inside => fresh (inside.trans ?_)⟩
  obtain ⟨front, back, split⟩ := List.append_of_mem member
  exact ⟨front.flatMap fun vm => serialize vm.xml, back.flatMap fun vm => serialize vm.xml,
    by simp [split]⟩

theorem complete_iff (users : List User) (plugin_debug : Int) (objects : Objects)
    (fair : FairShare users plugin_debug objects) :
    ((∀ format, (∀ value, Plain (format value)) → Complete format users plugin_debug objects) ↔
      (∀ vm ∈ machines objects, EditableNode vm) ∧
        ∀ a ∈ machines objects, ∀ b ∈ machines objects, a.oid ≠ b.oid → ¬ Tied users a b) ∧
    ∀ format, (∀ value, Plain (format value)) →
      (∀ vm ∈ machines objects, ∀ prio,
        updatePrio (evaluateTotalUsage users) vm.oid (owner users vm.uid) plugin_debug = .ok prio →
          ¬ prioNode (format prio) <:+: serialize vm.xml) →
      (Complete format users plugin_debug objects ↔
        (∀ vm ∈ machines objects, EditableNode vm) ∧
          ∀ a ∈ machines objects, ∀ b ∈ machines objects, a.oid ≠ b.oid → ¬ Tied users a b) := by
  refine ⟨⟨?_, ?_⟩, ?_⟩
  · intro complete
    obtain ⟨prio, plain, fresh⟩ := fresh_for_all objects
    have always := complete (fun _ => prio) fun _ => plain
    refine ⟨editable_of_complete fair (fun _ => plain) fresh always, ?_⟩
    intro a memberA b memberB different
    exact untied_of_complete fair always memberA memberB different
  · rintro ⟨editable, untied⟩ format plain
    exact complete_of_untied fair plain editable untied
  · intro format plain fresh
    constructor
    · intro complete
      refine ⟨editable_of_complete fair plain (fun vm member =>
        fresh vm member _ (fair.updates vm member)) complete, ?_⟩
      intro a memberA b memberB different
      exact untied_of_complete fair complete memberA memberB different
    · rintro ⟨editable, untied⟩
      exact complete_of_untied fair plain editable untied

section Tie

def oldMachine : VMObject := machine "1".toList "1".toList
def newMachine : VMObject := machine "4".toList "2".toList

def tiedPool : Objects := Map.empty.insertAll [(1, oldMachine), (4, newMachine)]

def tiedUsers : List User := [sample 1 1, sample 2 0]

theorem oldMachine_ids : oldMachine.oid = 1 ∧ oldMachine.uid = 1 := by decide +kernel

theorem newMachine_ids : newMachine.oid = 4 ∧ newMachine.uid = 2 := by decide +kernel

theorem machines_tiedPool : machines tiedPool = [oldMachine, newMachine] := rfl

theorem listed_old : LastListed tiedUsers 1 (sample 1 1) :=
  ⟨[], [sample 2 0], rfl, rfl, by simp [sample]⟩

theorem listed_new : LastListed tiedUsers 2 (sample 2 0) := ⟨[sample 1 1], [], rfl, rfl, by simp⟩

theorem tiedPool_fairShare : FairShare tiedUsers 1 tiedPool := by
  constructor
  · exact one_ne_zero
  · have entries : tiedPool.entries = [(1, oldMachine), (4, newMachine)] := rfl
    simp [Keyed, entries, oldMachine_ids, newMachine_ids]
  · simp [machines_tiedPool, oldMachine_ids, newMachine_ids]
  · intro user member
    simp only [tiedUsers, List.mem_cons, List.not_mem_nil, or_false] at member
    rcases member with rfl | rfl <;> rfl
  · intro vm member
    simp only [machines_tiedPool, List.mem_cons, List.not_mem_nil, or_false] at member
    rcases member with rfl | rfl
    · exact ⟨_, 1 / 2, by rw [oldMachine_ids.2]; exact listed_old, rfl, by norm_num⟩
    · exact ⟨_, 1 / 2, by rw [newMachine_ids.2]; exact listed_new, rfl, by norm_num⟩

theorem machine_editable {id uid : Text} {close : Nat}
    (absent : ¬ priorityWord <:+: serialize (machineNode id uid))
    (template : find (serialize (machineNode id uid)) templateOpen =
      some (vmOpen ++ serialize (.element .id [] (.text id .null) <| .element .uid []
        (.text uid .null) .null)).length)
    (closed : find (serialize (machineNode id uid)) vmClose = some close)
    (whole : close + 5 = (serialize (machineNode id uid)).length) : EditableNode (machine id uid) :=
  ⟨[], _, rfl, rfl, Or.inl ⟨absent,
    .element .id [] (.text id .null) <| .element .uid [] (.text uid .null) .null,
    .element .memory [] (.text uid .null) .null, .null, close, rfl, by simp, template, closed,
      whole⟩⟩

theorem tiedPool_editable : ∀ vm ∈ machines tiedPool, EditableNode vm := by
  simp only [machines_tiedPool, List.forall_mem_cons, List.not_mem_nil, false_implies, implies_true,
    and_true]
  refine ⟨@machine_editable _ _ 75 ?_ ?_ ?_ ?_,
    @machine_editable _ _ 75 ?_ ?_ ?_ ?_⟩ <;> decide +kernel

theorem complete_iff_tiedPool :
    (∀ format, (∀ value, Plain (format value)) → Complete format tiedUsers 1 tiedPool) ↔
      (∀ vm ∈ machines tiedPool, EditableNode vm) ∧
        ∀ a ∈ machines tiedPool, ∀ b ∈ machines tiedPool, a.oid ≠ b.oid → ¬ Tied tiedUsers a b :=
  (complete_iff tiedUsers 1 tiedPool tiedPool_fairShare).1

theorem not_complete_tiedPool :
    FairShare tiedUsers 1 tiedPool ∧ (∀ vm ∈ machines tiedPool, EditableNode vm) ∧
      ∀ format, ¬ Complete format tiedUsers 1 tiedPool := by
  refine ⟨tiedPool_fairShare, tiedPool_editable, ?_⟩
  intro format complete
  have old : oldMachine ∈ machines tiedPool := by simp [machines_tiedPool]
  have new : newMachine ∈ machines tiedPool := by simp [machines_tiedPool]
  refine untied_of_complete tiedPool_fairShare complete old new
    (by simp [oldMachine_ids, newMachine_ids]) ?_
  refine ⟨_, _, by rw [oldMachine_ids.2]; exact listed_old,
    by rw [newMachine_ids.2]; exact listed_new, -2, ?_, ?_⟩
  · decide +kernel
  · rw [oldMachine_ids.1, newMachine_ids.1]
    norm_num

end Tie

end OneFass.Pm
