import OneFass.Pm.PriorityManager

set_option autoImplicit false

namespace OneFass.Pm

open Runtime OrderedMap ExactPower Xml

section Queue

variable {objects : Objects} {prio : VMObject → FloatValue Scaled}

theorem machine_found (keyed : Keyed objects) {vm : VMObject}
    (member : vm ∈ machines objects) : objects.find vm.oid = some vm := by
  obtain ⟨entry, inside, rfl⟩ := List.mem_map.mp member
  exact keyed.find inside

theorem filterMap_entries (keyed : Keyed objects) {vms : List VMObject}
    (inside : ∀ vm ∈ vms, vm ∈ machines objects) :
    (vms.map (entryFor prio)).filterMap (fun entry => objects.find entry.2) = vms := by
  induction vms with
  | nil => rfl
  | cons vm rest ih =>
      have found := machine_found keyed (inside vm List.mem_cons_self)
      have others := ih fun other member => inside other (List.mem_cons_of_mem _ member)
      simp only [List.map_cons, List.filterMap_cons, entryFor, found]
      exact congrArg (vm :: ·) others

theorem machines_of_entries {entries : List (FloatValue Scaled × Int)}
    (known : ∀ entry ∈ entries, entry ∈ (machines objects).map (entryFor prio)) :
    ∃ vms : List VMObject, (∀ vm ∈ vms, vm ∈ machines objects) ∧
    vms.map (entryFor prio) = entries := by
  induction entries with
  | nil => exact ⟨[], by simp, rfl⟩
  | cons entry rest ih =>
      obtain ⟨vms, inside, rfl⟩ := ih fun other member =>
        known other (List.mem_cons_of_mem _ member)
      obtain ⟨vm, member, rfl⟩ := List.mem_map.mp (known entry List.mem_cons_self)
      refine ⟨vm :: vms, ?_, rfl⟩
      intro other among
      rcases List.mem_cons.mp among with rfl | later
      · exact member
      · exact inside other later

theorem machines_pairwise (keyed : Keyed objects) :
    (machines objects).Pairwise fun a b => a.oid ≠ b.oid := by
  rw [machines, List.pairwise_map]
  refine objects.sorted.imp_of_mem ?_
  intro a b memberA memberB before
  rw [← keyed a memberA, ← keyed b memberB]
  simp only [intOrder, decide_eq_true_eq] at before
  omega

theorem kept_entries (keyed : Keyed objects) :
    ∃ vms : List VMObject, vms.Subperm (machines objects) ∧
      vms.map (entryFor prio) =
        (Map.empty.insertAll ((machines objects).map (entryFor prio)) : Priorities).entries := by
  have kept := @Map.insertAll_empty_subperm _ _ greaterOrder
    ((machines objects).map (entryFor prio))
  obtain ⟨vms, inside, entries⟩ := machines_of_entries fun entry member => kept.subset member
  refine ⟨vms, ?_, entries⟩
  rw [← entries] at kept
  obtain ⟨middle, perm, sub⟩ := kept
  have permuted := perm.filterMap fun entry => objects.find entry.2
  have sublist := sub.filterMap fun entry => objects.find entry.2
  rw [filterMap_entries keyed inside] at permuted
  rw [filterMap_entries keyed fun _ member => member] at sublist
  exact ⟨_, permuted, sublist⟩

theorem makeQueue_listed (keyed : Keyed objects) (format : FloatValue Scaled → Text)
    {prios : Priorities} {vms : List VMObject} (inside : ∀ vm ∈ vms, vm ∈ machines objects)
    (entries : vms.map (entryFor prio) = prios.entries) :
    makeQueue format objects prios =
      (fun pieces => queueOpen ++ pieces.flatten ++ queueClose) <$>
        mapAll (fun vm => queueNode (format (prio vm)) vm) vms := by
  have nodes : mapAll (queuedNode format objects) prios.entries =
      mapAll (fun vm => queueNode (format (prio vm)) vm) vms := by
    rw [← entries, mapAll_map]
    apply mapAll_congr
    intro vm member
    simp [queuedNode, entryFor, machine_found keyed (inside vm member)]
  rw [makeQueue, nodes]
  cases mapAll (fun vm => queueNode (format (prio vm)) vm) vms <;> rfl

end Queue

end OneFass.Pm
