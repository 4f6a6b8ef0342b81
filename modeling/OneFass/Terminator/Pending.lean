import OneFass.Terminator.Calls

set_option autoImplicit false

namespace OneFass.Terminator

open Runtime Client Xml OrderedMap

structure Overdue (clock : Int → Int) (max_wait uid : Int) (node : XmlNode) : Prop where
  waiting : equalsNumber [.state] 1 node = true
  owner : uid ≠ -1 → equalsNumber [.uid] uid node = true
  dynamic : staticOf node = some 0
  waited : ∃ birth, birthOf node = some birth ∧ clock (oidOf node) - birth > max_wait

structure RemovesOverdue (clock : Int → Int) (max_wait uid : Int) (document : XmlNode)
    (requests : List Request) :
    Prop where
  exact : ∀ request, request ∈ requests ↔
    ∃ node ∈ vmNodes document, Overdue clock max_wait uid node ∧ request = .terminate (oidOf node)
  once : (requests.map Request.oid).Nodup

/-- A machine that the loop removes although it is not pending or has no known time of creation. -/
structure Astray (clock : Int → Int) (max_wait : Int) (node : XmlNode) : Prop where
  dynamic : staticOf node = some 0
  misplaced : birthOf node = none ∨ equalsNumber [.state] 1 node = false
  waited : clock (oidOf node) - (birthOf node).getD (-1) > max_wait

theorem pendingRequest_eq_some {max_wait now : Int} {vm : VMObject} {request : Request} :
    pendingRequest max_wait now vm = some request ↔
      now - vm.birth > max_wait ∧ vm.static_vm = 0 ∧ request = .terminate vm.oid := by
  simp only [pendingRequest]
  split_ifs with old
  · simp [old, eq_comm]
  · simp only [false_iff]
    exact fun claimed => old ⟨claimed.1, claimed.2.1⟩

section Visited

variable {config : Config} {parse : Parser} {server : Server} {clock : Int → Int} {uid : Int}
    {before : Totals}
  {document : XmlNode}

theorem pending_holds {node : XmlNode} :
    (Call.killPending uid).query.holds node = true ↔
      waitsForScheduling node = true ∧ (uid ≠ -1 → equalsNumber [.uid] uid node = true) := by
  by_cases everyone : uid = -1 <;> simp [Call.query, Query.holds, everyone]

theorem named_of_staticOf {node : XmlNode} (member : node ∈ vmNodes document)
    (dynamic : staticOf node = some 0) :
    XmlNode.named .userTemplate node.children ≠ [] := by
  intro nothing
  obtain ⟨attributes, children, rfl⟩ := mem_vmNodes member
  rw [XmlNode.children] at nothing
  simp [staticOf, reading, xpaths, XmlNode.select, XmlNode.named, XmlNode.children,
    nothing] at dynamic

theorem Overdue.visited {node : XmlNode} (overdue : Overdue clock config.max_wait uid node)
    (member : node ∈ vmNodes document) : node ∈ visited document (.killPending uid) := by
  refine mem_visited.mpr ⟨member, pending_holds.mpr ⟨?_, overdue.owner⟩, ?_⟩
  · simp [waitsForScheduling, overdue.waiting]
  · exact validNode_of_two (by decide) (ne_nil_of_equalsNumber overdue.waiting)
      (named_of_staticOf member overdue.dynamic)

theorem requested_pending {node : XmlNode} {request : Request}
    (looked : node ∈ visited document (.killPending uid)) :
    pendingRequest config.max_wait (clock (oidOf node)) (VMObject.ofNode node) = some request ↔
      request = .terminate (oidOf node) ∧
        (Overdue clock config.max_wait uid node ∨ Astray clock config.max_wait node) := by
  rw [pendingRequest_eq_some, static_eq_zero, birth_eq]
  obtain ⟨member, selected, _⟩ := mem_visited.mp looked
  constructor
  · rintro ⟨waited, dynamic, rfl⟩
    refine ⟨rfl, ?_⟩
    cases born : birthOf node with
    | none => exact Or.inr ⟨dynamic, Or.inl born, waited⟩
    | some birth =>
        cases waiting : equalsNumber [.state] 1 node with
        | false => exact Or.inr ⟨dynamic, Or.inr waiting, waited⟩
        | true =>
            rw [born, Option.getD_some] at waited
            exact Or.inl ⟨waiting, (pending_holds.mp selected).2, dynamic, birth, born, waited⟩
  · rintro ⟨rfl, overdue | astray⟩
    · obtain ⟨birth, born, waited⟩ := overdue.waited
      rw [born, Option.getD_some]
      exact ⟨waited, overdue.dynamic, rfl⟩
    · exact ⟨astray.waited, astray.dynamic, rfl⟩

theorem not_astray_of_removes {requests : List Request} {after : Totals}
    (unique : UniqueIds document)
    (done : Done config clock (.killPending uid) document before requests after)
    (removes : RemovesOverdue clock config.max_wait uid document requests) {node : XmlNode}
    (looked : node ∈ visited document (.killPending uid)) :
    ¬ Astray clock config.max_wait node := by
  intro astray
  have acted := (requested_pending looked).mpr ⟨rfl, Or.inr astray⟩
  have sent := (done.requested _).mpr ⟨node, looked, acted⟩
  obtain ⟨other, inside, overdue, same⟩ := (removes.exact _).mp sent
  have equal := visited_once unique (mem_visited.mp looked).1 inside (Request.terminate.inj same)
  subst equal
  obtain ⟨birth, born, _⟩ := overdue.waited
  rcases astray.misplaced with unknown | elsewhere
  · rw [unknown] at born
    cases born
  · rw [overdue.waiting] at elsewhere
    cases elsewhere

theorem removes_of_done {requests : List Request} {after : Totals}
    (done : Done config clock (.killPending uid) document before requests after)
    (regular : ∀ node ∈ visited document (.killPending uid), ¬ Astray clock config.max_wait node) :
    RemovesOverdue clock config.max_wait uid document requests := by
  refine ⟨?_, done.once⟩
  intro request
  rw [done.requested]
  constructor
  · rintro ⟨node, looked, acted⟩
    obtain ⟨rfl, overdue | astray⟩ := (requested_pending looked).mp acted
    · exact ⟨node, (mem_visited.mp looked).1, overdue, rfl⟩
    · exact absurd astray (regular node looked)
  · rintro ⟨node, member, overdue, rfl⟩
    have looked := overdue.visited member
    exact ⟨node, looked, (requested_pending looked).mpr ⟨rfl, Or.inl overdue⟩⟩

theorem kill_pending_returns (answers : Answers config parse server document)
    (unique : UniqueIds document)
    (inside : ∀ node ∈ visited document (.killPending uid), fits64
      (clock (oidOf node) - (birthOf node).getD (-1))) :
    ∃ requests, perform config parse server clock (.killPending uid) before =
      .ok (0, requests, before) := by
  have spans : ∀ node ∈ visited document (.killPending uid), ∀ value,
      span (clock (oidOf node)) (VMObject.ofNode node) (.killPending uid) = some value →
        fits64 value := by
    intro node looked value computed
    cases computed
    rw [birth_eq]
    exact inside node looked
  obtain ⟨requests, after, ended⟩ :=
    @perform_returns config parse server clock
      (.killPending uid) before document answers unique spans
  obtain ⟨_, done⟩ := perform_done answers unique ended
  obtain ⟨vms, _, rfl⟩ := done.counted
  exact ⟨requests, by simpa [Call.count] using ended⟩

theorem kill_pending_exact_iff (answers : Answers config parse server document)
    (unique : UniqueIds document) :
    (∃ requests, perform config parse server clock (.killPending uid) before =
      .ok (0, requests, before) ∧
        RemovesOverdue clock config.max_wait uid document requests) ↔
      ∀ node ∈ visited document (.killPending uid), ¬ Astray clock config.max_wait node ∧
        fits64 (clock (oidOf node) - (birthOf node).getD (-1)) := by
  constructor
  · rintro ⟨requests, ended, removes⟩ node looked
    obtain ⟨_, done⟩ := perform_done answers unique ended
    refine ⟨not_astray_of_removes unique done removes looked, ?_⟩
    rw [← birth_eq]
    exact done.inside node looked _ rfl
  · intro regular
    obtain ⟨requests, ended⟩ := kill_pending_returns answers unique fun node looked =>
      (regular node looked).2
    obtain ⟨_, done⟩ := perform_done answers unique ended
    exact ⟨requests, ended, removes_of_done done fun node looked => (regular node looked).1⟩

end Visited

def createdMachine (states : XmlNode) : XmlNode :=
  .element .vm [] (leaf .id "8" <| leaf .uid "5" <| leaf .stime "100" <|
    .element .userTemplate [] (leaf .staticVm "0" .null) states) .null

theorem kill_pending_removes_overdue :
    let document := poolOf (createdMachine (leaf .state "1" .null))
    let clock : Int → Int := fun _ => 1000
    ∃ requests, perform ⟨[], [], 500, kill⟩ (knowing document) (answering document) clock
      (.killPending (-1)) .zero =
        .ok (0, requests, .zero) ∧
      RemovesOverdue clock 500 (-1) document requests := by
  intro document clock
  have unique : UniqueIds document := by
    unfold UniqueIds
    decide +kernel
  refine (@kill_pending_exact_iff ⟨[], [], 500, kill⟩ (knowing document) (answering document) clock
    (-1) .zero document (fetchDocument_answering document _ _ _) unique).mpr ?_
  intro node looked
  have only : node = createdMachine (leaf .state "1" .null) :=
    List.mem_singleton.mp (mem_visited.mp looked).1
  subst only
  refine ⟨?_, by decide +kernel⟩
  intro astray
  exact absurd astray.misplaced (by decide +kernel)

def unbornMachine : XmlNode :=
  .element .vm [] (leaf .id "8" <| leaf .state "1" <|
    .element .userTemplate [] (leaf .staticVm "0" .null) .null) .null

def rescheduledMachine : XmlNode :=
  createdMachine (leaf .state "3" <| leaf .lcmState "3" <| leaf .resched "1" .null)

theorem kill_pending_removes_astray :
    let clock : Int → Int := fun _ => 1000
    let removes (machine : XmlNode) : Prop := ∃ requests,
      perform ⟨[], [], 500, kill⟩ (knowing (poolOf machine)) (answering (poolOf machine)) clock
        (.killPending (-1)) .zero =
          .ok (0, requests, .zero) ∧
        RemovesOverdue clock 500 (-1) (poolOf machine) requests
    UniqueIds (poolOf rescheduledMachine) ∧ ¬ removes rescheduledMachine ∧
      UniqueIds (poolOf unbornMachine) ∧ ¬ removes unbornMachine := by
  intro clock removes
  have answers (machine : XmlNode) :
      Answers ⟨[], [], 500, kill⟩ (knowing (poolOf machine)) (answering (poolOf machine))
      (poolOf machine) := fetchDocument_answering _ _ _ _
  have running : UniqueIds (poolOf rescheduledMachine) := List.pairwise_singleton _ _
  have unborn : UniqueIds (poolOf unbornMachine) := List.pairwise_singleton _ _
  refine ⟨running, ?_, unborn, ?_⟩
  · rintro ⟨requests, ended, exact⟩
    have looked : rescheduledMachine ∈ visited (poolOf rescheduledMachine) (.killPending (-1)) := by
      decide +kernel
    obtain ⟨_, done⟩ := perform_done (answers _) running ended
    refine not_astray_of_removes running done exact looked ⟨?_, Or.inr ?_, ?_⟩ <;> decide +kernel
  · rintro ⟨requests, ended, exact⟩
    have looked : unbornMachine ∈ visited (poolOf unbornMachine) (.killPending (-1)) := by
      decide +kernel
    obtain ⟨_, done⟩ := perform_done (answers _) unborn ended
    refine not_astray_of_removes unborn done exact looked ⟨?_, Or.inl ?_, ?_⟩ <;> decide +kernel

end OneFass.Terminator
