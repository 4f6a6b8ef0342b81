import OneFass.Terminator.Calls

set_option autoImplicit false

namespace OneFass.Terminator

open Runtime Client Xml OrderedMap

theorem State.update_update (state : State) (thread : Thread) (position next : Position)
    (shared after : Shared) :
    (state.update thread position shared).update thread next after =
      state.update thread next after := by
  cases thread <;> rfl

theorem State.update_self {state : State} {thread : Thread} {position : Position}
    (here : state.position thread = position) :
    state.update thread position state.shared = state := by
  subst here
  cases thread <;> rfl

def Shared.issue (shared : Shared) (thread : Thread) (requests : List Request) : Shared :=
  requests.foldl (fun shared request => shared.record (.requested thread request)) shared

theorem Shared.issue_eq (shared : Shared) (thread : Thread) (requests : List Request) :
    shared.issue thread requests =
      { shared with trace := (requests.map (Event.requested thread)).reverse ++ shared.trace } := by
  induction requests generalizing shared with
  | nil => rfl
  | cons request rest ih =>
      have later := ih (shared.record (.requested thread request))
      simpa [Shared.issue, Shared.record] using later

theorem Shared.issue_append (shared : Shared) (thread : Thread) (first later : List Request) :
    (shared.issue thread first).issue thread later = shared.issue thread (first ++ later) :=
  List.foldl_append.symm

-- what is recorded meanwhile changes neither the pool nor its generation
@[simp] theorem Shared.issue_generation (shared : Shared) (thread : Thread)
    (requests : List Request) :
    (shared.issue thread requests).generation = shared.generation := by
  rw [issue_eq]

@[simp] theorem Shared.issue_deref (shared : Shared) (thread : Thread) (requests : List Request)
    (pointer : Pointer) :
    (shared.issue thread requests).deref pointer = shared.deref pointer := by
  rw [issue_eq]
  rfl

section Steps

variable {config : Config} {parse : Parser} {thread : Thread} {state : State}
    {shared after : Shared} {call : Call}

theorem step_update {position next : Position} {action : Action}
    (acts : act config parse thread shared position action = some (next, after)) :
    step config parse (state.update thread position shared) (.step thread action) =
      some (state.update thread next after) := by
  simp [step, acts, State.update_update]

def visitSteps (thread : Thread) (clock : Int → Int) (entry : Int × VMObject) : List Label :=
  [.step thread .read, .step thread (.decide (clock entry.2.oid))]

theorem visit_run {clock : Int → Int} {entry : Int × VMObject} {later : List Pointer}
    {totals : Totals} (found : shared.deref ⟨shared.generation, entry.1⟩ = some entry.2) :
    Machine.run (step config parse)
        (state.update thread (.looping call (⟨shared.generation, entry.1⟩ :: later) totals) shared)
        (visitSteps thread clock entry) =
      some (state.update thread (.looping call later (call.count totals entry.2))
        (shared.issue thread (call.request config (clock entry.2.oid) entry.2).toList)) := by
  have reads : act config parse thread shared
    (.looping call (⟨shared.generation, entry.1⟩ :: later) totals) .read =
      some (.deciding call entry.2 later (call.count totals entry.2), shared) := by
    simp [act, found]
  have decides : act config parse thread shared
    (.deciding call entry.2 later (call.count totals entry.2))
      (.decide (clock entry.2.oid)) = some (.looping call later (call.count totals entry.2),
        shared.issue thread (call.request config (clock entry.2.oid) entry.2).toList) := by
    cases issued : call.request config (clock entry.2.oid) entry.2 <;> simp [act, issued,
      Shared.issue]
  rw [visitSteps, Machine.run_cons, step_update reads, Option.bind_some, Machine.run_cons,
    step_update decides]
  rfl

theorem loop_run {clock : Int → Int} (entries : List (Int × VMObject)) (totals : Totals)
    (found : ∀ entry ∈ entries, shared.deref ⟨shared.generation, entry.1⟩ = some entry.2) :
    Machine.run (step config parse)
        (state.update thread (.looping call (entries.map fun entry =>
          ⟨shared.generation, entry.1⟩) totals) shared)
        (entries.flatMap (visitSteps thread clock)) =
      some (state.update thread
        (.looping call [] ((entries.map Prod.snd).foldl (fun totals vm =>
          call.count totals vm) totals))
        (shared.issue thread ((entries.map Prod.snd).filterMap fun vm =>
          call.request config (clock vm.oid) vm))) := by
  induction entries generalizing shared totals with
  | nil => rfl
  | cons entry rest ih =>
      obtain ⟨here, others⟩ := List.forall_mem_cons.mp found
      have later := @ih (shared.issue thread
        (call.request config (clock entry.2.oid) entry.2).toList)
        (call.count totals entry.2) (by simpa using others)
      simp only [Shared.issue_generation, Shared.issue_append] at later
      rw [List.flatMap_cons, Machine.run_append, List.map_cons, visit_run here, Option.bind_some,
        later]
      cases issued : call.request config (clock entry.2.oid) entry.2 <;> simp [issued]

end Steps

section Call

variable {config : Config} {parse : Parser} {server : Server} {clock : Int → Int} {call : Call}
    {document : XmlNode}

def callSteps (thread : Thread) (server : Server) (clock : Int → Int) (pool : Objects) :
    List Label :=
  .step thread .acquire :: .step thread .flush :: .step thread (.fetch server) ::
    (pool.entries.flatMap (visitSteps thread clock) ++ [.step thread .release])

theorem call_run {state : State} {thread : Thread} {requests : List Request} {after : Totals}
    (entered : state.position thread = .entered call) (free : state.shared.mutex = none)
    (answers : Answers config parse server document)
    (ended : perform config parse server clock call .zero = .ok (0, requests, after)) :
    let pool := addObjects Map.empty (call.query.getNodes document)
    ∃ final, Machine.run (step config parse) state (callSteps thread server clock pool) =
      some final ∧
      final.position thread = .outside ∧ final.position thread.other = state.position thread.other ∧
      final.shared.mutex = none ∧
      final.shared.trace = .returned thread call 0 after ::
        ((requests.map (Event.requested thread)).reverse ++
        .fetched thread pool :: .flushed thread :: state.shared.trace) := by
  intro pool
  rw [perform_answered answers, bind_eq_ok] at ended
  obtain ⟨⟨issued, totals⟩, looped, returned⟩ := ended
  cases returned
  obtain ⟨_, rfl, rfl⟩ := loop_eq_ok.mp looped
  let locked := state.shared.lock thread
  let flushed := locked.flush.record (.flushed thread)
  let filled := { flushed with pool := pool }
  let fetched := filled.record (.fetched thread pool)
  have acquires : act config parse thread state.shared (.entered call) .acquire =
      some (.locked call, locked) := by
    simp [act, free, locked]
  have flushes : act config parse thread locked (.locked call) .flush =
      some (.flushed call, flushed) := rfl
  have fetches : act config parse thread flushed (.flushed call) (.fetch server) =
      some (.looping call (pool.entries.map fun entry =>
        ⟨fetched.generation, entry.1⟩) .zero, fetched) := by
    simp only [act, fetch, setUp_answered answers]
    simp [Shared.pointers, Map.keys, fetched, filled, Shared.record, pool]
  have found : ∀ entry ∈ pool.entries,
      fetched.deref ⟨fetched.generation, entry.1⟩ = some entry.2 := by
    intro entry member
    simpa [Shared.deref, fetched, filled, Shared.record] using
      (Map.find_eq_some_iff intOrder_total _ _ _).mpr member
  have loops := @loop_run config parse thread state fetched call clock pool.entries .zero found
  let issued := fetched.issue thread ((pool.entries.map Prod.snd).filterMap fun vm =>
    call.request config (clock vm.oid) vm)
  let totals := (pool.entries.map Prod.snd).foldl (fun totals vm => call.count totals vm) .zero
  have releases : act config parse thread issued (.looping call [] totals) .release =
      some (.outside, issued.unlock.record (.returned thread call 0 totals)) := rfl
  refine ⟨state.update thread .outside (issued.unlock.record (.returned thread call 0 totals)), ?_,
    ?_⟩
  · nth_rewrite 1 [← State.update_self entered]
    rw [callSteps, Machine.run_cons, step_update acquires, Option.bind_some, Machine.run_cons,
      step_update flushes,
      Option.bind_some, Machine.run_cons, step_update fetches, Option.bind_some, Machine.run_append,
        loops,
      Option.bind_some, Machine.run_cons, step_update releases]
    rfl
  · simp [Shared.record, Shared.unlock, issued, Shared.issue_eq, fetched, filled, flushed, locked,
      totals, Shared.lock, Shared.flush, pool]

end Call

end OneFass.Terminator
