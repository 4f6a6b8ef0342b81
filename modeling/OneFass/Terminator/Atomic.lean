import OneFass.Terminator.Calls

set_option autoImplicit false

namespace OneFass.Terminator

open Runtime Client Xml OrderedMap

def requestsOf (thread : Thread) : List Event → List Request
  | [] => []
  | .requested other request :: older =>
      if other = thread then requestsOf thread older ++ [request] else requestsOf thread older
  | .entered other _ :: older => if other = thread then [] else requestsOf thread older
  | _ :: older => requestsOf thread older

def snapshotOf (thread : Thread) : List Event → Option Objects
  | [] => none
  | .fetched other pool :: older => if other = thread then some pool else snapshotOf thread older
  | .entered other _ :: older => if other = thread then none else snapshotOf thread older
  | _ :: older => snapshotOf thread older

def callOf (thread : Thread) : List Event → Option Call
  | [] => none
  | .entered other call :: older => if other = thread then some call else callOf thread older
  | _ :: older => callOf thread older

def SameCall (thread : Thread) (after before : List Event) : Prop :=
  requestsOf thread after = requestsOf thread before ∧
    snapshotOf thread after = snapshotOf thread before ∧
    callOf thread after = callOf thread before

def Position.call : Position → Option Call
  | .entered call | .locked call | .flushed call | .looping call _ _ | .deciding call _ _ _ =>
      some call
  | .outside | .ended | .beforeWait | .waiting _ | .asleep => none

def Call.From (config : Config) : Thread → Call → Prop
  | .pm, call => call = .killPending (-1)
  | .tm, call => ∃ uid ttl, (uid, ttl) ∈ config.users ∧ call = .killRunning uid ttl

structure Call.Own (config : Config) (thread : Thread) (trace : List Event) (call : Call) :
    Prop where
  made : call.From config thread
  last : callOf thread trace = some call

def inRange (state : State) : Label → Bool
  | .step thread (.decide now) =>
      match state.position thread with
      | .deciding call vm _ _ => (span now vm call).all fun value => decide (fits64 value)
      | _ => true
  | _ => true

section Issued

variable {thread other : Thread}

theorem sameCall_other (different : other ≠ thread) (event : Event) (older : List Event)
    (by' : match event with
      | .entered by' _ | .requested by' _ | .fetched by' _ => by' = other
      | _ => True) : SameCall thread (event :: older) older := by
  cases event <;> simp_all [SameCall, requestsOf, snapshotOf, callOf]

variable {config : Config} {parse : Parser} {before after : Shared} {position next : Position}
    {action : Action}

theorem fetch_sameCall (different : other ≠ thread) (call : Call) (server : Server) :
    SameCall thread (fetch config parse other call server before).2.trace before.trace := by
  rcases @fetch_cases config parse other before call server with ⟨_, _, same⟩ | ⟨_, _, _, same⟩
    | ⟨_, _, same, _⟩ <;> rw [same]
  · exact ⟨rfl, rfl, rfl⟩
  · exact ⟨rfl, rfl, rfl⟩
  · exact sameCall_other different _ _ rfl

theorem act_sameCall (different : other ≠ thread)
    (acts : Acts config parse other before position action next after) :
    SameCall thread after.trace before.trace := by
  cases acts with
  | enterPending pm => exact sameCall_other different _ _ rfl
  | enterRunning tm uid ttl rest users => exact sameCall_other different _ _ rfl
  | request call vm vms totals now request issues => exact sameCall_other different _ _ rfl
  | fetch call server => exact fetch_sameCall different call server
  | flush | release | dangle => exact ⟨rfl, rfl, rfl⟩
  | acquire | read | spare | beginWait | acquireWait | sleep | wake | releaseWait =>
      exact ⟨rfl, rfl, rfl⟩

end Issued

section Progress

variable (config : Config) (parse : Parser) (thread : Thread)

/-- The machines that a call has seen and those that are left. -/
structure Looped (shared : Shared) (call : Call) (server : Server) (clock : Int → Int)
    (seen left : List (Int × VMObject)) (totals : Totals) : Prop where
  own : call.Own config thread shared.trace
  fetched : setUp parse server config.one_secret call.query Map.empty = (shared.pool, .ok 0)
  snapshot : snapshotOf thread shared.trace = some shared.pool
  split : shared.pool.entries = seen ++ left
  issued : requestsOf thread shared.trace =
    (seen.map Prod.snd).filterMap fun vm => call.request config (clock vm.oid) vm
  totals : totals = (seen.map Prod.snd).foldl (fun totals vm => call.count totals vm) .zero
  inside : ∀ vm ∈ seen.map Prod.snd, ∀ value, span (clock vm.oid) vm call = some value →
    fits64 value

def pointersTo (shared : Shared) (entries : List (Int × VMObject)) : List Pointer :=
  entries.map fun entry => ⟨shared.generation, entry.1⟩

def Progress (shared : Shared) : Position → Prop
  | .entered call | .locked call =>
      call.Own config thread shared.trace ∧ requestsOf thread shared.trace = []
  | .flushed call =>
      call.Own config thread shared.trace ∧ requestsOf thread shared.trace = [] ∧
        shared.pool = Map.empty
  | .looping call vms totals => ∃ server clock seen left, vms = pointersTo shared left ∧
      Looped config parse thread shared call server clock seen left totals
  | .deciding call vm vms totals =>
      ∃ server clock seen oid left before, vms = pointersTo shared left ∧
      Looped config parse thread shared call server clock seen ((oid, vm) :: left) before ∧
        totals = call.count before vm
  | _ => True

/--
The call, run on its own, makes these requests and returns these totals; a call that succeeds
has fetched the pool that its thread fetched last.
-/
def Performed (call : Call) (code : Int) (totals : Totals) (older : List Event) : Prop :=
  ∃ server clock, perform config parse server clock call .zero =
    .ok (code, requestsOf thread older, totals) ∧
    (code = 0 → ∃ pool, snapshotOf thread older = some pool ∧
      setUp parse server config.one_secret call.query Map.empty = (pool, .ok 0))

def Alone (call : Call) (code : Int) (totals : Totals) (older : List Event) : Prop :=
  call.Own config thread older ∧ Performed config parse thread call code totals older

variable {config} {parse} {thread}

theorem Call.Own.transport {before after : List Event} {call : Call}
    (own : call.Own config thread before) (same : SameCall thread after before) :
    call.Own config thread after :=
  ⟨own.made, same.2.2.trans own.last⟩

theorem Looped.transport {before after : Shared} {call : Call} {server : Server} {clock : Int → Int}
    {seen left : List (Int × VMObject)} {totals : Totals}
    (looped : Looped config parse thread before call server clock seen left totals)
    (pool : after.pool = before.pool) (same : SameCall thread after.trace before.trace) :
    Looped config parse thread after call server clock seen left totals where
  own := looped.own.transport same
  fetched := by rw [pool, looped.fetched]
  snapshot := by rw [pool, same.2.1, looped.snapshot]
  split := by rw [pool, looped.split]
  issued := same.1.trans looped.issued
  totals := looped.totals
  inside := looped.inside

theorem Progress.transport {before after : Shared} {position : Position}
    (progress : Progress config parse thread before position)
    (same : SameCall thread after.trace before.trace)
    (kept : position.holds = true → after.pool = before.pool ∧
      after.generation = before.generation) :
    Progress config parse thread after position := by
  cases position with
  | entered call => exact ⟨progress.1.transport same, same.1.trans progress.2⟩
  | locked call => exact ⟨progress.1.transport same, same.1.trans progress.2⟩
  | flushed call =>
      exact ⟨progress.1.transport same, same.1.trans progress.2.1, (kept rfl).1.trans progress.2.2⟩
  | looping call vms totals =>
      obtain ⟨server, clock, seen, left, rfl, looped⟩ := progress
      refine ⟨server, clock, seen, left, ?_, looped.transport (kept rfl).1 same⟩
      rw [pointersTo, pointersTo, (kept rfl).2]
  | deciding call vm vms totals =>
      obtain ⟨server, clock, seen, oid, left, counted, rfl, looped, rfl⟩ := progress
      refine ⟨server, clock, seen, oid, left, counted, ?_, looped.transport (kept rfl).1 same, rfl⟩
      rw [pointersTo, pointersTo, (kept rfl).2]
  | outside | ended | beforeWait | waiting | asleep => trivial

theorem Looped.start {shared : Shared} {call : Call} {server : Server} {pool : Objects}
    (own : call.Own config thread shared.trace) (nothing : requestsOf thread shared.trace = [])
    (fetched : setUp parse server config.one_secret call.query Map.empty = (pool, .ok 0))
    (held : shared.pool = pool) (snapshot : snapshotOf thread shared.trace = some pool) :
    Looped config parse thread shared call server (fun _ => 0) [] shared.pool.entries .zero where
  own := own
  fetched := by rw [held, fetched]
  snapshot := by rw [held, snapshot]
  split := rfl
  issued := nothing
  totals := rfl
  inside := by simp

-- the clock that is read for the next machine was not read for an earlier one
theorem Looped.advance {shared after : Shared} {call : Call} {server : Server} {clock : Int → Int}
    {seen left : List (Int × VMObject)} {oid now : Int} {vm : VMObject} {totals : Totals}
    (built : Built shared.pool)
    (looped : Looped config parse thread shared call server clock seen ((oid, vm) :: left) totals)
    (ranged : ∀ value, span now vm call = some value → fits64 value)
    (pool : after.pool = shared.pool)
    (snapshot : snapshotOf thread after.trace = snapshotOf thread shared.trace)
    (called : callOf thread after.trace = callOf thread shared.trace)
    (issues : requestsOf thread after.trace =
      requestsOf thread shared.trace ++ (call.request config now vm).toList) :
    Looped config parse thread after call server (Function.update clock vm.oid now)
    (seen ++ [(oid, vm)]) left
      (call.count totals vm) := by
  have apart : ∀ other ∈ seen.map Prod.snd, other.oid ≠ vm.oid := by
    intro other member same
    obtain ⟨entry, earlier, rfl⟩ := List.mem_map.mp member
    have sorted := shared.pool.sorted
    rw [looped.split, List.pairwise_append] at sorted
    have before : intOrder.lt entry.1 oid = true :=
      sorted.2.2 entry earlier (oid, vm) List.mem_cons_self
    have first : entry.1 = entry.2.oid :=
      built.keyed entry (by rw [looped.split]; exact List.mem_append_left _ earlier)
    have second : oid = vm.oid := built.keyed (oid, vm)
      (by rw [looped.split]; exact List.mem_append_right _ List.mem_cons_self)
    rw [first, second, same, intOrder.irrefl] at before
    cases before
  have clocked : ∀ other ∈ seen.map Prod.snd,
    Function.update clock vm.oid now other.oid = clock other.oid :=
    fun other member => Function.update_of_ne (apart other member) _ _
  refine ⟨⟨looped.own.made, called.trans looped.own.last⟩, by rw [pool, looped.fetched],
    by rw [pool, snapshot, looped.snapshot],
    by rw [pool, looped.split, List.append_assoc]; rfl, ?_, ?_, ?_⟩
  · rw [issues, looped.issued, List.map_append, List.filterMap_append]
    congr 1
    · exact List.filterMap_congr fun other member => by rw [clocked other member]
    · simp only [List.map_cons, List.map_nil, List.filterMap_cons, Function.update_self,
        List.filterMap_nil]
      cases call.request config now vm <;> rfl
  · rw [looped.totals, List.map_append, List.foldl_append]
    rfl
  · intro other member value computed
    rw [List.map_append, List.mem_append] at member
    rcases member with earlier | last
    · rw [clocked other earlier] at computed
      exact looped.inside other earlier value computed
    · rw [List.map_singleton, List.mem_singleton] at last
      subst last
      rw [Function.update_self] at computed
      exact ranged value computed

theorem Looped.performs {shared : Shared} {call : Call} {server : Server} {clock : Int → Int}
    {seen : List (Int × VMObject)} {totals : Totals}
    (looped : Looped config parse thread shared call server clock seen [] totals) :
    perform config parse server clock call .zero =
      .ok (0, requestsOf thread shared.trace, totals) := by
  have all := looped.split
  rw [List.append_nil] at all
  have ends : loop config clock call (shared.pool.entries.map Prod.snd) .zero =
      .ok (requestsOf thread shared.trace, totals) := by
    rw [loop_eq_ok, all]
    exact ⟨looped.inside, looped.issued, looped.totals⟩
  simp only [perform, looped.fetched, ne_eq, not_true_eq_false, ↓reduceIte, ends]
  rfl

theorem Looped.performed {shared : Shared} {call : Call} {server : Server} {clock : Int → Int}
    {seen : List (Int × VMObject)} {totals : Totals}
    (looped : Looped config parse thread shared call server clock seen [] totals) :
    Performed config parse thread call 0 totals shared.trace :=
  ⟨server, clock, looped.performs, fun _ => ⟨_, looped.snapshot, looped.fetched⟩⟩

end Progress

section Steps

variable (config : Config) (parse : Parser)

def Atomic : List Event → Prop
  | [] => True
  | .returned thread call code totals :: older =>
      Alone config parse thread call code totals older ∧ Atomic older
  | _ :: older => Atomic older

variable {config} {parse} {thread : Thread} {before after : Shared} {position next : Position}
    {action : Action}

theorem Atomic.alone {trace later older : List Event} {call : Call} {code : Int} {totals : Totals}
    (atomic : Atomic config parse trace)
    (split : trace = later ++ .returned thread call code totals :: older) :
    Alone config parse thread call code totals older := by
  induction later generalizing trace with
  | nil =>
      rw [split] at atomic
      exact atomic.1
  | cons newest rest ih =>
      rw [split] at atomic
      have earlier : Atomic config parse (rest ++ .returned thread call code totals :: older) := by
        cases newest with
        | returned => exact atomic.2
        | entered | flushed | fetched | requested | dangling => exact atomic
      exact ih earlier rfl

theorem fetch_progress {call : Call} {server : Server} (own : call.Own config thread before.trace)
    (nothing : requestsOf thread before.trace = []) (flushed : before.pool = Map.empty)
    (atomic : Atomic config parse before.trace) :
    Progress config parse thread (fetch config parse thread call server before).2
        (fetch config parse thread call server before).1 ∧
      Atomic config parse (fetch config parse thread call server before).2.trace := by
  simp only [fetch, flushed]
  rcases answer : setUp parse server config.one_secret call.query Map.empty with ⟨pool, fault | rc⟩
  · exact ⟨trivial, atomic⟩
  · by_cases failed : rc = 0
    · subst failed
      simp only [ne_eq, not_true_eq_false, ↓reduceIte]
      have still : call.Own config thread (.fetched thread pool :: before.trace) :=
        ⟨own.made, own.last⟩
      refine ⟨⟨server, fun _ => 0, [], pool.entries, ?_, Looped.start still nothing answer rfl ?_⟩,
        atomic⟩
      · simp [Shared.pointers, Map.keys, pointersTo, Shared.record]
      · simp [Shared.record, snapshotOf]
    · simp only [ne_eq, failed, not_false_eq_true, ↓reduceIte]
      refine ⟨trivial, ⟨own, server, fun _ => 0, ?_, fun zero => absurd zero failed⟩, atomic⟩
      simp only [perform, answer, ne_eq, failed, not_false_eq_true, ↓reduceIte, nothing]

theorem act_progress (secured : position.Secured thread before)
    (users : ∀ user ∈ before.users, user ∈ config.users)
    (ranged : ∀ call vm vms totals now, position = .deciding call vm vms totals →
      action = .decide now → ∀ value, span now vm call = some value → fits64 value)
    (progress : Progress config parse thread before position)
    (atomic : Atomic config parse before.trace)
    (acts : Acts config parse thread before position action next after) :
    Progress config parse thread after next ∧ Atomic config parse after.trace := by
  cases acts with
  | enterPending pm =>
      subst pm
      exact ⟨⟨⟨rfl, if_pos rfl⟩, rfl⟩, atomic⟩
  | enterRunning tm uid ttl rest listed =>
      subst tm
      exact ⟨⟨⟨⟨uid, ttl, users _ (by rw [listed]; exact List.mem_cons_self), rfl⟩, if_pos rfl⟩,
        rfl⟩, atomic⟩
  | acquire call free => exact ⟨progress, atomic⟩
  | flush call => exact ⟨⟨⟨progress.1.made, progress.1.last⟩, progress.2, rfl⟩, atomic⟩
  | fetch call server => exact fetch_progress progress.1 progress.2.1 progress.2.2 atomic
  | read call pointer vms totals vm found =>
      obtain ⟨server, clock, seen, left, pointers, looped⟩ := progress
      refine ⟨?_, atomic⟩
      cases left with
      | nil => cases pointers
      | cons entry left =>
          obtain ⟨rfl, rfl⟩ := List.cons.inj pointers
          have stored : before.pool.find entry.1 = some entry.2 := by
            rw [Map.find_eq_some_iff intOrder_total, looped.split]
            exact List.mem_append_right _ List.mem_cons_self
          simp only [Shared.deref, ↓reduceIte, stored, Option.some.injEq] at found
          subst found
          exact ⟨server, clock, seen, entry.1, left, totals, rfl, looped, rfl⟩
  | dangle call pointer vms totals lost => exact ⟨trivial, atomic⟩
  | request call vm vms totals now request issues =>
      obtain ⟨server, clock, seen, oid, left, counted, rfl, looped, rfl⟩ := progress
      refine ⟨⟨server, _, _, left, rfl,
        looped.advance secured.1.built (ranged _ _ _ _ _ rfl rfl) rfl ?_ ?_ ?_⟩, atomic⟩
      · rfl
      · rfl
      · simp [Shared.record, requestsOf, issues]
  | spare call vm vms totals now nothing =>
      obtain ⟨server, clock, seen, oid, left, counted, rfl, looped, rfl⟩ := progress
      refine ⟨⟨server, _, _, left, rfl,
        looped.advance secured.1.built (ranged _ _ _ _ _ rfl rfl) rfl ?_ ?_ ?_⟩, atomic⟩
      · rfl
      · rfl
      · simp [nothing]
  | release call totals =>
      obtain ⟨server, clock, seen, left, pointers, looped⟩ := progress
      cases left with
      | nil => exact ⟨trivial, ⟨looped.own, looped.performed⟩, atomic⟩
      | cons entry left => cases pointers
  | beginWait | acquireWait | sleep | wake | releaseWait => exact ⟨trivial, atomic⟩

theorem act_users (users : ∀ user ∈ before.users, user ∈ config.users)
    (acts : Acts config parse thread before position action next after) :
    ∀ user ∈ after.users, user ∈ config.users := by
  cases acts with
  | enterRunning tm uid ttl rest listed =>
      intro user member
      exact users user (by rw [listed]; exact List.mem_cons_of_mem _ member)
  | fetch call server =>
      rcases @fetch_cases config parse thread before call server with ⟨_, _, same⟩ | ⟨_, _, _, same⟩
        | ⟨_, _, same, _⟩ <;>
        rw [same] <;> exact users
  | releaseWait => exact fun user member => member
  | enterPending | acquire | flush | read | dangle | request | spare | release => exact users
  | beginWait | acquireWait | sleep | wake => exact users

structure Serialized (config : Config) (parse : Parser) (state : State) : Prop where
  base : Invariant state
  users : ∀ user ∈ state.shared.users, user ∈ config.users
  progress : ∀ thread, Progress config parse thread state.shared (state.position thread)
  atomic : Atomic config parse state.shared.trace

theorem serialized_initial : Serialized config parse initial where
  base := invariant_initial
  users := by simp [initial]
  progress := by
    intro thread
    cases thread <;> trivial
  atomic := trivial

theorem other_ne (thread : Thread) : thread ≠ thread.other := by
  cases thread <;> simp [Thread.other]

theorem serialized_step (state : State) (label : Label) (next : State)
    (ranged : inRange state label = true) (serialized : Serialized config parse state)
    (taken : step config parse state label = some next) :
    Serialized config parse next := by
  have base := invariant_step config parse state label next serialized.base taken
  cases label with
  | finalize =>
      obtain ⟨_, rfl⟩ := step_finalize config parse taken
      refine ⟨base, serialized.users, fun thread => ?_, serialized.atomic⟩
      have moved : Progress config parse thread { state.shared with stop_manager := true }
        (state.position thread) :=
        (serialized.progress thread).transport ⟨rfl, rfl, rfl⟩ fun _ => ⟨rfl, rfl⟩
      cases thread <;> exact moved
  | step thread action =>
      obtain ⟨position, shared, acted, rfl⟩ := step_thread config parse taken
      have acts := acts_of_act acted
      obtain ⟨progress, atomic⟩ := act_progress (serialized.base.secured thread) serialized.users
        (by
          rintro call vm vms totals now here rfl value computed
          simpa [inRange, here, computed] using ranged)
            (serialized.progress thread) serialized.atomic acts
      refine ⟨base, by simpa using act_users serialized.users acts, fun any => ?_,
        by simpa using atomic⟩
      rcases thread.cases_other any with rfl | rfl
      · simpa using progress
      · simp only [State.update_other, State.update_shared]
        refine (serialized.progress _).transport
          (act_sameCall (other_ne thread) acts) fun holding => ?_
        have quiet := act_undisturbed (serialized.base.owner thread)
          (serialized.base.owner _ holding) acts
        exact ⟨quiet.pool, quiet.generation⟩

/-- A call that has returned did what a run of it alone does. -/
theorem calls_are_atomic (config : Config) (parse : Parser) (labels : List Label) (state : State)
    (ranged : Machine.Along (step config parse) (fun state label =>
      inRange state label = true) initial labels)
    (reached : Machine.run (step config parse) initial labels = some state) (thread : Thread)
    (call : Call) (code : Int) (totals : Totals) (later older : List Event)
    (returned : state.shared.trace = later ++ .returned thread call code totals :: older) :
    call.Own config thread older ∧ Performed config parse thread call code totals older :=
  (Machine.run_invariant (Serialized config parse) serialized_step serialized_initial ranged
    reached).atomic.alone returned

def Event.result : Event → Option (Thread × Call × Int × Totals)
  | .returned thread call code totals => some (thread, call, code, totals)
  | _ => none

theorem event_of_result {event : Event} {thread : Thread} {call : Call} {code : Int}
    {totals : Totals} (returns : event.result = some (thread, call, code, totals)) :
    event = .returned thread call code totals := by
  cases event with
  | returned =>
      simp only [Event.result, Option.some.injEq, Prod.mk.injEq] at returns
      obtain ⟨rfl, rfl, rfl, rfl⟩ := returns
      rfl
  | entered | flushed | fetched | requested | dangling => cases returns

def interleavedCleanup : List Label :=
  [.step .tm .beginWait, .step .tm .acquire, .step .pm .enter, .step .tm .sleep] ++ cleanupRun.tail

theorem calls_are_atomic_cleanup :
    let config : Config := ⟨[], [], 60, kill⟩
    let parse : Parser := knowing waitingPool
    ∃ state older, Machine.run (step config parse) initial interleavedCleanup = some state ∧
      state.shared.trace = .returned .pm (.killPending (-1)) 0 .zero :: older ∧
      Call.Own config .pm older (.killPending (-1)) ∧
      Performed config parse .pm (.killPending (-1)) 0 .zero older := by
  intro config parse
  have runs : (Machine.run (step config parse) initial interleavedCleanup).isSome = true := by
    decide +kernel
  obtain ⟨state, reached⟩ := Option.isSome_iff_exists.mp runs
  have returns : (Machine.run (step config parse) initial interleavedCleanup).map
      (fun state => state.shared.trace.head?.bind Event.result) =
        some (some (.pm, .killPending (-1), 0, .zero)) := by decide +kernel
  rw [reached, Option.map_some, Option.some.injEq] at returns
  obtain ⟨newest, first, result⟩ := Option.bind_eq_some_iff.mp returns
  obtain ⟨older, split⟩ := List.head?_eq_some_iff.mp first
  rw [event_of_result result] at split
  have ranged := Machine.along_of_checks (by decide +kernel :
    Machine.checks (step config parse) inRange initial interleavedCleanup = true)
  exact ⟨state, older, reached, split,
    calls_are_atomic config parse _ state ranged reached .pm
      (.killPending (-1)) 0 .zero [] older split⟩

end Steps

end OneFass.Terminator
