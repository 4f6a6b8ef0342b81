import OneFass.Terminator.Threads

set_option autoImplicit false

namespace OneFass.Terminator

open Runtime Client Xml OrderedMap

def Position.holds : Position → Bool
  | .locked _ | .flushed _ | .looping _ _ _ | .deciding _ _ _ _ | .waiting _ => true
  | .outside | .entered _ | .ended | .beforeWait | .asleep => false

def ReadsZero (node : XmlNode) : Prop :=
  ∃ content rest, xpaths [.vm, .userTemplate, .staticVm] node = content :: rest ∧
    readInt content = some 0

theorem readsZero_of_static (node : XmlNode) (dynamic : (VMObject.ofNode node).static_vm = 0) :
    ReadsZero node := by
  simp only [VMObject.ofNode, xpath] at dynamic
  split at dynamic
  next => simp at dynamic
  next content rest selected =>
    refine ⟨content, rest, selected, ?_⟩
    cases value : readInt content with
    | none => simp [value] at dynamic
    | some zero => simpa [value] using dynamic

def Spares (snapshot : Objects) (request : Request) : Prop :=
  (∃ vm, snapshot.find request.oid = some vm) ∧
    ∀ entry ∈ snapshot.entries, entry.2.oid = request.oid → ReadsZero entry.2.xml

theorem spares_of_find {snapshot : Objects} (built : Built snapshot) {vm : VMObject}
    {request : Request} (found : snapshot.find vm.oid = some vm) (about : request.oid = vm.oid)
    (dynamic : vm.static_vm = 0) :
    Spares snapshot request := by
  constructor
  · exact ⟨vm, by rw [about, found]⟩
  · intro entry member same
    have other := built.keyed.find member
    rw [same, about, found] at other
    obtain ⟨node, rfl⟩ := built entry member
    rw [Option.some.inj other] at dynamic
    exact readsZero_of_static node dynamic

section Trace

def Event.keepsPool (thread : Thread) : Event → Bool
  | .entered other _ => decide (other ≠ thread)
  | .returned other _ _ _ => decide (other ≠ thread)
  | .flushed _ => false
  | .fetched _ _ => false
  | .requested _ _ => true
  | .dangling _ => true

/-- The thread's present call fetched the snapshot, and the pool has not been touched since. -/
def Current (thread : Thread) (snapshot : Objects) (trace : List Event) : Prop :=
  ∃ between older, trace = between ++ .fetched thread snapshot :: older ∧
    ∀ event ∈ between, event.keepsPool thread = true

theorem Current.start (thread : Thread) (snapshot : Objects) (older : List Event) :
    Current thread snapshot (.fetched thread snapshot :: older) :=
  ⟨[], older, rfl, by simp⟩

theorem Current.later {thread : Thread} {snapshot : Objects} {trace : List Event}
    (events : List Event) (current : Current thread snapshot trace)
    (keeps : ∀ event ∈ events, event.keepsPool thread = true) :
    Current thread snapshot (events ++ trace) := by
  obtain ⟨between, older, rfl, quiet⟩ := current
  refine ⟨events ++ between, older, by simp, ?_⟩
  intro event member
  rcases List.mem_append.mp member with new | old
  · exact keeps event new
  · exact quiet event old

def Event.Justified (older : List Event) : Event → Prop
  | .requested thread request => ∃ snapshot, Current thread snapshot older ∧ Spares snapshot request
  | .dangling _ => False
  | _ => True

def Justified : List Event → Prop
  | [] => True
  | event :: older => event.Justified older ∧ Justified older

theorem Justified.split {trace later older : List Event} {event : Event}
    (justified : Justified trace) (split : trace = later ++ event :: older) :
    event.Justified older := by
  induction later generalizing trace with
  | nil =>
      rw [split] at justified
      exact justified.1
  | cons newest rest ih =>
      rw [split] at justified
      exact ih justified.2 rfl

end Trace

structure Secured (thread : Thread) (shared : Shared) (vms : List Pointer) : Prop where
  built : Built shared.pool
  current : Current thread shared.pool shared.trace
  pointers : ∀ pointer ∈ vms, pointer.generation = shared.generation ∧
    pointer.oid ∈ shared.pool.keys

def Position.Secured (thread : Thread) (shared : Shared) : Position → Prop
  | .looping _ vms _ => Terminator.Secured thread shared vms
  | .deciding _ vm vms _ => Terminator.Secured thread shared vms ∧ shared.pool.find vm.oid = some vm
  | _ => True

structure Undisturbed (thread : Thread) (before after : Shared) : Prop where
  mutex : after.mutex = before.mutex
  pool : after.pool = before.pool
  generation : after.generation = before.generation
  trace : ∃ events, after.trace = events ++ before.trace ∧
    ∀ event ∈ events, event.keepsPool thread = true

theorem Secured.undisturbed {thread : Thread} {before after : Shared} {vms : List Pointer}
    (secured : Secured thread before vms) (quiet : Undisturbed thread before after) :
    Secured thread after vms := by
  obtain ⟨events, extended, keeps⟩ := quiet.trace
  constructor
  · rw [quiet.pool]
    exact secured.built
  · rw [quiet.pool, extended]
    exact secured.current.later events keeps
  · rw [quiet.pool, quiet.generation]
    exact secured.pointers

theorem Position.Secured.undisturbed {thread : Thread} {before after : Shared} {position : Position}
    (secured : position.Secured thread before) (quiet : Undisturbed thread before after) :
    position.Secured thread after := by
  cases position with
  | looping call vms totals => exact Terminator.Secured.undisturbed secured quiet
  | deciding call vm vms totals =>
      refine ⟨Terminator.Secured.undisturbed secured.1 quiet, ?_⟩
      rw [quiet.pool]
      exact secured.2
  | _ => trivial

theorem Secured.record {thread : Thread} {shared : Shared} {vms : List Pointer} {event : Event}
    (secured : Secured thread shared vms) (keeps : event.keepsPool thread = true) :
    Secured thread (shared.record event) vms := by
  refine secured.undisturbed ⟨rfl, rfl, rfl, [event], rfl, ?_⟩
  simpa using keeps

theorem Secured.deref {thread : Thread} {shared : Shared} {pointer : Pointer} {vms : List Pointer}
    (secured : Secured thread shared (pointer :: vms)) :
    ∃ vm, shared.deref pointer = some vm ∧ shared.pool.find vm.oid = some vm := by
  obtain ⟨same, inside⟩ := secured.pointers pointer List.mem_cons_self
  obtain ⟨vm, found⟩ := Option.isSome_iff_exists.mp
    ((Map.find_isSome_iff intOrder_total _ _).mpr inside)
  refine ⟨vm, by simp [Shared.deref, same, found], ?_⟩
  exact secured.built.keyed.find ((Map.find_eq_some_iff intOrder_total _ _ _).mp found)

theorem Secured.tail {thread : Thread} {shared : Shared} {pointer : Pointer} {vms : List Pointer}
    (secured : Secured thread shared (pointer :: vms)) : Secured thread shared vms :=
  ⟨secured.built, secured.current, fun later member =>
    secured.pointers later (List.mem_cons_of_mem _ member)⟩

section Act

variable {config : Config} {parse : Parser} {thread : Thread} {before after : Shared}
  {position next : Position} {action : Action}

theorem fetch_cases (call : Call) (server : Server) :
    ((fetch config parse thread call server before).1 = .ended ∧
        ∃ pool, (fetch config parse thread call server before).2 = { before with pool := pool }) ∨
      ((fetch config parse thread call server before).1 = .outside ∧
        ∃ pool rc, (fetch config parse thread call server before).2 =
          { before with pool := pool }.record (.returned thread call rc .zero)) ∨
      ∃ pool, Built pool ∧ (fetch config parse thread call server before).2 =
          { before with pool := pool }.record (.fetched thread pool) ∧
        (fetch config parse thread call server before).1 =
          .looping call { before with pool := pool }.pointers .zero := by
  have built := built_setUp parse server config.one_secret call.query before.pool
  simp only [fetch]
  split
  next => exact Or.inl ⟨rfl, _, rfl⟩
  next rc finished =>
    split_ifs
    · exact Or.inr (Or.inl ⟨rfl, _, rc, rfl⟩)
    · exact Or.inr (Or.inr ⟨_, built, rfl, rfl⟩)

theorem secured_pointers {pool : Objects} (built : Built pool) :
    Secured thread ({ before with pool := pool }.record (.fetched thread pool))
      { before with pool := pool }.pointers := by
  refine ⟨built, Current.start thread pool before.trace, ?_⟩
  intro pointer member
  obtain ⟨oid, inside, rfl⟩ := List.mem_map.mp member
  exact ⟨rfl, inside⟩

theorem act_secured (owner : position.holds = true → before.mutex = some thread)
    (secured : position.Secured thread before) (justified : Justified before.trace)
    (acts : Acts config parse thread before position action next after) :
    (next.holds = true → after.mutex = some thread) ∧ next.Secured thread after ∧
    Justified after.trace := by
  cases acts with
  | enterPending pm => exact ⟨nofun, trivial, trivial, justified⟩
  | enterRunning tm uid ttl rest users => exact ⟨nofun, trivial, trivial, justified⟩
  | acquire call free => exact ⟨fun _ => rfl, trivial, justified⟩
  | flush call => exact ⟨fun _ => owner rfl, trivial, trivial, justified⟩
  | fetch call server =>
      have held := owner rfl
      have cases := @fetch_cases config parse thread before call server
      rcases cases with ⟨left, pool, unrecorded⟩ | ⟨left, pool, rc, returned⟩
        | ⟨pool, built, fetched, entered⟩
      · rw [left, unrecorded]
        exact ⟨nofun, trivial, justified⟩
      · rw [left, returned]
        exact ⟨nofun, trivial, trivial, justified⟩
      · rw [entered, fetched]
        exact ⟨fun _ => held, secured_pointers built, trivial, justified⟩
  | read call pointer vms totals vm found =>
      obtain ⟨same, again, stored⟩ := Terminator.Secured.deref secured
      cases Option.some.inj (again.symm.trans found)
      exact ⟨fun _ => owner rfl, ⟨Terminator.Secured.tail secured, stored⟩, justified⟩
  | dangle call pointer vms totals lost =>
      obtain ⟨vm, found, _⟩ := Terminator.Secured.deref secured
      rw [lost] at found
      cases found
  | request call vm vms totals now request issued =>
      obtain ⟨about, dynamic⟩ := Call.request_eq_some issued
      have spared := spares_of_find secured.1.built secured.2 about dynamic
      exact ⟨fun _ => owner rfl, secured.1.record rfl, ⟨before.pool, secured.1.current, spared⟩,
        justified⟩
  | spare call vm vms totals now nothing => exact ⟨fun _ => owner rfl, secured.1, justified⟩
  | release call totals => exact ⟨nofun, trivial, trivial, justified⟩
  | beginWait tm users running => exact ⟨nofun, trivial, justified⟩
  | acquireWait free => exact ⟨fun _ => rfl, trivial, justified⟩
  | sleep running => exact ⟨nofun, trivial, justified⟩
  | wake timedOut free => exact ⟨fun _ => rfl, trivial, justified⟩
  | releaseWait timedOut ended => exact ⟨nofun, trivial, justified⟩

theorem act_undisturbed (owner : position.holds = true → before.mutex = some thread)
    (owned : before.mutex = some thread.other)
    (acts : Acts config parse thread before position action next after) :
    Undisturbed thread.other before after := by
  have foreign : before.mutex ≠ some thread := by
    cases thread <;> simp [owned, Thread.other]
  have entering (call : Call) : (Event.entered thread call).keepsPool thread.other = true := by
    cases thread <;> rfl
  cases acts with
  | enterPending pm => exact ⟨rfl, rfl, rfl, [.entered thread _], rfl, by simpa using entering _⟩
  | enterRunning tm uid ttl rest users =>
      exact ⟨rfl, rfl, rfl, [.entered thread _], rfl, by simpa using entering _⟩
  | beginWait tm users running => exact ⟨rfl, rfl, rfl, [], rfl, by simp⟩
  | acquire call free => simp [owned] at free
  | acquireWait free => simp [owned] at free
  | wake timedOut free => simp [owned] at free
  | _ => exact absurd (owner rfl) foreign

end Act

structure Invariant (state : State) : Prop where
  owner : ∀ thread, (state.position thread).holds = true → state.shared.mutex = some thread
  secured : ∀ thread, (state.position thread).Secured thread state.shared
  justified : Justified state.shared.trace

theorem invariant_initial : Invariant initial := by
  constructor
  · intro thread
    cases thread <;> simp [initial, State.position, Position.holds]
  · intro thread
    cases thread <;> trivial
  · trivial

theorem Thread.cases_other (thread other : Thread) : other = thread ∨ other = thread.other := by
  cases thread <;> cases other <;> simp [Thread.other]

theorem invariant_step (config : Config) (parse : Parser) (state : State) (label : Label)
    (next : State) (invariant : Invariant state)
    (taken : step config parse state label = some next) : Invariant next := by
  cases label with
  | finalize =>
      obtain ⟨_, rfl⟩ := step_finalize config parse taken
      constructor
      · intro thread
        have owner := invariant.owner thread
        cases thread <;> exact owner
      · intro thread
        have secured := invariant.secured thread
        have quiet : Undisturbed thread state.shared { state.shared with stop_manager := true } :=
          ⟨rfl, rfl, rfl, [], rfl, by simp⟩
        cases thread <;> exact secured.undisturbed quiet
      · exact invariant.justified
  | step thread action =>
      obtain ⟨position, shared, acted, rfl⟩ := step_thread config parse taken
      have owner := invariant.owner thread
      obtain ⟨held, secured, justified⟩ :=
        act_secured owner (invariant.secured thread) invariant.justified (acts_of_act acted)
      have others : (state.position thread.other).holds = true →
          Undisturbed thread.other state.shared shared :=
        fun holding => act_undisturbed owner (invariant.owner _ holding) (acts_of_act acted)
      constructor
      · intro any
        rcases thread.cases_other any with rfl | rfl
        · simpa using held
        · simp only [State.update_other, State.update_shared]
          intro holding
          rw [(others holding).mutex]
          exact invariant.owner _ holding
      · intro any
        rcases thread.cases_other any with rfl | rfl
        · simpa using secured
        · simp only [State.update_other, State.update_shared]
          cases holding : (state.position thread.other).holds with
          | true => exact (invariant.secured _).undisturbed (others holding)
          | false =>
              -- outside the locked region a thread relies on nothing
              cases place : state.position thread.other <;> simp_all [Position.holds,
                Position.Secured]
      · simpa using justified

theorem invariant_reachable (config : Config) (parse : Parser) {labels : List Label} {state : State}
    (reached : Machine.run (step config parse) initial labels = some state) : Invariant state :=
  Machine.run_preserves Invariant (invariant_step config parse) invariant_initial reached

theorem requests_spare_static_machines (config : Config) (parse : Parser) (labels : List Label)
    (state : State) (reached : Machine.run (step config parse) initial labels = some state) :
    (∀ later thread request older, state.shared.trace =
      later ++ .requested thread request :: older →
        ∃ snapshot, Current thread snapshot older ∧ Spares snapshot request) ∧
      ∀ later thread older, state.shared.trace ≠ later ++ .dangling thread :: older := by
  have justified := (invariant_reachable config parse reached).justified
  constructor
  · intro later thread request older split
    exact justified.split split
  · intro later thread older split
    exact justified.split split

def Event.request : Event → Option (Thread × Request)
  | .requested thread request => some (thread, request)
  | _ => none

theorem mem_of_request {trace : List Event} {thread : Thread} {request : Request}
    (member : (thread, request) ∈ trace.filterMap Event.request) :
    ∃ later older, trace = later ++ .requested thread request :: older := by
  obtain ⟨event, inside, found⟩ := List.mem_filterMap.mp member
  cases event with
  | requested own issued =>
      simp only [Event.request, Option.some.injEq, Prod.mk.injEq] at found
      obtain ⟨rfl, rfl⟩ := found
      exact List.append_of_mem inside
  | _ => simp [Event.request] at found

def waitingMachine : XmlNode :=
  .element .vm []
    (.element .id [] (.text "7".toList .null) <| .element .state [] (.text "1".toList .null) <|
      .element .userTemplate [] (.element .staticVm [] (.text "0".toList .null) .null) .null) .null

def waitingPool : XmlNode := .element .vmPool [] waitingMachine .null

def cleanupRun : List Label :=
  [.enter, .acquire, .flush, .fetch (answering waitingPool), .read, .decide 100, .release].map
    (.step .pm)

theorem cleanupRun_spares_static_machines :
    let config : Config := ⟨[], [], 60, kill⟩
    let parse : Parser := knowing waitingPool
    ∃ state, Machine.run (step config parse) initial cleanupRun = some state ∧
      ∃ later older, state.shared.trace = later ++ .requested .pm (.terminate 7) :: older ∧
        ∃ snapshot, Current .pm snapshot older ∧ Spares snapshot (.terminate 7) := by
  intro config parse
  have requested : (Machine.run (step config parse) initial cleanupRun).map
      (fun state => state.shared.trace.filterMap Event.request) = some [(.pm, .terminate 7)] := by
    decide +kernel
  obtain ⟨state, reached, listed⟩ := Option.map_eq_some_iff.mp requested
  obtain ⟨later, older, split⟩ := mem_of_request (by rw [listed]; exact List.mem_cons_self)
  refine ⟨state, reached, later, older, split, ?_⟩
  exact (requests_spare_static_machines config parse cleanupRun state reached).1 _ _ _ _ split

end OneFass.Terminator
