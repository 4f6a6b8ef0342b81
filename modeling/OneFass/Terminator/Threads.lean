import OneFass.Shared.Machine
import OneFass.Terminator.Kill

set_option autoImplicit false

namespace OneFass.Terminator

open Runtime Client Xml OrderedMap

inductive Thread where
  | pm
  | tm
  deriving DecidableEq

def Thread.other : Thread → Thread
  | pm => tm
  | tm => pm

structure Pointer where
  generation : Nat
  oid : Int

inductive Position where
  | outside
  | entered (call : Call)
  | locked (call : Call)
  | flushed (call : Call)
  | looping (call : Call) (vms : List Pointer) (totals : Totals)
  | deciding (call : Call) (vm : VMObject) (vms : List Pointer) (totals : Totals)
  -- left by an exception, which nothing catches
  | ended
  | beforeWait
  | waiting (timedOut : Bool)
  | asleep

inductive Action where
  | enter
  | acquire
  | flush
  | fetch (server : Server)
  | read
  | decide (now : Int)
  | release
  | beginWait
  | sleep
  | wake (timedOut : Bool)

inductive Event where
  | entered (thread : Thread) (call : Call)
  | flushed (thread : Thread)
  | fetched (thread : Thread) (snapshot : Objects)
  | requested (thread : Thread) (request : Request)
  -- a pointer to a deleted object was followed
  | dangling (thread : Thread)
  | returned (thread : Thread) (call : Call) (code : Int) (totals : Totals)

structure Shared where
  mutex : Option Thread
  stop_manager : Bool
  users : List (Int × Int)
  pool : Objects
  generation : Nat
  -- newest first
  trace : List Event

namespace Shared

def record (shared : Shared) (event : Event) : Shared :=
  { shared with trace := event :: shared.trace }

def lock (shared : Shared) (thread : Thread) : Shared := { shared with mutex := some thread }

def unlock (shared : Shared) : Shared := { shared with mutex := none }

-- `flush` deletes every object, so no earlier pointer stays valid
def flush (shared : Shared) : Shared :=
  { shared with pool := Map.empty, generation := shared.generation + 1 }

def pointers (shared : Shared) : List Pointer :=
  shared.pool.keys.map fun oid => ⟨shared.generation, oid⟩

def deref (shared : Shared) (pointer : Pointer) : Option VMObject :=
  if pointer.generation = shared.generation then shared.pool.find pointer.oid else none

end Shared

section Step

variable (config : Config) (parse : Parser)

/-- What follows the flush in `get_pending` or `get_running`, up to the loop or an early exit. -/
def fetch (thread : Thread) (call : Call) (server : Server) (shared : Shared) : Position × Shared :=
  let (pool, result) := setUp parse server config.one_secret call.query shared.pool
  let filled := { shared with pool := pool }
  match result with
  | .error _ => (.ended, filled)
  | .ok rc =>
      -- the early return leaves the mutex locked
      if rc ≠ 0 then (.outside, filled.record (.returned thread call rc .zero))
      else (.looping call filled.pointers .zero, filled.record (.fetched thread pool))

def act (thread : Thread) (shared : Shared) : Position → Action → Option (Position × Shared)
  | .outside, .enter =>
      match thread, shared.users with
      | .pm, _ =>
          some (.entered (.killPending (-1)), shared.record (.entered thread (.killPending (-1))))
      | .tm, (uid, ttl) :: rest =>
          some (.entered (.killRunning uid ttl),
            { shared with users := rest }.record (.entered thread (.killRunning uid ttl)))
      | .tm, [] => none
  | .entered call, .acquire =>
      if shared.mutex.isNone then some (.locked call, shared.lock thread) else none
  | .locked call, .flush => some (.flushed call, shared.flush.record (.flushed thread))
  | .flushed call, .fetch server => some (fetch config parse thread call server shared)
  | .looping call (pointer :: vms) totals, .read =>
      match shared.deref pointer with
      | some vm => some (.deciding call vm vms (call.count totals vm), shared)
      | none => some (.ended, shared.record (.dangling thread))
  | .deciding call vm vms totals, .decide now =>
      match call.request config now vm with
      | some request => some (.looping call vms totals, shared.record (.requested thread request))
      | none => some (.looping call vms totals, shared)
  | .looping call [] totals, .release =>
      some (.outside, shared.unlock.record (.returned thread call 0 totals))
  | .outside, .beginWait =>
      if thread = .tm ∧ shared.users = [] ∧ !shared.stop_manager then some (.beforeWait, shared)
      else none
  | .beforeWait, .acquire =>
      if shared.mutex.isNone then some (.waiting false, shared.lock thread) else none
  | .waiting timedOut, .sleep =>
      if timedOut || shared.stop_manager then none else some (.asleep, shared.unlock)
  -- pthread_cond_timedwait returns with the mutex locked, after a timeout or without one
  | .asleep, .wake timedOut =>
      if shared.mutex.isNone then some (.waiting timedOut, shared.lock thread) else none
  | .waiting timedOut, .release =>
      if timedOut || shared.stop_manager then
        some (.outside, { shared.unlock with users := config.users })
      else none
  | _, _ => none

structure State where
  shared : Shared
  pm : Position
  tm : Position

namespace State

def position (state : State) : Thread → Position
  | .pm => state.pm
  | .tm => state.tm

def update (state : State) (thread : Thread) (position : Position) (shared : Shared) : State :=
  match thread with
  | .pm => ⟨shared, position, state.tm⟩
  | .tm => ⟨shared, state.pm, position⟩

@[simp] theorem update_shared (state : State) (thread : Thread) (position : Position)
    (shared : Shared) :
    (state.update thread position shared).shared = shared := by
  cases thread <;> rfl

@[simp] theorem update_position (state : State) (thread : Thread) (position : Position)
    (shared : Shared) :
    (state.update thread position shared).position thread = position := by
  cases thread <;> rfl

@[simp] theorem update_other (state : State) (thread : Thread) (position : Position)
    (shared : Shared) :
    (state.update thread position shared).position thread.other = state.position thread.other := by
  cases thread <;> rfl

end State

inductive Label where
  | step (thread : Thread) (action : Action)
  -- `Manager::finalize`, whose critical section is one step
  | finalize

def step (state : State) : Label → Option State
  | .step thread action =>
      (act config parse thread state.shared (state.position thread) action).map fun
        (position, shared) =>
        state.update thread position shared
  | .finalize =>
      if state.shared.mutex.isNone then
        some { state with shared := { state.shared with stop_manager := true } }
      else none

def initial : State := ⟨⟨none, false, [], Map.empty, 0, []⟩, .outside, .outside⟩

theorem step_thread {state next : State} {thread : Thread} {action : Action}
    (taken : step config parse state (.step thread action) = some next) :
    ∃ position shared, act config parse thread state.shared (state.position thread) action =
      some (position, shared) ∧ next = state.update thread position shared := by
  obtain ⟨⟨position, shared⟩, acted, rfl⟩ := Option.map_eq_some_iff.mp taken
  exact ⟨position, shared, acted, rfl⟩

theorem step_finalize {state next : State} (taken : step config parse state .finalize = some next) :
    state.shared.mutex = none ∧
      next = { state with shared := { state.shared with stop_manager := true } } := by
  simp only [step] at taken
  split_ifs at taken with free
  exact ⟨Option.isNone_iff_eq_none.mp free, (Option.some.inj taken).symm⟩

end Step

section Acts

variable (config : Config) (parse : Parser)

inductive Acts (thread : Thread) (shared : Shared) :
    Position → Action → Position → Shared → Prop where
  | enterPending (pm : thread = .pm) :
      Acts thread shared .outside .enter (.entered (.killPending (-1)))
        (shared.record (.entered thread (.killPending (-1))))
  | enterRunning (tm : thread = .tm) (uid ttl : Int) (rest : List (Int × Int))
      (users : shared.users = (uid, ttl) :: rest) :
      Acts thread shared .outside .enter (.entered (.killRunning uid ttl))
        ({ shared with users := rest }.record (.entered thread (.killRunning uid ttl)))
  | acquire (call : Call) (free : shared.mutex = none) :
      Acts thread shared (.entered call) .acquire (.locked call) (shared.lock thread)
  | flush (call : Call) : Acts thread shared (.locked call) .flush (.flushed call)
      (shared.flush.record (.flushed thread))
  | fetch (call : Call) (server : Server) :
      Acts thread shared (.flushed call) (.fetch server)
        (fetch config parse thread call server shared).1
        (fetch config parse thread call server shared).2
  | read (call : Call) (pointer : Pointer) (vms : List Pointer) (totals : Totals) (vm : VMObject)
      (found : shared.deref pointer = some vm) :
      Acts thread shared (.looping call (pointer :: vms) totals) .read
        (.deciding call vm vms (call.count totals vm)) shared
  | dangle (call : Call) (pointer : Pointer) (vms : List Pointer) (totals : Totals)
      (lost : shared.deref pointer = none) :
      Acts thread shared (.looping call (pointer :: vms) totals) .read .ended
        (shared.record (.dangling thread))
  | request (call : Call) (vm : VMObject) (vms : List Pointer) (totals : Totals) (now : Int)
      (request : Request)
      (issued : call.request config now vm = some request) :
      Acts thread shared (.deciding call vm vms totals) (.decide now) (.looping call vms totals)
        (shared.record (.requested thread request))
  | spare (call : Call) (vm : VMObject) (vms : List Pointer) (totals : Totals) (now : Int)
      (nothing : call.request config now vm = none) :
      Acts thread shared (.deciding call vm vms totals) (.decide now)
        (.looping call vms totals) shared
  | release (call : Call) (totals : Totals) :
      Acts thread shared (.looping call [] totals) .release .outside
        (shared.unlock.record (.returned thread call 0 totals))
  | beginWait (tm : thread = .tm) (users : shared.users = [])
      (running : shared.stop_manager = false) :
      Acts thread shared .outside .beginWait .beforeWait shared
  | acquireWait (free : shared.mutex = none) :
      Acts thread shared .beforeWait .acquire (.waiting false) (shared.lock thread)
  | sleep (running : shared.stop_manager = false) :
      Acts thread shared (.waiting false) .sleep .asleep shared.unlock
  | wake (timedOut : Bool) (free : shared.mutex = none) :
      Acts thread shared .asleep (.wake timedOut) (.waiting timedOut) (shared.lock thread)
  | releaseWait (timedOut : Bool) (ended : timedOut = true ∨ shared.stop_manager = true) :
      Acts thread shared (.waiting timedOut) .release .outside
        { shared.unlock with users := config.users }

variable {config} {parse}

theorem acts_of_act {thread : Thread} {shared after : Shared} {position next : Position}
    {action : Action}
    (acted : act config parse thread shared position action = some (next, after)) :
    Acts config parse thread shared position action next after := by
  cases position <;> cases action <;> simp [act] at acted
  case outside.enter =>
    split at acted
    next =>
      simp only [Option.some.injEq, Prod.mk.injEq] at acted
      obtain ⟨rfl, rfl⟩ := acted
      exact .enterPending rfl
    next uid ttl rest users =>
      simp only [Option.some.injEq, Prod.mk.injEq] at acted
      obtain ⟨rfl, rfl⟩ := acted
      exact .enterRunning rfl uid ttl rest users
    next => simp at acted
  case outside.beginWait =>
    obtain ⟨⟨tm, users, running⟩, rfl, rfl⟩ := acted
    exact .beginWait tm users running
  case entered.acquire call =>
    obtain ⟨free, rfl, rfl⟩ := acted
    exact .acquire call free
  case locked.flush call =>
    obtain ⟨rfl, rfl⟩ := acted
    exact .flush call
  case flushed.fetch call server =>
    have fetched := @Acts.fetch config parse thread shared call server
    rwa [acted] at fetched
  case looping.read call vms totals =>
    cases vms with
    | nil => simp at acted
    | cons pointer vms =>
        cases found : shared.deref pointer <;> simp only [found, Option.some.injEq,
          Prod.mk.injEq] at acted <;>
          obtain ⟨rfl, rfl⟩ := acted
        · exact .dangle call pointer vms totals found
        · exact .read call pointer vms totals _ found
  case looping.release call vms totals =>
    cases vms with
    | nil =>
        simp only [Option.some.injEq, Prod.mk.injEq] at acted
        obtain ⟨rfl, rfl⟩ := acted
        exact .release call totals
    | cons pointer vms => simp at acted
  case deciding.decide call vm vms totals now =>
    cases issued : call.request config now vm <;> simp only [issued, Option.some.injEq,
      Prod.mk.injEq] at acted <;>
      obtain ⟨rfl, rfl⟩ := acted
    · exact .spare call vm vms totals now issued
    · exact .request call vm vms totals now _ issued
  case beforeWait.acquire =>
    obtain ⟨free, rfl, rfl⟩ := acted
    exact .acquireWait free
  case waiting.sleep timedOut =>
    obtain ⟨⟨rfl, running⟩, rfl, rfl⟩ := acted
    exact .sleep running
  case waiting.release timedOut =>
    obtain ⟨ended, rfl, rfl⟩ := acted
    exact .releaseWait timedOut ended
  case asleep.wake timedOut =>
    obtain ⟨free, rfl, rfl⟩ := acted
    exact .wake timedOut free

end Acts

end OneFass.Terminator
