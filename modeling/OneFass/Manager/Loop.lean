import OneFass.Shared.Machine

set_option autoImplicit false

namespace OneFass.Manager

inductive Effect where
  | terminated (oid : Int)
  | operated (oid : Int)
  | usageWritten
  | queuePublished
  deriving DecidableEq

inductive Owner where
  | thread
  | main
  | other
  deriving DecidableEq

inductive Position where
  -- at `while (!stop_manager)`
  | test
  | locking
  -- at `while (wait && !stop_manager)`, with the mutex
  | waiting (wait : Bool)
  | asleep
  -- behind the wait, before the body
  | unlocked
  | body
  | exited
  deriving DecidableEq

inductive Finalize where
  | before
  | locked
  | stopped
  | signalled
  | done
  deriving DecidableEq

inductive Event where
  | began
  | effect (effect : Effect)
  | stopped
  | exited
  deriving DecidableEq

structure State where
  stop_manager : Bool
  mutex : Option Owner
  thread : Position
  main : Finalize
  trace : List Event
  deriving DecidableEq

inductive Move where
  | test
  | lock
  | sleep
  | wake (timedOut : Bool)
  | leave
  | begin
  | effect (effect : Effect)
  -- the body of the Terminator locks the same mutex for each user
  | takeMutex
  | freeMutex
  | finish
  deriving DecidableEq

namespace State

def goTo (state : State) (position : Position) : State := { state with thread := position }

def own (state : State) (owner : Option Owner) : State := { state with mutex := owner }

def record (state : State) (event : Event) : State := { state with trace := event :: state.trace }

end State

def move (state : State) : Position → Move → Option State
  | .test, .test =>
      if state.stop_manager then some ((state.goTo .exited).record .exited)
      else some (state.goTo .locking)
  | .locking, .lock =>
      if state.mutex.isNone then some ((state.goTo (.waiting true)).own (some .thread)) else none
  | .waiting wait, .sleep =>
      if wait && !state.stop_manager then some ((state.goTo .asleep).own none) else none
  | .waiting wait, .leave =>
      if wait && !state.stop_manager then none else some ((state.goTo .unlocked).own none)
  -- after the signal, the timeout or without a reason
  | .asleep, .wake timedOut =>
      if state.mutex.isNone then some ((state.goTo (.waiting !timedOut)).own (some .thread))
      else none
  | .unlocked, .begin => some ((state.goTo .body).record .began)
  | .body, .effect effect => some (state.record (.effect effect))
  | .body, .takeMutex => if state.mutex.isNone then some (state.own (some .thread)) else none
  | .body, .freeMutex => if state.mutex = some .thread then some (state.own none) else none
  | .body, .finish => some (state.goTo .test)
  | _, _ => none

def finalize (state : State) : Option State :=
  match state.main with
  | .before =>
      if state.mutex.isNone then some { state.own (some .main) with main := .locked } else none
  | .locked => some { state.record .stopped with stop_manager := true, main := .stopped }
  | .stopped => some { state with main := .signalled }
  | .signalled => some { state.own none with main := .done }
  | .done => none

inductive Label where
  | thread (move : Move)
  | main
  -- the priority manager's thread, which calls into the Terminator
  | otherLock
  | otherUnlock
  deriving DecidableEq

def step (state : State) : Label → Option State
  | .thread taken => move state state.thread taken
  | .main => finalize state
  | .otherLock => if state.mutex.isNone then some (state.own (some .other)) else none
  | .otherUnlock => if state.mutex = some .other then some (state.own none) else none

def initial : State := ⟨false, none, .test, .before, []⟩

end OneFass.Manager
