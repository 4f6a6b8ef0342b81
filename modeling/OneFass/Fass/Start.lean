import OneFass.Shared.Machine

set_option autoImplicit false

namespace OneFass.Fass

inductive Component where
  | database
  | priorityManager
  | terminator
  | rpcManager
  deriving DecidableEq

inductive Stage where
  | newDatabase
  -- the loop that waits for ONE
  | contactOne
  | newPriorityManager
  | startPriorityManager
  | newTerminator
  | startTerminator
  | newRpcManager
  | startRpcManager
  -- `sigwait`
  | running
  | finalizePriorityManager
  | finalizeTerminator
  | finalizeRpcManager
  | joining
  deriving DecidableEq

namespace Stage

def order : Stage → Nat
  | newDatabase => 0
  | contactOne => 1
  | newPriorityManager => 2
  | startPriorityManager => 3
  | newTerminator => 4
  | startTerminator => 5
  | newRpcManager => 6
  | startRpcManager => 7
  | running => 8
  | finalizePriorityManager => 9
  | finalizeTerminator => 10
  | finalizeRpcManager => 11
  | joining => 12

def next : Stage → Stage
  | newDatabase => contactOne
  | contactOne => newPriorityManager
  | newPriorityManager => startPriorityManager
  | startPriorityManager => newTerminator
  | newTerminator => startTerminator
  | startTerminator => newRpcManager
  | newRpcManager => startRpcManager
  | startRpcManager => running
  | running => finalizePriorityManager
  | finalizePriorityManager => finalizeTerminator
  | finalizeTerminator => finalizeRpcManager
  | finalizeRpcManager => joining
  | joining => joining

def constructs : Stage → Option Component
  | newDatabase => some .database
  | newPriorityManager => some .priorityManager
  | newTerminator => some .terminator
  | newRpcManager => some .rpcManager
  | _ => none

end Stage

inductive Event where
  | constructed (component : Component)
  -- a pointer from `Fass::instance()` was followed
  | used (component : Component)
  deriving DecidableEq

inductive Thread where
  | absent
  | top
  | waiting (deadline : Int)
  | begun
  | working
  | exited
  deriving DecidableEq

structure Timers where
  pm : Int
  terminator : Int

structure State where
  clock : Int
  stage : Stage
  -- an exception has left `start`
  failed : Bool
  pm : Thread
  terminator : Thread
  trace : List Event
  deriving DecidableEq

inductive Manager where
  | pm
  | terminator
  deriving DecidableEq

inductive Move where
  | arm
  | leave
  | use
  | finish
  deriving DecidableEq

inductive Label where
  | main
  | fail
  | tick (now : Int)
  | thread (manager : Manager) (move : Move)
  -- `ReorderedQueue::request_execute`
  | request
  deriving DecidableEq

namespace State

def thread (state : State) : Manager → Thread
  | .pm => state.pm
  | .terminator => state.terminator

def goTo (state : State) (manager : Manager) (position : Thread) : State :=
  match manager with
  | .pm => { state with pm := position }
  | .terminator => { state with terminator := position }

def record (state : State) (event : Event) : State := { state with trace := event :: state.trace }

-- `finalize` has set the manager's flag
def stopped (state : State) : Manager → Bool
  | .pm => decide (Stage.finalizePriorityManager.order < state.stage.order)
  | .terminator => decide (Stage.finalizeTerminator.order < state.stage.order)

end State

def Timers.of (timers : Timers) : Manager → Int
  | .pm => timers.pm
  | .terminator => timers.terminator

/-- What the body of a cycle takes from `Fass::instance()`. -/
def Manager.uses : Manager → Component
  | .pm => .terminator
  | .terminator => .database

def move (timers : Timers) (state : State) (manager : Manager) : Move → Option State
  | .arm =>
      if state.thread manager = .top then
        some (state.goTo manager
          (if state.stopped manager then .exited else .waiting (state.clock + timers.of manager)))
      else none
  | .leave =>
      match state.thread manager with
      | .waiting deadline =>
          if deadline ≤ state.clock ∨ state.stopped manager then some (state.goTo manager .begun)
          else none
      | _ => none
  | .use =>
      if state.thread manager = .begun then
        some ((state.goTo manager .working).record (.used manager.uses))
      else none
  | .finish => if state.thread manager = .working then some (state.goTo manager .top) else none

def perform (state : State) : State :=
  match state.stage.constructs with
  | some component => state.record (.constructed component)
  | none =>
      match state.stage with
      | .startPriorityManager => state.goTo .pm .top
      | .startTerminator => state.goTo .terminator .top
      | _ => state

def step (timers : Timers) (state : State) : Label → Option State
  | .main => if state.failed then none else some { perform state with stage := state.stage.next }
  | .fail => some { state with failed := true }
  | .tick now => some { state with clock := now }
  | .thread manager taken => move timers state manager taken
  | .request =>
      if Stage.startRpcManager.order < state.stage.order then
        some (state.record (.used .priorityManager)) else none

def initial (clock : Int) : State := ⟨clock, .newDatabase, false, .absent, .absent, []⟩

end OneFass.Fass
