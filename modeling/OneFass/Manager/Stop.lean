import Mathlib.Tactic.SplitIfs
import OneFass.Manager.Loop

set_option autoImplicit false

namespace OneFass.Manager

def Position.settled : Position → Bool
  | .test | .body | .exited => true
  | .locking | .waiting _ | .asleep | .unlocked => false

def Quiet : List Event → Prop
  | [] => True
  | .began :: older => .stopped ∉ older ∧ Quiet older
  | _ :: older => Quiet older

def Exits (state : State) : Prop :=
  ∃ (moves : List Move) (final : State),
    Machine.run step state (moves.map Label.thread) = some final ∧ final.thread = .exited ∧
    .begin ∉ moves

def SetsWhileSettled (state : State) (label : Label) : Prop :=
  label = .main → state.main = .locked → state.thread.settled = true

structure Stopping (state : State) : Prop where
  quiet : Quiet state.trace
  unset : state.stop_manager = false → .stopped ∉ state.trace
  settled : state.stop_manager = true → state.thread.settled = true

section Steps

variable {state next : State} {taken : Move}

theorem Stopping.record {event : Event} (stopping : Stopping state) (kept : event ≠ .began)
    (other : event ≠ .stopped) :
    Stopping (state.record event) := by
  constructor
  · cases event with
    | began => exact absurd rfl kept
    | _ => exact stopping.quiet
  · intro running member
    rcases List.mem_cons.mp member with same | older
    · exact other same.symm
    · exact stopping.unset running older
  · exact stopping.settled

theorem move_stopping (stopping : Stopping state)
    (moved : move state state.thread taken = some next) :
    Stopping next := by
  have settled := stopping.settled
  cases position : state.thread <;> cases taken <;> simp only [move, position,
        reduceCtorEq] at moved
  case test.test =>
    cases stop : state.stop_manager with
    | true =>
        simp only [stop, ↓reduceIte, Option.some.injEq] at moved
        subst moved
        have left : Stopping (state.goTo .exited) := ⟨stopping.quiet, stopping.unset, fun _ => rfl⟩
        exact left.record (by simp) (by simp)
    | false =>
        simp only [stop, Bool.false_eq_true, ↓reduceIte, Option.some.injEq] at moved
        subst moved
        exact ⟨stopping.quiet, stopping.unset, fun set => by simp [State.goTo, stop] at set⟩
  case unlocked.begin =>
    cases stop : state.stop_manager with
    | true => simp [position, Position.settled, stop] at settled
    | false =>
        cases moved
        refine ⟨⟨stopping.unset stop, stopping.quiet⟩, ?_, fun _ => rfl⟩
        intro running member
        exact stopping.unset running (by simpa [State.record, State.goTo] using member)
  case body.effect =>
    cases moved
    exact stopping.record (by simp) (by simp)
  case body.finish =>
    cases moved
    exact ⟨stopping.quiet, stopping.unset, fun _ => rfl⟩
  -- elsewhere the thread has not been stopped, or only the mutex changes
  all_goals
    split_ifs at moved
    cases moved
    refine ⟨stopping.quiet, stopping.unset, fun set => ?_⟩
    simp_all [State.goTo, State.own, Position.settled]

theorem finalize_stopping (stopping : Stopping state) (meets : SetsWhileSettled state .main)
    (finalized : finalize state = some next) : Stopping next := by
  cases reached : state.main <;> simp only [finalize, reached, reduceCtorEq] at finalized
  case before =>
    split_ifs at finalized
    cases finalized
    exact ⟨stopping.quiet, stopping.unset, stopping.settled⟩
  case locked =>
    cases finalized
    exact ⟨stopping.quiet, fun set => by simp at set, fun _ => meets rfl reached⟩
  all_goals
    cases finalized
    exact ⟨stopping.quiet, stopping.unset, stopping.settled⟩

theorem step_stopping {label : Label} (meets : SetsWhileSettled state label)
    (stopping : Stopping state) (stepped : step state label = some next) : Stopping next := by
  cases label with
  | thread taken => exact move_stopping stopping stepped
  | main => exact finalize_stopping stopping meets stepped
  | otherLock =>
      simp only [step] at stepped
      split_ifs at stepped
      cases stepped
      exact ⟨stopping.quiet, stopping.unset, stopping.settled⟩
  | otherUnlock =>
      simp only [step] at stepped
      split_ifs at stepped
      cases stepped
      exact ⟨stopping.quiet, stopping.unset, stopping.settled⟩

end Steps

theorem exits_of_settled {state : State} (stop : state.stop_manager = true)
    (settled : state.thread.settled = true) :
    Exits state := by
  cases position : state.thread with
  | test =>
      exact ⟨[.test], _, by simp [Machine.run_cons, step, move, position, stop]; rfl, rfl, by simp⟩
  | body =>
      exact ⟨[.finish, .test], _,
            by simp [Machine.run_cons, step, move, position, stop, State.goTo]; rfl, rfl, by simp⟩
  | exited => exact ⟨[], state, rfl, position, by simp⟩
  | _ => simp [position, Position.settled] at settled

theorem stop_ends_work (labels : List Label) (state : State)
    (along : Machine.Along step SetsWhileSettled initial labels)
    (reached : Machine.run step initial labels = some state) :
    Quiet state.trace ∧ (state.stop_manager = true → Exits state) := by
  have start : Stopping initial := ⟨trivial, fun _ => by simp [initial], fun set =>
    by simp [initial] at set⟩
  have stopping := Machine.run_invariant Stopping (fun _ _ _ => step_stopping) start along reached
  exact ⟨stopping.quiet, fun stop => exits_of_settled stop (stopping.settled stop)⟩

theorem move_unsettled {state next : State} {taken : Move}
    (unsettled : state.thread.settled = false) (other : taken ≠ .begin)
    (moved : move state state.thread taken = some next) :
    next.thread.settled = false := by
  cases position : state.thread <;> cases taken <;> simp only [move, position,
    reduceCtorEq] at moved
  case unlocked.begin => exact absurd rfl other
  all_goals first
    | (split_ifs at moved; cases moved; rfl)
    | simp [position, Position.settled] at unsettled

theorem body_before_exit (moves : List Move) (state final : State)
    (unsettled : state.thread.settled = false)
    (reached : Machine.run step state (moves.map Label.thread) = some final)
    (left : final.thread = .exited) :
    .begin ∈ moves := by
  induction moves generalizing state with
  | nil =>
      cases reached
      simp [left, Position.settled] at unsettled
  | cons taken rest ih =>
      rw [List.map_cons, Machine.run_cons] at reached
      obtain ⟨next, moved, continued⟩ := Option.bind_eq_some_iff.mp reached
      by_cases begins : taken = .begin
      · exact begins ▸ List.mem_cons_self
      · exact List.mem_cons_of_mem _ (ih next (move_unsettled unsettled begins moved) continued)

section Example

def firstCycle : List Label :=
  [.thread .test, .thread .lock, .thread .sleep, .thread (.wake true), .thread .leave,
    .thread .begin]

def stopInBody : List Label :=
  firstCycle ++ [.main, .main, .thread (.effect .queuePublished), .main, .main]

theorem stop_ends_work_in_body : ∃ state, Machine.run step initial stopInBody = some state ∧
    Quiet state.trace ∧ (state.stop_manager = true → Exits state) := by
  refine ⟨_, rfl, stop_ends_work stopInBody _ ?_ rfl⟩
  simp [stopInBody, firstCycle, Machine.Along, SetsWhileSettled, step, move, finalize, initial,
    State.goTo, State.own, State.record, Position.settled]

def stopInWait : List Label :=
  [.thread .test, .thread .lock, .thread .sleep, .main, .main, .main, .main, .thread (.wake false),
    .thread .leave, .thread .begin, .thread (.effect (.terminated 7))]

theorem cycle_begins_after_stop : ∃ state, Machine.run step initial stopInWait = some state ∧
    state.trace = [.effect (.terminated 7), .began, .stopped] ∧ ¬ Quiet state.trace :=
  ⟨_, rfl, rfl, fun quiet => quiet.1 List.mem_cons_self⟩

end Example

end OneFass.Manager
