import Mathlib.Tactic.SplitIfs
import OneFass.Fass.Start

set_option autoImplicit false

namespace OneFass.Fass

def Sound (among : Component → Prop) : List Event → Prop
  | [] => True
  | .used component :: older =>
      (among component → .constructed component ∈ older) ∧ Sound among older
  | _ :: older => Sound among older

def State.hasTerminator (state : State) : Prop := Stage.newTerminator.order < state.stage.order

def InTime (timers : Timers) (state : State) : Label → Prop
  | .tick now => state.hasTerminator ∨ ∀ deadline, state.pm = .waiting deadline → now < deadline
  | .thread .pm .arm => state.hasTerminator ∨ 0 < timers.pm
  | _ => True

structure Built (state : State) : Prop where
  constructed : ∀ (stage : Stage) (component : Component), stage.constructs = some component →
    stage.order < state.stage.order →
    .constructed component ∈ state.trace
  started : state.terminator ≠ .absent → Stage.startTerminator.order < state.stage.order

structure Waiting (state : State) : Prop where
  cycle : state.pm = .begun → state.hasTerminator
  deadline : ∀ deadline, state.pm = .waiting deadline → state.hasTerminator ∨ state.clock < deadline

section Stages

theorem order_injective {a b : Stage} (same : a.order = b.order) : a = b := by
  cases a <;> cases b <;> first | rfl | simp [Stage.order] at same

theorem order_next (stage : Stage) : stage.next.order = stage.order + 1 ∨ stage.next = stage := by
  cases stage <;> simp [Stage.next, Stage.order]

theorem order_le_next (stage : Stage) : stage.order ≤ stage.next.order := by
  cases stage <;> decide

end Stages

section Steps

variable {timers : Timers} {state next : State}

theorem perform_cases (state : State) :
    (∃ component, state.stage.constructs = some component ∧
      perform state = state.record (.constructed component)) ∨
      (state.stage.constructs = none ∧
        (perform state = state ∨ perform state = state.goTo .pm .top ∨
          state.stage = .startTerminator ∧ perform state = state.goTo .terminator .top)) := by
  simp only [perform]
  split
  next component constructs => exact Or.inl ⟨component, constructs, rfl⟩
  next nothing =>
    refine Or.inr ⟨nothing, ?_⟩
    split
    next => exact Or.inr (Or.inl rfl)
    next same => exact Or.inr (Or.inr ⟨same, rfl⟩)
    next => exact Or.inl rfl

theorem mem_perform {event : Event} (member : event ∈ state.trace) :
    event ∈ (perform state).trace := by
  rcases perform_cases state with ⟨component, _, done⟩ | ⟨_, done | done | ⟨_, done⟩⟩ <;> rw [done]
  · exact List.mem_cons_of_mem _ member
  all_goals exact member

theorem perform_constructs {component : Component}
    (constructs : state.stage.constructs = some component) :
    .constructed component ∈ (perform state).trace := by
  simp [perform, constructs, State.record]

theorem built_main (built : Built state) :
    Built { perform state with stage := state.stage.next } := by
  have growing := order_le_next state.stage
  have earlier (started : state.terminator ≠ .absent) :
      Stage.startTerminator.order < state.stage.next.order :=
    Nat.lt_of_lt_of_le (built.started started) growing
  constructor
  · intro stage component constructs reached
    rcases Nat.lt_or_ge stage.order state.stage.order with before | now
    · exact mem_perform (built.constructed stage component constructs before)
    · rcases order_next state.stage with succ | stays
      · have here : stage = state.stage := order_injective (by simp only at reached; omega)
        exact perform_constructs (here ▸ constructs)
      · simp only [stays] at reached
        omega
  · rcases perform_cases state with ⟨component, _, done⟩
      | ⟨_, done | done | ⟨same, done⟩⟩ <;> rw [done]
    · exact earlier
    · exact earlier
    · exact earlier
    · have later : Stage.startTerminator.order < state.stage.next.order := by
        rw [same]
        decide
      exact fun _ => later

theorem waiting_main (waiting : Waiting state) :
    Waiting { perform state with stage := state.stage.next } := by
  have growing (has : state.hasTerminator) : Stage.newTerminator.order < state.stage.next.order :=
    Nat.lt_of_lt_of_le has (order_le_next state.stage)
  have kept : Waiting { state with stage := state.stage.next } :=
    ⟨fun begun => growing (waiting.cycle begun), fun deadline waits =>
      (waiting.deadline deadline waits).imp_left growing⟩
  rcases perform_cases state with ⟨component, _, done⟩ | ⟨_, done | done | ⟨_, done⟩⟩ <;> rw [done]
  · exact ⟨kept.cycle, kept.deadline⟩
  · exact kept
  · exact ⟨nofun, nofun⟩
  · exact ⟨kept.cycle, kept.deadline⟩

theorem sound_main {among : Component → Prop} (sound : Sound among state.trace) :
    Sound among (perform state).trace := by
  rcases perform_cases state with ⟨component, _, done⟩
    | ⟨_, done | done | ⟨_, done⟩⟩ <;> rw [done] <;> exact sound

theorem move_cases {manager : Manager} {taken : Move}
    (moved : move timers state manager taken = some next) :
    (taken = .arm ∧ state.thread manager = .top ∧ ∃ position, next = state.goTo manager position ∧
        (position = .exited ∨ position = .waiting (state.clock + timers.of manager))) ∨
      (taken = .leave ∧ next = state.goTo manager .begun ∧
        ∃ deadline, state.thread manager = .waiting deadline ∧
        (deadline ≤ state.clock ∨ state.stopped manager = true)) ∨
      (taken = .use ∧ state.thread manager = .begun ∧
        next = (state.goTo manager .working).record (.used manager.uses)) ∨
      (taken = .finish ∧ state.thread manager = .working ∧ next = state.goTo manager .top) := by
  cases taken with
  | arm =>
      simp only [move] at moved
      split_ifs at moved with here stopped
      · exact Or.inl ⟨rfl, here, .exited, (Option.some.inj moved).symm, Or.inl rfl⟩
      · exact Or.inl ⟨rfl, here, _, (Option.some.inj moved).symm, Or.inr rfl⟩
  | leave =>
      simp only [move] at moved
      split at moved
      next deadline here =>
        split_ifs at moved with ended
        exact Or.inr (Or.inl ⟨rfl, (Option.some.inj moved).symm, deadline, here, ended⟩)
      next => cases moved
  | use =>
      simp only [move] at moved
      split_ifs at moved with here
      exact Or.inr (Or.inr (Or.inl ⟨rfl, here, (Option.some.inj moved).symm⟩))
  | finish =>
      simp only [move] at moved
      split_ifs at moved with here
      exact Or.inr (Or.inr (Or.inr ⟨rfl, here, (Option.some.inj moved).symm⟩))

theorem Built.goTo (built : Built state) {manager : Manager} (position : Thread)
    (alive : state.thread manager ≠ .absent) : Built (state.goTo manager position) := by
  cases manager with
  | pm => exact ⟨built.constructed, built.started⟩
  | terminator => exact ⟨built.constructed, fun _ => built.started alive⟩

theorem Built.record (built : Built state) (event : Event) : Built (state.record event) :=
  ⟨fun stage component constructs earlier =>
    List.mem_cons_of_mem _ (built.constructed stage component constructs earlier), built.started⟩

theorem built_move {manager : Manager} {taken : Move} (built : Built state)
    (moved : move timers state manager taken = some next) : Built next := by
  rcases move_cases moved with ⟨_, here, position, rfl, _⟩ | ⟨_, rfl, _, here, _⟩ | ⟨_, here, rfl⟩
    | ⟨_, here, rfl⟩
  · exact built.goTo position (by simp [here])
  · exact built.goTo .begun (by simp [here])
  · exact (built.goTo .working (by simp [here])).record _
  · exact built.goTo .top (by simp [here])

theorem built_step {label : Label} (built : Built state)
    (stepped : step timers state label = some next) :
    Built next := by
  cases label with
  | main =>
      simp only [step] at stepped
      split_ifs at stepped
      cases stepped
      exact built_main built
  | fail =>
      cases stepped
      exact ⟨built.constructed, built.started⟩
  | tick now =>
      cases stepped
      exact ⟨built.constructed, built.started⟩
  | thread manager taken => exact built_move built stepped
  | request =>
      simp only [step] at stepped
      split_ifs at stepped
      cases stepped
      exact built.record _

-- the terminator's thread and the requests come after what they use
theorem sound_step {among : Component → Prop} {label : Label} (built : Built state)
    (cycle : among .terminator → state.pm = .begun → state.hasTerminator)
    (sound : Sound among state.trace) (stepped : step timers state label = some next) :
    Sound among next.trace := by
  cases label with
  | main =>
      simp only [step] at stepped
      split_ifs at stepped
      cases stepped
      exact sound_main sound
  | fail =>
      cases stepped
      exact sound
  | tick now =>
      cases stepped
      exact sound
  | request =>
      simp only [step] at stepped
      split_ifs at stepped with serving
      cases stepped
      refine ⟨fun _ => built.constructed .newPriorityManager _ rfl ?_, sound⟩
      simp only [Stage.order] at serving ⊢
      omega
  | thread manager taken =>
      rcases move_cases stepped with ⟨_, _, position, rfl, _⟩ | ⟨_, rfl, _⟩ | ⟨_, here, rfl⟩
        | ⟨_, _, rfl⟩
      · cases manager <;> exact sound
      · cases manager <;> exact sound
      · cases manager with
        | pm =>
            exact ⟨fun inside => built.constructed .newTerminator _ rfl (cycle inside here), sound⟩
        | terminator =>
            refine ⟨fun _ => built.constructed .newDatabase _ rfl ?_, sound⟩
            have started := built.started (fun absent => by simp [State.thread, absent] at here)
            simp only [Stage.order] at started ⊢
            omega
      · cases manager <;> exact sound

theorem waiting_step {label : Label} (inTime : InTime timers state label) (waiting : Waiting state)
    (stepped : step timers state label = some next) : Waiting next := by
  cases label with
  | main =>
      simp only [step] at stepped
      split_ifs at stepped
      cases stepped
      exact waiting_main waiting
  | fail =>
      cases stepped
      exact ⟨waiting.cycle, waiting.deadline⟩
  | tick now =>
      cases stepped
      refine ⟨waiting.cycle, fun deadline waits => ?_⟩
      exact inTime.imp_right fun early => early deadline waits
  | request =>
      simp only [step] at stepped
      split_ifs at stepped
      cases stepped
      exact ⟨waiting.cycle, waiting.deadline⟩
  | thread manager taken =>
      cases manager with
      | terminator =>
          rcases move_cases stepped with ⟨_, _, position, rfl, _⟩ | ⟨_, rfl, _⟩ | ⟨_, _, rfl⟩
            | ⟨_, _, rfl⟩ <;>
            exact ⟨waiting.cycle, waiting.deadline⟩
      | pm =>
          rcases move_cases stepped with ⟨rfl, _, position, rfl, armed⟩
            | ⟨_, rfl, deadline, waits, ended⟩ |
            ⟨_, _, rfl⟩ | ⟨_, _, rfl⟩
          · refine ⟨fun begun => ?_, fun deadline waits => ?_⟩
            · rcases armed with rfl | rfl <;> cases begun
            · rcases armed with rfl | rfl
              · cases waits
              · cases waits
                refine inTime.imp_right fun positive => ?_
                simp only [State.goTo, Timers.of]
                omega
          · refine ⟨fun _ => ?_, fun later waits => by cases waits⟩
            rcases ended with passed | stopped
            · exact (waiting.deadline deadline waits).resolve_right (Int.not_lt.mpr passed)
            · have later : Stage.finalizePriorityManager.order < state.stage.order :=
                of_decide_eq_true stopped
              exact Nat.lt_trans (by decide : 4 < 9) later
          · exact ⟨nofun, nofun⟩
          · exact ⟨nofun, nofun⟩

end Steps

theorem built_initial (clock : Int) : Built (initial clock) :=
  ⟨fun _ _ _ earlier => absurd earlier (Nat.not_lt_zero _), fun started => absurd rfl started⟩

theorem others_exist (timers : Timers) (clock : Int) (labels : List Label) (state : State)
    (reached : Machine.run (step timers) (initial clock) labels = some state) :
    Sound (fun component => component ≠ .terminator) state.trace := by
  have invariant : Built state ∧ Sound (fun component => component ≠ .terminator) state.trace := by
    refine Machine.run_preserves (fun state => Built state ∧
      Sound (fun component => component ≠ .terminator) state.trace)
      ?_ ⟨built_initial clock, trivial⟩ reached
    intro before label after holds stepped
    exact ⟨built_step holds.1 stepped,
      sound_step holds.1 (fun other => absurd rfl other) holds.2 stepped⟩
  exact invariant.2

theorem components_exist (timers : Timers) (clock : Int) (labels : List Label) (state : State)
    (along : Machine.Along (step timers) (InTime timers) (initial clock) labels)
    (reached : Machine.run (step timers) (initial clock) labels = some state) :
    Sound (fun _ => True) state.trace := by
  have start : Waiting (initial clock) := ⟨nofun, nofun⟩
  have invariant : Built state ∧ Waiting state ∧ Sound (fun _ => True) state.trace := by
    refine Machine.run_invariant (fun state => Built state ∧ Waiting state ∧
      Sound (fun _ => True) state.trace)
      ?_ ⟨built_initial clock, start, trivial⟩ along reached
    rintro before label after inTime ⟨built, waiting, sound⟩ stepped
    exact ⟨built_step built stepped, waiting_step inTime waiting stepped,
      sound_step built (fun _ => waiting.cycle) sound stepped⟩
  exact invariant.2.2

section Example

def untilPmStarts : List Label := [.main, .main, .main, .main, .thread .pm .arm]

def terminatorInTime : List Label :=
  untilPmStarts ++ [.main, .main, .tick 1060, .thread .pm .leave, .thread .pm .use]

theorem components_exist_in_time : ∃ state,
    Machine.run (step ⟨60, 60⟩) (initial 1000) terminatorInTime = some state ∧
    Sound (fun _ => True) state.trace := by
  refine ⟨_, rfl, components_exist ⟨60, 60⟩ 1000 terminatorInTime _ ?_ rfl⟩
  simp [terminatorInTime, untilPmStarts, Machine.Along, InTime, State.hasTerminator, step, move,
    perform, initial,
    State.thread, State.goTo, State.record, State.stopped, Stage.next, Stage.order,
      Stage.constructs, Timers.of]

-- with a timer of 0 the first cycle may come before the Terminator
theorem terminator_used_too_early : ∃ state,
    Machine.run (step ⟨0, 60⟩) (initial 1000)
    (untilPmStarts ++ [.thread .pm .leave, .thread .pm .use]) = some state ∧
      state.trace = [.used .terminator, .constructed .priorityManager, .constructed .database] ∧
      ¬ Sound (fun _ => True) state.trace := by
  refine ⟨_, rfl, rfl, fun sound => ?_⟩
  have constructed := sound.1 trivial
  exact absurd constructed (by decide)

end Example

end OneFass.Fass
