set_option autoImplicit false

namespace Machine

variable {State Label : Type}

def run (step : State → Label → Option State) : State → List Label → Option State
  | state, [] => some state
  | state, label :: rest => (step state label).bind fun next => run step next rest

def Along (step : State → Label → Option State) (good : State → Label → Prop) :
    State → List Label → Prop
  | _, [] => True
  | state, label :: rest =>
      good state label ∧ ∀ next, step state label = some next → Along step good next rest

variable {step : State → Label → Option State} {good : State → Label → Prop}

@[simp] theorem run_nil (state : State) : run step state [] = some state := rfl

theorem run_cons (state : State) (label : Label) (rest : List Label) :
    run step state (label :: rest) = (step state label).bind fun next => run step next rest := rfl

theorem run_append (first second : List Label) (state : State) :
    run step state (first ++ second) = (run step state first).bind fun next =>
    run step next second := by
  induction first generalizing state with
  | nil => rfl
  | cons label rest ih =>
      rw [List.cons_append, run_cons, run_cons, Option.bind_assoc]
      simp only [ih]

theorem run_invariant (invariant : State → Prop)
    (preserved : ∀ state label next, good state label → invariant state →
      step state label = some next → invariant next)
    {state final : State} {labels : List Label} (start : invariant state)
    (along : Along step good state labels) (reached : run step state labels = some final) :
    invariant final := by
  induction labels generalizing state with
  | nil =>
      cases reached
      exact start
  | cons label rest ih =>
      rw [run_cons] at reached
      obtain ⟨next, taken, continued⟩ := Option.bind_eq_some_iff.mp reached
      exact ih (preserved state label next along.1 start taken) (along.2 next taken) continued

theorem along_of_forall {condition : Label → Prop} {labels : List Label}
    (meets : ∀ label ∈ labels, condition label) (state : State) :
    Along step (fun _ label => condition label) state labels := by
  induction labels generalizing state with
  | nil => trivial
  | cons label rest ih =>
      refine ⟨meets label List.mem_cons_self, fun next _ => ih ?_ next⟩
      exact fun later member => meets later (List.mem_cons_of_mem _ member)

theorem along_true (state : State) (labels : List Label) :
    Along step (fun _ _ => True) state labels :=
  along_of_forall (fun _ _ => trivial) state

theorem run_preserves (invariant : State → Prop)
    (preserved : ∀ state label next, invariant state → step state label = some next →
      invariant next)
    {state final : State} {labels : List Label} (start : invariant state)
    (reached : run step state labels = some final) : invariant final :=
  run_invariant invariant (fun state label next (_ : True) => preserved state label next) start
    (along_true state labels) reached

def checks (step : State → Label → Option State) (good : State → Label → Bool) :
    State → List Label → Bool
  | _, [] => true
  | state, label :: rest =>
      good state label && (step state label).all fun next => checks step good next rest

theorem along_of_checks {good : State → Label → Bool} {state : State} {labels : List Label}
    (checked : checks step good state labels = true) :
    Along step (fun state label => good state label = true) state labels := by
  induction labels generalizing state with
  | nil => trivial
  | cons label rest ih =>
      rw [checks, Bool.and_eq_true] at checked
      refine ⟨checked.1, fun next taken => ih ?_⟩
      simpa [taken] using checked.2

section Projection

variable {Abstract Visible : Type} {stepAbstract : Abstract → Visible → Option Abstract}

-- a step that stands for nothing leaves the view as it is
def Projects (step : State → Label → Option State)
    (stepAbstract : Abstract → Visible → Option Abstract) (view : State → Abstract)
    (visible : Label → Option Visible) : Prop :=
  ∀ state label next, step state label = some next →
    match visible label with
    | none => view next = view state
    | some seen => stepAbstract (view state) seen = some (view next)

theorem run_projects {view : State → Abstract} {visible : Label → Option Visible}
    (projects : Projects step stepAbstract view visible) {state final : State} {labels : List Label}
    (reached : run step state labels = some final) :
    run stepAbstract (view state) (labels.filterMap visible) = some (view final) := by
  induction labels generalizing state with
  | nil =>
      cases reached
      rfl
  | cons label rest ih =>
      rw [run_cons] at reached
      obtain ⟨next, taken, continued⟩ := Option.bind_eq_some_iff.mp reached
      have matched := projects state label next taken
      cases seen : visible label with
      | none =>
          rw [seen] at matched
          rw [List.filterMap_cons_none seen, ← matched]
          exact ih continued
      | some label' =>
          rw [seen] at matched
          rw [List.filterMap_cons_some seen, run_cons, matched]
          exact ih continued

end Projection

theorem exists_crossing (property : State → Prop) {state final : State} {labels : List Label}
    (reached : run step state labels = some final) (lacking : ¬ property state)
    (holds : property final) :
    ∃ front label back before after, labels = front ++ label :: back ∧
    run step state front = some before ∧
      step before label = some after ∧ ¬ property before ∧ property after := by
  induction labels generalizing state with
  | nil =>
      cases reached
      exact absurd holds lacking
  | cons label rest ih =>
      rw [run_cons] at reached
      obtain ⟨next, taken, continued⟩ := Option.bind_eq_some_iff.mp reached
      by_cases here : property next
      · exact ⟨[], label, rest, state, next, rfl, rfl, taken, lacking, here⟩
      · obtain ⟨front, crossing, back, before, after, rfl, arrived, stepped, without,
          established⟩ := ih continued here
        refine ⟨label :: front, crossing, back, before, after, rfl, ?_, stepped, without,
          established⟩
        rw [run_cons, taken]
        exact arrived

theorem along_of_unspoiled (spoiled : State → Prop)
    (lasting : ∀ state label next, spoiled state → step state label = some next → spoiled next)
    (spoils : ∀ state label next, ¬ good state label → step state label = some next → spoiled next)
    {state final : State} {labels : List Label} (reached : run step state labels = some final)
    (unspoiled : ¬ spoiled final) : Along step good state labels := by
  induction labels generalizing state with
  | nil => trivial
  | cons label rest ih =>
      rw [run_cons] at reached
      obtain ⟨next, taken, continued⟩ := Option.bind_eq_some_iff.mp reached
      constructor
      · apply Classical.byContradiction
        intro missed
        exact unspoiled (run_preserves spoiled lasting
          (spoils state label next missed taken) continued)
      · intro other same
        rw [taken, Option.some.injEq] at same
        exact ih (same ▸ continued)

end Machine
