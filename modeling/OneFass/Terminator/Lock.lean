import OneFass.Xml.Fetch
import OneFass.Terminator.Snapshot

set_option autoImplicit false

namespace OneFass.Terminator

open Runtime Client Xml OrderedMap

section Act

variable (config : Config) (parse : Parser)

def answered : Label → Bool
  | .step _ (.fetch server) =>
      parsable parse (server "one.vmpool.info".toList
        (.string config.one_secret :: loadVmsParameters))
  | _ => true

variable {config parse} {thread : Thread} {before after : Shared} {position next : Position}
    {action : Action}

theorem fetch_answered (call : Call) (server : Server)
    (good : answered config parse (.step thread (.fetch server)) = true) :
    ∃ pool, Built pool ∧ fetch config parse thread call server before =
      (.looping call { before with pool := pool }.pointers .zero,
        { before with pool := pool }.record (.fetched thread pool)) := by
  have returned := (setUp_code_iff parse server config.one_secret call.query before.pool).mpr good
  have built := built_setUp parse server config.one_secret call.query before.pool
  exact ⟨_, built, by simp [fetch, returned]⟩

theorem fetch_unanswered (call : Call) (server : Server)
    (bad : answered config parse (.step thread (.fetch server)) = false) :
    (fetch config parse thread call server before).1.holds = false ∧
      (fetch config parse thread call server before).2.mutex = before.mutex := by
  have failed : (setUp parse server config.one_secret call.query before.pool).2 ≠ .ok 0 := by
    rw [ne_eq, setUp_code_iff]
    exact Bool.eq_false_iff.mp bad
  simp only [fetch]
  split
  next => exact ⟨rfl, rfl⟩
  next rc finished =>
    have nonzero : rc ≠ 0 := by
      rintro rfl
      exact failed finished
    rw [if_pos nonzero]
    exact ⟨rfl, rfl⟩

theorem act_owner (good : answered config parse (.step thread action) = true)
    (owner : before.mutex = some thread ↔ position.holds = true)
    (secured : position.Secured thread before)
    (acts : Acts config parse thread before position action next after) :
    (after.mutex = some thread ↔ next.holds = true) ∧
      (after.mutex = some thread.other ↔ before.mutex = some thread.other) := by
  have different : thread ≠ thread.other := by
    cases thread <;> simp [Thread.other]
  cases acts with
  | enterPending pm => exact ⟨owner, Iff.rfl⟩
  | enterRunning tm uid ttl rest users => exact ⟨owner, Iff.rfl⟩
  | acquire call free => simp [Shared.lock, Position.holds, free, different]
  | flush call => exact ⟨owner, Iff.rfl⟩
  | fetch call server =>
      obtain ⟨pool, built, fetched⟩ := @fetch_answered config parse thread before call server good
      rw [fetched]
      exact ⟨owner, Iff.rfl⟩
  | read call pointer vms totals vm found => exact ⟨owner, Iff.rfl⟩
  | dangle call pointer vms totals lost =>
      obtain ⟨vm, found, _⟩ := Terminator.Secured.deref secured
      rw [lost] at found
      cases found
  | request call vm vms totals now request issued => exact ⟨owner, Iff.rfl⟩
  | spare call vm vms totals now nothing => exact ⟨owner, Iff.rfl⟩
  | release call totals =>
      have held := owner.mpr rfl
      simp [Shared.record, Shared.unlock, Position.holds, held, different]
  | beginWait tm users running => exact ⟨owner, Iff.rfl⟩
  | acquireWait free => simp [Shared.lock, Position.holds, free, different]
  | sleep running =>
      have held := owner.mpr rfl
      simp [Shared.unlock, Position.holds, held, different]
  | wake timedOut free => simp [Shared.lock, Position.holds, free, different]
  | releaseWait timedOut ended =>
      have held := owner.mpr rfl
      simp [Shared.unlock, Position.holds, held, different]

end Act

def Owned (state : State) : Prop :=
  ∀ thread, state.shared.mutex = some thread ↔ (state.position thread).holds = true

theorem owned_initial : Owned initial := by
  intro thread
  cases thread <;> simp [initial, State.position, Position.holds]

theorem owned_step (config : Config) (parse : Parser) (state : State) (label : Label) (next : State)
    (good : answered config parse label = true) (invariant : Invariant state ∧ Owned state)
    (taken : step config parse state label = some next) : Invariant next ∧ Owned next := by
  refine ⟨invariant_step config parse state label next invariant.1 taken, ?_⟩
  cases label with
  | finalize =>
      obtain ⟨_, rfl⟩ := step_finalize config parse taken
      intro thread
      have owner := invariant.2 thread
      cases thread <;> exact owner
  | step thread action =>
      obtain ⟨position, shared, acted, rfl⟩ := step_thread config parse taken
      have result := act_owner good (invariant.2 thread) (invariant.1.secured thread)
        (acts_of_act acted)
      intro any
      rcases thread.cases_other any with rfl | rfl
      · simpa using result.1
      · simp only [State.update_other, State.update_shared]
        exact result.2.trans (invariant.2 _)

section Release

variable {config : Config} {parse : Parser} {thread : Thread} {state : State}

def Releases (config : Config) (parse : Parser) (thread : Thread) (server : Server)
    (state : State) : Prop :=
  ∃ (actions : List Action) (later : State),
    Machine.run (step config parse) state (actions.map (.step thread)) = some later ∧
      later.shared.mutex = none ∧ ∀ other, Action.fetch other ∈ actions → other = server

theorem Releases.before {server : Server} (action : Action) (position : Position) (shared : Shared)
    (acted : act config parse thread state.shared (state.position thread) action =
      some (position, shared))
    (own : ∀ other, action = .fetch other → other = server)
    (releases : Releases config parse thread server (state.update thread position shared)) :
    Releases config parse thread server state := by
  obtain ⟨actions, later, reached, free, fetches⟩ := releases
  have taken : step config parse state (.step thread action) =
      some (state.update thread position shared) := by
    simp [step, acted]
  refine ⟨action :: actions, later, ?_, free, ?_⟩
  · simp [Machine.run_cons, taken, reached]
  · intro other member
    rcases List.mem_cons.mp member with first | rest
    · exact own other first.symm
    · exact fetches other rest

theorem Releases.now {server : Server} (free : state.shared.mutex = none) :
    Releases config parse thread server state :=
  ⟨[], state, rfl, free, by simp⟩

theorem secured_looping {call : Call} {vms : List Pointer} {totals : Totals}
    (invariant : Invariant state) (place : state.position thread = .looping call vms totals) :
    Secured thread state.shared vms := by
  have secured := invariant.secured thread
  rw [place] at secured
  exact secured

theorem invariant_act {action : Action} {position : Position} {shared : Shared}
    (invariant : Invariant state)
    (acted : act config parse thread state.shared (state.position thread) action =
      some (position, shared)) :
    Invariant (state.update thread position shared) := by
  refine invariant_step config parse state (.step thread action) _ invariant ?_
  simp [step, acted]

theorem deciding_acts {call : Call} {vm : VMObject} {vms : List Pointer} {totals : Totals}
    (place : state.position thread = .deciding call vm vms totals) :
    ∃ shared, act config parse thread state.shared (state.position thread) (.decide 0) =
      some (.looping call vms totals, shared) := by
  rw [place]
  cases issued : call.request config 0 vm with
  | none => exact ⟨state.shared, by simp [act, issued]⟩
  | some request => exact ⟨state.shared.record (.requested thread request), by simp [act, issued]⟩

theorem looping_releases (server : Server) {call : Call} {vms : List Pointer} {totals : Totals}
    (invariant : Invariant state) (place : state.position thread = .looping call vms totals) :
    Releases config parse thread server state := by
  induction vms generalizing state totals with
  | nil =>
      refine Releases.before .release .outside _ (by rw [place]; rfl) (by simp) (Releases.now ?_)
      simp [Shared.record, Shared.unlock]
  | cons pointer vms ih =>
      obtain ⟨vm, found, _⟩ := (secured_looping invariant place).deref
      have reads : act config parse thread state.shared (state.position thread) .read =
          some (.deciding call vm vms (call.count totals vm), state.shared) := by
        rw [place]
        simp [act, found]
      have read := invariant_act invariant reads
      obtain ⟨shared, decides⟩ := @deciding_acts config parse thread
        (state.update thread (.deciding call vm vms
          (call.count totals vm)) state.shared) call vm vms
        (call.count totals vm) (by simp)
      have decided := invariant_act read decides
      have rest := ih decided (State.update_position _ _ _ _)
      exact (rest.before (.decide 0) _ _ decides (by simp)).before .read _ _ reads (by simp)

theorem holder_releases (server : Server)
    (good : answered config parse (.step thread (.fetch server)) = true)
    (invariant : Invariant state) (holds : (state.position thread).holds = true) :
    Releases config parse thread server state := by
  have flushed (current : State) (call : Call) (still : Invariant current)
      (place : current.position thread = .flushed call) :
        Releases config parse thread server current := by
    obtain ⟨pool, _, fetched⟩ := @fetch_answered config parse thread current.shared call server good
    have fetches : act config parse thread current.shared (current.position thread)
      (.fetch server) =
        some (fetch config parse thread call server current.shared) := by
      rw [place]
      rfl
    rw [fetched] at fetches
    have filled := invariant_act still fetches
    exact (looping_releases server filled (State.update_position _ _ _ _)).before
      (.fetch server) _ _ fetches (by simp)
  cases place : state.position thread with
  | locked call =>
      have flushes : act config parse thread state.shared (state.position thread) .flush =
          some (.flushed call, state.shared.flush.record (.flushed thread)) := by
        rw [place]
        rfl
      have emptied := invariant_act invariant flushes
      exact (flushed _ call emptied (State.update_position _ _ _ _)).before .flush _ _ flushes
        (by simp)
  | flushed call => exact flushed state call invariant place
  | looping call vms totals => exact looping_releases server invariant place
  | deciding call vm vms totals =>
      obtain ⟨shared, decides⟩ := @deciding_acts config parse thread state call vm vms totals place
      have decided := invariant_act invariant decides
      exact (looping_releases server decided (State.update_position _ _ _ _)).before
        (.decide 0) _ _ decides (by simp)
  | waiting timedOut =>
      cases stopping : timedOut || state.shared.stop_manager with
      | true =>
          refine Releases.before .release .outside
            { state.shared.unlock with users := config.users } ?_ (by simp)
            (Releases.now (by simp [Shared.unlock]))
          rw [place]
          simp [act, stopping]
      | false =>
          refine Releases.before .sleep .asleep state.shared.unlock ?_ (by simp)
            (Releases.now (by simp [Shared.unlock]))
          rw [place]
          simp [act, stopping]
  | _ => simp [place, Position.holds] at holds

end Release

section Leak

variable {config : Config} {parse : Parser} {state next : State}

def Leaked (state : State) : Prop :=
  state.shared.mutex ≠ none ∧ ∀ thread, (state.position thread).holds = false

theorem leaked_step (label : Label) (leaked : Leaked state)
    (taken : step config parse state label = some next) :
    Leaked next := by
  cases label with
  | finalize => exact absurd (step_finalize config parse taken).1 leaked.1
  | step thread action =>
      obtain ⟨position, shared, acted, rfl⟩ := step_thread config parse taken
      have free := leaked.2 thread
      have kept : shared.mutex = state.shared.mutex ∧ position.holds = false := by
        have acts := acts_of_act acted
        generalize state.position thread = place at acts free
        cases acts with
        | enterPending pm => exact ⟨rfl, rfl⟩
        | enterRunning tm uid ttl rest users => exact ⟨rfl, rfl⟩
        | beginWait tm users running => exact ⟨rfl, rfl⟩
        | acquire call unowned => exact absurd unowned leaked.1
        | acquireWait unowned => exact absurd unowned leaked.1
        | wake timedOut unowned => exact absurd unowned leaked.1
        | _ => cases free
      constructor
      · simpa [kept.1] using leaked.1
      · intro any
        rcases thread.cases_other any with rfl | rfl
        · simpa using kept.2
        · simpa using leaked.2 _

theorem leaked_run {labels : List Label} (leaked : Leaked state)
    (reached : Machine.run (step config parse) state labels = some next) : Leaked next :=
  Machine.run_preserves Leaked (fun _ label _ => leaked_step label) leaked reached

theorem failed_fetch_leaks {thread : Thread} {server : Server} (invariant : Invariant state)
    (owned : Owned state) (bad : answered config parse (.step thread (.fetch server)) = false)
    (taken : step config parse state (.step thread (.fetch server)) = some next) : Leaked next := by
  obtain ⟨position, shared, acted, rfl⟩ := step_thread config parse taken
  cases place : state.position thread <;> simp [place, act] at acted
  case flushed call =>
    have held := invariant.owner thread (by rw [place]; rfl)
    have failed := @fetch_unanswered config parse thread state.shared call server bad
    rw [acted] at failed
    have kept : shared.mutex = state.shared.mutex := failed.2
    constructor
    · simp [kept, held]
    · intro any
      rcases thread.cases_other any with rfl | rfl
      · simpa using failed.1
      · have different : thread ≠ thread.other := by
          cases thread <;> simp [Thread.other]
        have idle := (owned thread.other).not
        simp only [held, Option.some.injEq, different, not_false_eq_true, true_iff,
          Bool.not_eq_true] at idle
        simpa using idle

end Leak

def Position.away : Position → Bool
  | .outside | .ended | .beforeWait | .asleep => true
  | .entered _ | .locked _ | .flushed _ | .looping _ _ _ | .deciding _ _ _ _ | .waiting _ => false

theorem mutex_never_leaked (config : Config) (parse : Parser) (labels : List Label) (state : State)
    (fetches : ∀ label ∈ labels, answered config parse label = true)
    (reached : Machine.run (step config parse) initial labels = some state) :
    (state.pm.away = true → state.tm.away = true → state.shared.mutex = none) ∧
      ∀ thread, state.shared.mutex = some thread →
        ∀ server, answered config parse (.step thread (.fetch server)) = true →
          Releases config parse thread server state := by
  have along : Machine.Along (step config parse) (fun _ label =>
    answered config parse label = true) initial labels :=
    Machine.along_of_forall fetches initial
  obtain ⟨invariant, owned⟩ := Machine.run_invariant (fun state => Invariant state ∧ Owned state)
    (owned_step config parse) ⟨invariant_initial, owned_initial⟩ along reached
  constructor
  · intro pmAway tmAway
    cases holder : state.shared.mutex with
    | none => rfl
    | some thread =>
        have inside := (owned thread).mp holder
        cases thread with
        | pm => cases place : state.pm <;> simp_all [State.position, Position.away, Position.holds]
        | tm => cases place : state.tm <;> simp_all [State.position, Position.away, Position.holds]
  · intro thread held server good
    exact holder_releases server good invariant ((owned thread).mp held)

def killing : Config := ⟨[], [], 60, kill⟩

def unreachable : Server := fun _ _ => .timeout

def failedCleanup : List Label := [.enter, .acquire, .flush, .fetch unreachable].map (.step .pm)

theorem mutex_never_leaked_cleanup :
    let parse : Parser := knowing waitingPool
    ∃ state, Machine.run (step killing parse) initial (cleanupRun.take 5) = some state ∧
      state.shared.mutex = some .pm ∧ Releases killing parse .pm (answering waitingPool) state := by
  intro parse
  have held : (Machine.run (step killing parse) initial (cleanupRun.take 5)).map (·.shared.mutex) =
      some (some .pm) := by decide +kernel
  obtain ⟨state, reached, owner⟩ := Option.map_eq_some_iff.mp held
  have fetches : ∀ label ∈ cleanupRun.take 5, answered killing parse label = true := by
    decide +kernel
  exact ⟨state, reached, owner,
    (mutex_never_leaked killing parse _ state fetches reached).2 .pm owner (answering waitingPool)
      (by decide +kernel)⟩

theorem mutex_leaked_on_timeout :
    let parse : Parser := fun _ => none
    ∃ state, Machine.run (step killing parse) initial failedCleanup = some state ∧
      state.pm.away = true ∧ state.tm.away = true ∧
      ∀ labels later, Machine.run (step killing parse) state labels = some later →
        later.shared.mutex ≠ none := by
  intro parse
  refine ⟨_, rfl, rfl, rfl, ?_⟩
  intro labels later reached
  refine (leaked_run ⟨?_, ?_⟩ reached).1
  · exact nofun
  · intro thread
    cases thread <;> rfl

end OneFass.Terminator
