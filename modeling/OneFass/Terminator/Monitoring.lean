import OneFass.Database.Requests
import OneFass.Terminator.Atomic
import OneFass.Terminator.Lock

set_option autoImplicit false

namespace OneFass.Terminator

open Runtime Client Xml OrderedMap LineProtocol Database

def Position.waits : Position → Bool
  | .beforeWait | .waiting _ | .asleep => true
  | .outside | .ended | .entered _ | .locked _ | .flushed _ | .looping _ _ _ | .deciding _ _ _ _ =>
      false

structure Visit where
  uid : Int
  ttl : Int
  timestamp : Int
  code : Int
  totals : Totals

structure Row where
  key : Text
  value : Text
  uid : Int
  timestamp : Int

def userTag : Text := "user=".toList

def Visit.rows (format : ℚ → Text) (visit : Visit) : List Row :=
  [⟨"cpu".toList, format visit.totals.cpu, visit.uid, visit.timestamp⟩,
    ⟨"memory".toList, intText visit.totals.memory, visit.uid, visit.timestamp⟩]

inductive Stamp where
  | idle
  | due
  | read (now : Int)
  deriving DecidableEq

structure Monitor where
  terminator : State
  stamp : Stamp
  -- the user whose call has not returned
  current : Option (Int × Int)
  -- what is left to be written for the last call
  rows : List Row
  -- oldest first
  visits : List Visit
  sent : List (Connection × Text)
  stamps : List Int

namespace Monitor

inductive Label where
  | terminator (label : Terminator.Label)
  | stamp (now : Int)
  | write (connection : Connection)

variable (config : Config) (parse : Parser) (db : InfluxDb) (format : ℚ → Text)

-- the loop does not go on before it has read the clock and written its rows
def mayTake (monitor : Monitor) : Terminator.Label → Bool
  | .step .tm .enter =>
      monitor.rows.isEmpty && (match monitor.stamp with | .read _ => true | _ => false)
  | .step .tm .beginWait => monitor.rows.isEmpty && decide (monitor.stamp ≠ .due)
  | _ => true

def visit (monitor : Monitor) (code : Int) (totals : Totals) : Monitor :=
  match monitor.current, monitor.stamp with
  | some (uid, ttl), .read now =>
      let visit := ⟨uid, ttl, now, code, totals⟩
      { monitor with
        current := none, rows := visit.rows format, visits := monitor.visits ++ [visit] }
  | _, _ => monitor

def follow (monitor : Monitor) (action : Action) (next : State) : Monitor :=
  let after := { monitor with terminator := next }
  match action, monitor.terminator.tm, next.tm, next.shared.trace with
  | .enter, _, _, _ => { after with current := monitor.terminator.shared.users.head? }
  | .release, .waiting _, _, _ => { after with stamp := .due }
  | .release, .looping _ _ _, .outside, .returned _ _ code totals :: _ =>
      after.visit format code totals
  | .fetch _, _, .outside, .returned _ _ code totals :: _ => after.visit format code totals
  | _, _, _, _ => after

def step (monitor : Monitor) : Label → Option Monitor
  | .terminator label =>
      if monitor.mayTake label && inRange monitor.terminator label then
        (Terminator.step config parse monitor.terminator label).map fun next =>
          match label with
          | .step .tm action => monitor.follow format action next
          | _ => { monitor with terminator := next }
      else none
  | .stamp now =>
      if monitor.stamp = .due then
        some { monitor with stamp := .read now, stamps := monitor.stamps ++ [now] }
      else none
  | .write connection =>
      match monitor.rows with
      | [] => none
      | row :: rest =>
          match db.write row.key row.value (userTag ++ intText row.uid) row.timestamp
            connection with
          | .error _ => none
          | .ok exchange =>
              some { monitor with
                rows := rest, sent := monitor.sent ++ [(connection, exchange.received)] }

def initial : Monitor := ⟨Terminator.initial, .idle, none, [], [], [], []⟩

inductive Steps (monitor : Monitor) : Label → Monitor → Prop where
  | elsewhere {label : Terminator.Label} {next : State} (same : next.tm = monitor.terminator.tm)
      (users : next.shared.users = monitor.terminator.shared.users) :
      Steps monitor (.terminator label) { monitor with terminator := next }
  | enter {next : State} {uid ttl now : Int} {rest : List (Int × Int)}
      (outside : monitor.terminator.tm = .outside)
      (users : monitor.terminator.shared.users = (uid, ttl) :: rest)
      (stamped : monitor.stamp = .read now)
      (written : monitor.rows = []) (entered : next.tm = .entered (.killRunning uid ttl))
      (left : next.shared.users = rest) :
      Steps monitor (.terminator (.step .tm .enter))
        { monitor with terminator := next, current := some (uid, ttl) }
  | inside {action : Action} {next : State} {call : Call}
      (calling : monitor.terminator.tm.call = some call)
      (goes : next.tm.call = some call ∨ next.tm = .ended)
      (users : next.shared.users = monitor.terminator.shared.users) :
      Steps monitor (.terminator (.step .tm action)) { monitor with terminator := next }
  | returns {action : Action} {next : State} {call : Call} {code : Int} {totals : Totals}
      (calling : monitor.terminator.tm.call = some call) (outside : next.tm = .outside)
      (users : next.shared.users = monitor.terminator.shared.users)
      (acts : Acts config parse .tm monitor.terminator.shared monitor.terminator.tm action .outside
        next.shared)
      (trace : next.shared.trace =
        .returned .tm call code totals :: monitor.terminator.shared.trace) :
      Steps monitor (.terminator (.step .tm action))
        ({ monitor with terminator := next }.visit format code totals)
  | begins {next : State} (outside : monitor.terminator.tm = .outside)
      (stamped : monitor.stamp ≠ .due)
      (written : monitor.rows = []) (waits : next.tm = .beforeWait)
      (none' : monitor.terminator.shared.users = [])
      (users : next.shared.users = []) :
      Steps monitor (.terminator (.step .tm .beginWait)) { monitor with terminator := next }
  | waits {action : Action} {next : State} (here : monitor.terminator.tm.waits = true)
      (there : next.tm.waits = true)
      (users : next.shared.users = monitor.terminator.shared.users) :
      Steps monitor (.terminator (.step .tm action)) { monitor with terminator := next }
  | leaves {next : State} {timedOut : Bool} (waiting : monitor.terminator.tm = .waiting timedOut)
      (outside : next.tm = .outside) (users : next.shared.users = config.users) :
      Steps monitor (.terminator (.step .tm .release))
        { monitor with terminator := next, stamp := .due }
  | stamp (now : Int) (due : monitor.stamp = .due) :
      Steps monitor (.stamp now)
        { monitor with stamp := .read now, stamps := monitor.stamps ++ [now] }
  | write {row : Row} {rest : List Row} {connection : Connection} {exchange : Exchange}
      (first : monitor.rows = row :: rest)
      (wrote : db.write row.key row.value (userTag ++ intText row.uid) row.timestamp connection =
        .ok exchange) :
      Steps monitor (.write connection)
        { monitor with rows := rest, sent := monitor.sent ++ [(connection, exchange.received)] }

end Monitor

section Steps

variable {config : Config} {parse : Parser} {db : InfluxDb} {format : ℚ → Text}
    {monitor after : Monitor}

@[simp] theorem terminator_visit (format : ℚ → Text) (monitor : Monitor) (code : Int)
    (totals : Totals) :
    (monitor.visit format code totals).terminator = monitor.terminator := by
  unfold Monitor.visit
  split <;> rfl

theorem terminator_follow (format : ℚ → Text) (monitor : Monitor) (action : Action) (next : State) :
    (monitor.follow format action next).terminator = next := by
  unfold Monitor.follow
  split <;> simp

theorem act_pm {shared next : Shared} {position place : Position} {action : Action}
    (calls : position.waits = false)
    (acts : Acts config parse .pm shared position action place next) :
    place.waits = false ∧ next.users = shared.users := by
  cases acts with
  | enterRunning tm => cases tm
  | beginWait tm => cases tm
  | fetch call server =>
      rcases @fetch_cases config parse .pm shared call server with ⟨place, _, same⟩
        | ⟨place, _, _, same⟩ | ⟨_, _, same, place⟩ <;>
        rw [same, place] <;> exact ⟨rfl, rfl⟩
  | enterPending | acquire | flush | read | dangle | request | spare | release => exact ⟨rfl, rfl⟩
  | acquireWait | sleep | wake | releaseWait => cases calls

theorem steps_of_tm {action : Action} {position : Position} {shared : Shared}
    (may : monitor.mayTake (.step .tm action) = true)
    (acts : Acts config parse .tm monitor.terminator.shared monitor.terminator.tm action position
      shared) :
    monitor.Steps config parse db format (.terminator (.step .tm action))
      (monitor.follow format action (monitor.terminator.update .tm position shared)) := by
  generalize here : monitor.terminator.tm = place at acts
  cases acts with
  | enterPending pm => cases pm
  | enterRunning _ uid ttl rest users =>
      simp only [Monitor.mayTake, Bool.and_eq_true, List.isEmpty_iff] at may
      have listed : monitor.terminator.shared.users.head? = some (uid, ttl) := by rw [users]; rfl
      obtain ⟨now, stamped⟩ : ∃ now, monitor.stamp = .read now := by
        cases stamp : monitor.stamp <;> simp_all
      simp only [Monitor.follow, listed]
      refine .enter here users stamped may.1 ?_ ?_ <;> rfl
  | acquire call free =>
      simp only [Monitor.follow]
      exact .inside (by rw [here]; rfl) (Or.inl rfl) rfl
  | flush call =>
      simp only [Monitor.follow]
      exact .inside (by rw [here]; rfl) (Or.inl rfl) rfl
  | fetch call server =>
      have calling : monitor.terminator.tm.call = some call := by rw [here]; rfl
      have acts : Acts config parse .tm monitor.terminator.shared (.flushed call)
        (.fetch server) _ _ := .fetch call server
      rw [← here] at acts
      rcases @fetch_cases config parse .tm monitor.terminator.shared call server with
        ⟨place, _, same⟩ | ⟨place, _, code, same⟩ | ⟨_, _, same, place⟩
      · rw [same, place]
        exact .inside calling (Or.inr rfl) rfl
      · rw [place] at acts
        rw [same, place]
        exact .returns calling rfl rfl (same ▸ acts) rfl
      · rw [same, place]
        exact .inside calling (Or.inl rfl) rfl
  | read call pointer vms totals vm found =>
      simp only [Monitor.follow]
      exact .inside (by rw [here]; rfl) (Or.inl rfl) rfl
  | dangle call pointer vms totals lost =>
      simp only [Monitor.follow]
      exact .inside (by rw [here]; rfl) (Or.inr rfl) rfl
  | request call vm vms totals now request issues =>
      simp only [Monitor.follow]
      exact .inside (by rw [here]; rfl) (Or.inl rfl) rfl
  | spare call vm vms totals now nothing =>
      simp only [Monitor.follow]
      exact .inside (by rw [here]; rfl) (Or.inl rfl) rfl
  | release call totals =>
      simp only [Monitor.follow, here]
      exact .returns (by rw [here]; rfl) rfl rfl (by rw [here]; exact .release call totals) rfl
  | beginWait _ users running =>
      simp only [Monitor.mayTake, Bool.and_eq_true, List.isEmpty_iff, decide_eq_true_eq] at may
      simp only [Monitor.follow]
      exact .begins here may.2 may.1 rfl users users
  | acquireWait free =>
      simp only [Monitor.follow]
      exact .waits (by rw [here]; rfl) rfl rfl
  | sleep running =>
      simp only [Monitor.follow]
      exact .waits (by rw [here]; rfl) rfl rfl
  | wake timedOut free =>
      simp only [Monitor.follow]
      exact .waits (by rw [here]; rfl) rfl rfl
  | releaseWait timedOut ended =>
      simp only [Monitor.follow, here]
      exact .leaves here rfl rfl

theorem terminator_of_step {moved : Label}
    (taken : monitor.step config parse db format (.terminator moved) = some after) :
    inRange monitor.terminator moved = true ∧
      Terminator.step config parse monitor.terminator moved = some after.terminator := by
  simp only [Monitor.step, Option.ite_none_right_eq_some, Bool.and_eq_true] at taken
  obtain ⟨⟨_, ranged⟩, taken⟩ := taken
  obtain ⟨next, stepped, rfl⟩ := Option.map_eq_some_iff.mp taken
  refine ⟨ranged, ?_⟩
  split
  · rw [terminator_follow]
    exact stepped
  · exact stepped

theorem steps_of_step {label : Monitor.Label} (pm : monitor.terminator.pm.waits = false)
    (taken : monitor.step config parse db format label = some after) :
    monitor.Steps config parse db format label after ∧ after.terminator.pm.waits = false := by
  cases label with
  | stamp now =>
      simp only [Monitor.step, Option.ite_none_right_eq_some, Option.some.injEq] at taken
      obtain ⟨due, rfl⟩ := taken
      exact ⟨.stamp now due, pm⟩
  | write connection =>
      simp only [Monitor.step] at taken
      split at taken
      next => cases taken
      next row rest first =>
        split at taken
        next => cases taken
        next exchange wrote =>
          cases taken
          exact ⟨.write first wrote, pm⟩
  | terminator moved =>
      simp only [Monitor.step, Option.ite_none_right_eq_some, Bool.and_eq_true] at taken
      obtain ⟨⟨may, _⟩, taken⟩ := taken
      obtain ⟨next, stepped, rfl⟩ := Option.map_eq_some_iff.mp taken
      cases moved with
      | finalize =>
          obtain ⟨_, rfl⟩ := step_finalize config parse stepped
          exact ⟨.elsewhere rfl rfl, pm⟩
      | step thread action =>
          obtain ⟨position, shared, acted, rfl⟩ := step_thread config parse stepped
          have acts := acts_of_act acted
          cases thread with
          | pm =>
              obtain ⟨calls, users⟩ := act_pm pm acts
              exact ⟨.elsewhere rfl users, calls⟩
          | tm =>
              have steps := @steps_of_tm config parse db format monitor action position shared may
                acts
              refine ⟨steps, ?_⟩
              simp only [terminator_follow]
              exact pm

theorem threads_of_step {label : Monitor.Label}
    (taken : monitor.step config parse db format label = some after) :
    after.terminator = monitor.terminator ∨ ∃ moved, inRange monitor.terminator moved = true ∧
      Terminator.step config parse monitor.terminator moved = some after.terminator := by
  cases label with
  | terminator moved => exact Or.inr ⟨moved, terminator_of_step taken⟩
  | stamp now =>
      simp only [Monitor.step, Option.ite_none_right_eq_some, Option.some.injEq] at taken
      exact Or.inl (taken.2 ▸ rfl)
  | write connection =>
      simp only [Monitor.step] at taken
      split at taken
      next => cases taken
      next =>
        split at taken
        next => cases taken
        next =>
          cases taken
          exact Or.inl rfl

end Steps

section Rounds

variable {config : Config} {parse : Parser} {db : InfluxDb} {format : ℚ → Text}
    {monitor after : Monitor}
  {label : Monitor.Label}

def Visit.entry (visit : Visit) : (Int × Int) × Int := ((visit.uid, visit.ttl), visit.timestamp)

def Monitor.underway (monitor : Monitor) : List ((Int × Int) × Int) :=
  match monitor.current, monitor.stamp with
  | some user, .read now => [(user, now)]
  | _, _ => []

def Monitor.ahead (monitor : Monitor) : List ((Int × Int) × Int) :=
  match monitor.stamp with
  | .read now => monitor.terminator.shared.users.map fun user => (user, now)
  | _ => []

structure Rounds (config : Config) (monitor : Monitor) : Prop where
  calls : ∀ call, monitor.terminator.tm.call = some call →
    ∃ uid ttl now, call = .killRunning uid ttl ∧
    monitor.current = some (uid, ttl) ∧ monitor.stamp = .read now
  rests : monitor.terminator.tm = .outside ∨ monitor.terminator.tm.waits = true →
    monitor.current = none
  waits : monitor.terminator.tm.waits = true → monitor.terminator.shared.users = [] ∧
    monitor.stamp ≠ .due
  due : monitor.stamp = .due → monitor.terminator.tm = .outside ∧
    monitor.terminator.shared.users = config.users
  rounds : monitor.visits.map Visit.entry ++ monitor.underway ++ monitor.ahead =
    monitor.stamps.flatMap fun now => config.users.map fun user => (user, now)

theorem rounds_initial : Rounds config Monitor.initial where
  calls := by rintro call ⟨⟩
  rests _ := rfl
  waits := by rintro ⟨⟩
  due := by rintro ⟨⟩
  rounds := rfl

theorem not_outside_of_inside {position : Position} {call : Call}
    (inside : position.call = some call ∨ position = .ended) :
    position ≠ .outside ∧ position.waits = false := by
  rcases inside with calling | rfl
  · cases position <;> cases calling <;> exact ⟨nofun, rfl⟩
  · exact ⟨nofun, rfl⟩

theorem not_call_of_waits {position : Position} (waits : position.waits = true) :
    position ≠ .outside ∧ position.call = none := by
  cases position <;> cases waits <;> exact ⟨nofun, rfl⟩

theorem Rounds.not_due {call : Call} (rounds : Rounds config monitor)
    (calling : monitor.terminator.tm.call = some call) :
    monitor.stamp ≠ .due := by
  obtain ⟨_, _, now, _, _, stamped⟩ := rounds.calls call calling
  simp [stamped]

theorem rounds_step (rounds : Rounds config monitor)
    (taken : monitor.Steps config parse db format label after) :
    Rounds config after := by
  cases taken with
  | elsewhere same users =>
      refine ⟨?_, ?_, ?_, ?_, ?_⟩
      · simpa only [same] using rounds.calls
      · simpa only [same] using rounds.rests
      · simpa only [same, users] using rounds.waits
      · simpa only [same, users] using rounds.due
      · simpa only [Monitor.underway, Monitor.ahead, users] using rounds.rounds
  | enter outside users stamped written entered left =>
      have none' := rounds.rests (Or.inl outside)
      refine ⟨?_, ?_, ?_, ?_, ?_⟩
      · intro call calling
        rw [entered] at calling
        cases calling
        exact ⟨_, _, _, rfl, rfl, stamped⟩
      · rw [entered]
        rintro (here | here) <;> cases here
      · rw [entered]
        intro here
        cases here
      · simp [stamped]
      · have before := rounds.rounds
        simp only [Monitor.underway, Monitor.ahead, none', stamped, users, List.map_cons,
          List.append_nil] at before
        simp only [Monitor.underway, Monitor.ahead, stamped, left, List.append_assoc,
          List.singleton_append]
        exact before
  | inside calling goes users =>
      have place := not_outside_of_inside goes
      refine ⟨?_, ?_, ?_, ?_, ?_⟩
      · intro call called
        rcases goes with same | ended
        · exact rounds.calls call (calling.trans (same.symm.trans called))
        · rw [ended] at called
          cases called
      · rintro (outside | waits)
        · exact absurd outside place.1
        · rw [place.2] at waits
          cases waits
      · intro waits
        rw [place.2] at waits
        cases waits
      · exact fun due => absurd due (rounds.not_due calling)
      · simpa only [Monitor.underway, Monitor.ahead, users] using rounds.rounds
  | returns calling outside users acts trace =>
      obtain ⟨uid, ttl, now, _, current, stamped⟩ := rounds.calls _ calling
      have before := rounds.rounds
      simp only [Monitor.underway, Monitor.ahead, current, stamped] at before
      simp only [Monitor.visit, current, stamped]
      refine ⟨?_, ?_, ?_, ?_, ?_⟩
      · simp only [outside]
        rintro call ⟨⟩
      · exact fun _ => rfl
      · simp only [outside]
        rintro ⟨⟩
      · rintro ⟨⟩
      · simp only [Monitor.underway, Monitor.ahead, List.map_append, List.map_singleton,
          Visit.entry, users, List.append_nil]
        exact before
  | begins outside stamped written waits none' users =>
      refine ⟨?_, fun _ => rounds.rests (Or.inl outside), fun _ => ⟨users, stamped⟩, fun due =>
        absurd due stamped, ?_⟩
      · simp only [waits]
        rintro call ⟨⟩
      · simpa only [Monitor.underway, Monitor.ahead, users, none'] using rounds.rounds
  | waits here there users =>
      have place := not_call_of_waits there
      refine ⟨?_, fun _ => rounds.rests (Or.inr here), ?_, ?_, ?_⟩
      · intro call calling
        rw [place.2] at calling
        cases calling
      · simpa only [users] using fun _ => rounds.waits here
      · exact fun due => absurd due (rounds.waits here).2
      · simpa only [Monitor.underway, Monitor.ahead, users] using rounds.rounds
  | leaves waiting outside users =>
      have waits : monitor.terminator.tm.waits = true := by rw [waiting]; rfl
      have none' := rounds.rests (Or.inr waits)
      obtain ⟨nobody, _⟩ := rounds.waits waits
      refine ⟨?_, fun _ => none', ?_, fun _ => ⟨outside, users⟩, ?_⟩
      · simp only [outside]
        rintro call ⟨⟩
      · simp only [outside]
        rintro ⟨⟩
      · have before := rounds.rounds
        simp only [Monitor.underway, Monitor.ahead, none', nobody, List.map_nil,
          List.append_nil] at before
        simp only [Monitor.underway, Monitor.ahead, none', List.append_nil]
        cases stamp : monitor.stamp <;>
          simp only [stamp, List.append_nil] at before <;> exact before
  | stamp now due =>
      obtain ⟨outside, users⟩ := rounds.due due
      have none' := rounds.rests (Or.inl outside)
      refine ⟨?_, fun _ => none', ?_, by rintro ⟨⟩, ?_⟩
      · simp only [outside]
        rintro call ⟨⟩
      · simp only [outside]
        rintro ⟨⟩
      · have before := rounds.rounds
        simp only [Monitor.underway, Monitor.ahead, none', due, List.append_nil] at before
        simp only [Monitor.underway, Monitor.ahead, none', users, List.append_nil, before,
          List.flatMap_append, List.flatMap_singleton]
  | write first wrote => exact ⟨rounds.calls, rounds.rests, rounds.waits, rounds.due, rounds.rounds⟩

end Rounds

section Measured

variable {config : Config} {parse : Parser} {db : InfluxDb} {format : ℚ → Text}
    {monitor after : Monitor}
  {label : Monitor.Label}

def Visit.call (visit : Visit) : Call := .killRunning visit.uid visit.ttl

def Visit.result (visit : Visit) : Call × Int × Totals := (visit.call, visit.code, visit.totals)

def returnsOf (thread : Thread) : List Event → List (Call × Int × Totals)
  | [] => []
  | .returned other call code totals :: older =>
      if other = thread then returnsOf thread older ++ [(call, code, totals)]
      else returnsOf thread older
  | _ :: older => returnsOf thread older

/-- The visit is the thread's next return after the earlier ones, of a call that nobody disturbed. -/
def Measured (config : Config) (parse : Parser) (trace : List Event) (earlier : List Visit)
    (visit : Visit) : Prop :=
  ∃ later older, trace = later ++ .returned .tm visit.call visit.code visit.totals :: older ∧
    returnsOf .tm older = earlier.map Visit.result ∧
    Performed config parse .tm visit.call visit.code visit.totals older

theorem returnsOf_split {thread : Thread} {trace : List Event}
    {earlier later : List (Call × Int × Totals)} {call : Call} {code : Int} {totals : Totals}
    (listed : returnsOf thread trace = earlier ++ (call, code, totals) :: later) :
    ∃ newer older, trace = newer ++ .returned thread call code totals :: older ∧
    returnsOf thread older = earlier := by
  induction trace generalizing later with
  | nil => simp [returnsOf] at listed
  | cons event rest ih =>
      have further {last : List (Call × Int × Totals)}
          (same : returnsOf thread rest = earlier ++ (call, code, totals) :: last) :
          ∃ newer older, event :: rest = newer ++ .returned thread call code totals :: older ∧
            returnsOf thread older = earlier := by
        obtain ⟨newer, older, rfl, own⟩ := ih same
        exact ⟨event :: newer, older, rfl, own⟩
      cases event with
      | returned other own other_code other_totals =>
          by_cases same : other = thread
          · subst same
            rw [returnsOf, if_pos rfl] at listed
            -- it is the newest return, or the newest one is later
            rcases List.eq_nil_or_concat later with rfl | ⟨last, newest, rfl⟩
            · obtain ⟨all, newest⟩ := List.append_inj' listed rfl
              cases newest
              exact ⟨[], rest, rfl, all⟩
            · have shorter : returnsOf other rest = earlier ++ (call, code, totals) :: last := by
                rw [List.concat_eq_append, ← List.cons_append, ← List.append_assoc] at listed
                exact (List.append_inj' listed rfl).1
              exact further shorter
          · rw [returnsOf, if_neg same] at listed
            exact further listed
      | entered | flushed | fetched | requested | dangling => exact further listed

section Returns

variable {thread : Thread} {shared later : Shared} {position place : Position} {action : Action}
    {state next : State}

theorem act_returns (acts : Acts config parse thread shared position action place later) :
    returnsOf .tm later.trace = returnsOf .tm shared.trace ∨
      thread = .tm ∧ place = .outside ∧ ∃ call, position.call = some call := by
  cases acts with
  | fetch call server =>
      rcases @fetch_cases config parse thread shared call server with ⟨_, _, same⟩
        | ⟨left, _, _, same⟩ | ⟨_, _, same, _⟩
      · exact Or.inl (by rw [same])
      · cases thread with
        | pm => exact Or.inl (by rw [same]; rfl)
        | tm => exact Or.inr ⟨rfl, left, call, rfl⟩
      · exact Or.inl (by rw [same]; rfl)
  | release call totals =>
      cases thread with
      | pm => exact Or.inl rfl
      | tm => exact Or.inr ⟨rfl, rfl, call, rfl⟩
  | enterPending | enterRunning | flush | dangle | request => exact Or.inl rfl
  | acquire | read | spare | beginWait | acquireWait | sleep | wake | releaseWait =>
      exact Or.inl rfl

theorem step_returns {moved : Label}
    (taken : Terminator.step config parse state moved = some next) :
    returnsOf .tm next.shared.trace = returnsOf .tm state.shared.trace ∨
      next.tm = .outside ∧ ∃ call, state.tm.call = some call := by
  cases moved with
  | finalize =>
      obtain ⟨_, rfl⟩ := step_finalize config parse taken
      exact Or.inl rfl
  | step thread action =>
      obtain ⟨position, shared, acted, rfl⟩ := step_thread config parse taken
      rw [State.update_shared]
      refine (act_returns (acts_of_act acted)).imp_right ?_
      rintro ⟨rfl, outside, calling⟩
      exact ⟨outside, calling⟩

end Returns

structure Counted (config : Config) (parse : Parser) (monitor : Monitor) : Prop where
  rounds : Rounds config monitor
  serialized : Serialized config parse monitor.terminator
  pm : monitor.terminator.pm.waits = false
  returned : returnsOf .tm monitor.terminator.shared.trace = monitor.visits.map Visit.result

theorem counted_initial : Counted config parse Monitor.initial :=
  ⟨rounds_initial, serialized_initial, rfl, rfl⟩

theorem counted_step (counted : Counted config parse monitor)
    (taken : monitor.step config parse db format label = some after) :
    Counted config parse after := by
  obtain ⟨steps, pm⟩ := steps_of_step counted.pm taken
  refine ⟨rounds_step counted.rounds steps, ?_, pm, ?_⟩
  · rcases threads_of_step taken with same | ⟨inner, ranged, stepped⟩
    · exact same ▸ counted.serialized
    · exact serialized_step _ _ _ ranged counted.serialized stepped
  · have kept (stays : after.terminator.tm = .outside → monitor.terminator.tm.call = none) :
        returnsOf .tm after.terminator.shared.trace = monitor.visits.map Visit.result := by
      rcases threads_of_step taken with same | ⟨inner, _, stepped⟩
      · rw [same, counted.returned]
      · refine (step_returns stepped).elim (fun same => same.trans counted.returned) ?_
        rintro ⟨outside, call, calling⟩
        rw [stays outside] at calling
        cases calling
    cases steps with
    | returns calling outside users acts trace =>
        obtain ⟨uid, ttl, now, rfl, current, stamped⟩ := counted.rounds.calls _ calling
        simp only [Monitor.visit, current, stamped]
        rw [trace, returnsOf, if_pos rfl, counted.returned, List.map_append]
        rfl
    | elsewhere same users =>
        refine kept fun outside => ?_
        rw [← same, outside]
        rfl
    | enter _ _ _ _ entered =>
        refine kept fun outside => ?_
        rw [entered] at outside
        cases outside
    | inside _ goes => exact kept fun outside => absurd outside (not_outside_of_inside goes).1
    | begins here => exact kept fun _ => by rw [here]; rfl
    | waits here => exact kept fun _ => (not_call_of_waits here).2
    | leaves waiting => exact kept fun _ => by rw [waiting]; rfl
    | stamp now due => exact kept fun outside => by rw [outside]; rfl
    | write => exact counted.returned

end Measured

section Failures

variable {config : Config} {parse : Parser} {db : InfluxDb} {format : ℚ → Text}
    {monitor after : Monitor}
  {label : Monitor.Label} {state next : State}

theorem owned_or_leaked {moved : Label} (invariant : Invariant state) (owned : Owned state)
    (taken : Terminator.step config parse state moved = some next) : Owned next ∨ Leaked next := by
  by_cases good : answered config parse moved = true
  · exact Or.inl (owned_step config parse state moved next good ⟨invariant, owned⟩ taken).2
  · rw [Bool.not_eq_true] at good
    cases moved with
    | finalize => cases good
    | step thread action =>
        cases action with
        | fetch server => exact Or.inr (failed_fetch_leaks invariant owned good taken)
        | enter | acquire | flush | read | decide | release | beginWait | sleep | wake => cases good

theorem holds_of_returns {thread : Thread} {call : Call} {action : Action} {shared later : Shared}
    {position : Position} (calling : position.call = some call)
    (acts : Acts config parse thread shared position action .outside later) :
    position.holds = true := by
  generalize left : Position.outside = place at acts
  cases acts with
  | fetch | release => rfl
  | enterPending | enterRunning | acquire | flush | read | dangle | request | spare => cases left
  | beginWait | acquireWait | sleep | wake => cases left
  | releaseWait => cases calling

theorem code_of_freed {thread : Thread} {call : Call} {action : Action} {shared later : Shared}
    {position : Position} {code : Int} {totals : Totals} (calling : position.call = some call)
    (held : shared.mutex = some thread)
    (acts : Acts config parse thread shared position action .outside later)
    (trace : later.trace = .returned thread call code totals :: shared.trace)
    (freed : later.mutex ≠ some thread) : code = 0 := by
  generalize left : Position.outside = place at acts
  cases acts with
  | release =>
      cases trace
      rfl
  | fetch call server =>
      refine absurd ?_ freed
      rcases @fetch_cases config parse thread shared call server with ⟨_, _, same⟩ | ⟨_, _, _, same⟩
        | ⟨_, _, same, _⟩ <;>
        rw [same] <;> exact held
  | enterPending | enterRunning | acquire | flush | read | dangle | request | spare => cases left
  | beginWait | acquireWait | sleep | wake => cases left
  | releaseWait => cases calling

def Failing (monitor : Monitor) : Prop :=
  Owned monitor.terminator ∧ (∀ visit ∈ monitor.visits, visit.code = 0) ∨
    Leaked monitor.terminator ∧ ∀ visit ∈ monitor.visits.dropLast, visit.code = 0

theorem failing_initial : Failing Monitor.initial :=
  Or.inl ⟨owned_initial, by simp [Monitor.initial]⟩

theorem visits_leaked (leaked : Leaked monitor.terminator)
    (steps : monitor.Steps config parse db format label after) :
    after.visits = monitor.visits := by
  cases steps with
  | returns calling outside users acts trace =>
      have lost : monitor.terminator.tm.holds = false := leaked.2 .tm
      rw [holds_of_returns calling acts] at lost
      cases lost
  | elsewhere | enter | inside | begins | waits | leaves | stamp | write => rfl

theorem failing_of_owned (counted : Counted config parse monitor)
    (fine : ∀ visit ∈ monitor.visits, visit.code = 0)
    (steps : monitor.Steps config parse db format label after)
    (moved : Owned after.terminator ∨ Leaked after.terminator) : Failing after := by
  cases steps with
  | returns calling outside users acts trace =>
      obtain ⟨uid, ttl, now, _, current, stamped⟩ := counted.rounds.calls _ calling
      simp only [terminator_visit] at moved
      simp only [Failing, Monitor.visit, current, stamped]
      rcases moved with freed | leaked
      · have held := counted.serialized.base.owner .tm (holds_of_returns calling acts)
        have zero := code_of_freed calling held acts trace fun still => by
          have holding := (freed .tm).mp still
          rw [State.position, outside] at holding
          cases holding
        refine Or.inl ⟨freed, fun visit member => ?_⟩
        rcases List.mem_append.mp member with old | new
        · exact fine visit old
        · rw [List.mem_singleton.mp new, zero]
      · refine Or.inr ⟨leaked, ?_⟩
        rw [List.dropLast_concat]
        exact fine
  | elsewhere | enter | inside | begins | waits | leaves | stamp | write =>
      rcases moved with freed | leaked
      · exact Or.inl ⟨freed, fine⟩
      · exact Or.inr ⟨leaked, fun other member => fine other (List.mem_of_mem_dropLast member)⟩

theorem leaked_monitor (leaked : Leaked monitor.terminator)
    (taken : monitor.step config parse db format label = some after) : Leaked after.terminator := by
  rcases threads_of_step taken with same | ⟨inner, _, stepped⟩
  · exact same ▸ leaked
  · exact leaked_step inner leaked stepped

theorem failing_step (counted : Counted config parse monitor) (failing : Failing monitor)
    (taken : monitor.step config parse db format label = some after) : Failing after := by
  have steps := (steps_of_step counted.pm taken).1
  rcases failing with ⟨owned, fine⟩ | ⟨leaked, fine⟩
  · refine failing_of_owned counted fine steps ?_
    rcases threads_of_step taken with same | ⟨inner, _, stepped⟩
    · exact Or.inl (same ▸ owned)
    · exact owned_or_leaked counted.serialized.base owned stepped
  · refine Or.inr ⟨leaked_monitor leaked taken, ?_⟩
    rw [visits_leaked leaked steps]
    exact fine

end Failures

section Written

variable {config : Config} {parse : Parser} {db : InfluxDb} {format : ℚ → Text}
    {monitor after : Monitor}
  {label : Monitor.Label}

def Row.point (row : Row) : Tagged :=
  measured row.key row.value [(userName, intText row.uid)] row.timestamp

structure Written (db : InfluxDb) (format : ℚ → Text) (monitor : Monitor) : Prop where
  outside : monitor.rows = [] ∨ monitor.terminator.tm = .outside
  rows : ∃ done, monitor.visits.flatMap (Visit.rows format) = done ++ monitor.rows ∧
    List.Forall₂ (fun row entry => entry.1.completes = true →
      Delivers db entry.2 row.point) done monitor.sent

theorem written_initial : Written db format Monitor.initial := ⟨Or.inl rfl, [], rfl, .nil⟩

theorem userTag_eq (uid : Int) : userTag ++ intText uid = pairText (userName, intText uid) := by
  have tag : userTag = userName ++ ['='] := by decide +kernel
  rw [tag, pairText, List.append_assoc]
  rfl

theorem row_delivers {row : Row} {connection : Connection} {exchange : Exchange}
    (addressable : db.Addressable) (named : Token row.key) (valued : Token row.value)
    (wrote : db.write row.key row.value (userTag ++ intText row.uid) row.timestamp connection =
      .ok exchange)
    (completes : connection.completes = true) : Delivers db exchange.received row.point := by
  rw [userTag_eq] at wrote
  have name : Token userName := by decide +kernel
  exact write_delivers addressable named valued ⟨name, intText_token _⟩ wrote completes

theorem rows_tokens (printed : ∀ cpu, Token (format cpu)) (visit : Visit) :
    ∀ row ∈ visit.rows format, Token row.key ∧ Token row.value := by
  have names : Token "cpu".toList ∧ Token "memory".toList := by decide +kernel
  refine List.forall_mem_cons.mpr ⟨⟨names.1, printed _⟩,
    List.forall_mem_cons.mpr ⟨⟨names.2, intText_token _⟩, ?_⟩⟩
  exact List.forall_mem_nil _

theorem written_step (addressable : db.Addressable) (printed : ∀ cpu, Token (format cpu))
    (counted : Counted config parse monitor) (written : Written db format monitor)
    (steps : monitor.Steps config parse db format label after) :
    Written db format after := by
  obtain ⟨outside, done, rows, sent⟩ := written
  have quiet {call : Call} (calling : monitor.terminator.tm.call = some call) : monitor.rows = [] :=
    outside.resolve_right (not_outside_of_inside (Or.inl calling)).1
  cases steps with
  | elsewhere same users => exact ⟨by simpa only [same] using outside, done, rows, sent⟩
  | enter _ _ _ nothing => exact ⟨Or.inl nothing, done, rows, sent⟩
  | inside calling goes users => exact ⟨Or.inl (quiet calling), done, rows, sent⟩
  | returns calling left users acts trace =>
      obtain ⟨uid, ttl, now, _, current, stamped⟩ := counted.rounds.calls _ calling
      rw [quiet calling, List.append_nil] at rows
      simp only [Monitor.visit, current, stamped]
      refine ⟨Or.inr left, done, ?_, sent⟩
      rw [List.flatMap_append, rows, List.flatMap_singleton]
  | begins _ _ nothing => exact ⟨Or.inl nothing, done, rows, sent⟩
  | waits here =>
      exact ⟨Or.inl (outside.resolve_right (not_call_of_waits here).1), done, rows, sent⟩
  | leaves waiting left => exact ⟨Or.inr left, done, rows, sent⟩
  | stamp => exact ⟨outside, done, rows, sent⟩
  | @write row rest connection exchange first wrote =>
      rw [first] at rows
      have listed : row ∈ monitor.visits.flatMap (Visit.rows format) := by
        rw [rows]
        exact List.mem_append_right _ List.mem_cons_self
      obtain ⟨visit, _, own⟩ := List.mem_flatMap.mp listed
      obtain ⟨named, valued⟩ := rows_tokens printed visit _ own
      refine ⟨Or.inr (outside.resolve_left (by simp [first])), done ++ [row], ?_, ?_⟩
      · rw [rows, List.append_assoc]
        rfl
      · refine List.rel_append sent (.cons ?_ .nil)
        exact row_delivers addressable named valued wrote

end Written

section Runs

variable {config : Config} {parse : Parser} {db : InfluxDb} {format : ℚ → Text}

theorem counted_failing_run {labels : List Monitor.Label} {monitor : Monitor}
    (reached : Machine.run (Monitor.step config parse db format) Monitor.initial labels =
      some monitor) :
    Counted config parse monitor ∧ Failing monitor :=
  Machine.run_preserves (fun monitor => Counted config parse monitor ∧ Failing monitor)
    (fun _ _ _ kept taken => ⟨counted_step kept.1 taken, failing_step kept.1 kept.2 taken⟩)
    ⟨counted_initial, failing_initial⟩ reached

theorem written_run (addressable : db.Addressable) (printed : ∀ cpu, Token (format cpu))
    {labels : List Monitor.Label} {monitor : Monitor}
    (reached : Machine.run (Monitor.step config parse db format) Monitor.initial labels =
      some monitor) :
    Written db format monitor :=
  (Machine.run_preserves (fun monitor => Counted config parse monitor ∧ Written db format monitor)
    (fun _ _ _ kept taken => ⟨counted_step kept.1 taken,
      written_step addressable printed kept.1 kept.2 (steps_of_step kept.1.pm taken).1⟩)
    ⟨counted_initial, written_initial⟩ reached).2

theorem visits_run {monitor final : Monitor} {labels : List Monitor.Label}
    (pm : monitor.terminator.pm.waits = false) (leaked : Leaked monitor.terminator)
    (reached : Machine.run (Monitor.step config parse db format) monitor labels = some final) :
    final.visits = monitor.visits := by
  refine (Machine.run_preserves (fun other =>
    (other.terminator.pm.waits = false ∧ Leaked other.terminator) ∧
    other.visits = monitor.visits) ?_ ⟨⟨pm, leaked⟩, rfl⟩ reached).2
  rintro state label next ⟨⟨calls, lost⟩, same⟩ taken
  obtain ⟨steps, still⟩ := steps_of_step calls taken
  exact ⟨⟨still, leaked_monitor lost taken⟩, (visits_leaked lost steps).trans same⟩

end Runs

/-- A round visits the users in their order, and its rows tell what each visit measured. -/
theorem usage_recorded (config : Config) (parse : Parser) (db : InfluxDb)
    (addressable : db.Addressable) (format : ℚ → Text) (printed : ∀ cpu, Token (format cpu))
    (labels : List Monitor.Label) (monitor : Monitor)
    (reached : Machine.run (Monitor.step config parse db format) Monitor.initial labels =
      some monitor) :
    monitor.visits.map Visit.entry ++ monitor.underway ++ monitor.ahead =
        monitor.stamps.flatMap (fun now => config.users.map fun user => (user, now)) ∧
      returnsOf .tm monitor.terminator.shared.trace = monitor.visits.map Visit.result ∧
      (∀ earlier visit later, monitor.visits = earlier ++ visit :: later →
        Measured config parse monitor.terminator.shared.trace earlier visit) ∧
      (∀ visit ∈ monitor.visits.dropLast, visit.code = 0) ∧
      ∃ done, monitor.visits.flatMap (Visit.rows format) = done ++ monitor.rows ∧
        List.Forall₂ (fun row entry => entry.1.completes = true →
          Delivers db entry.2 row.point) done monitor.sent := by
  obtain ⟨counted, failing⟩ := counted_failing_run reached
  refine ⟨counted.rounds.rounds, counted.returned, ?_, ?_,
    (written_run addressable printed reached).rows⟩
  · intro earlier visit later split
    have listed := counted.returned
    rw [split, List.map_append, List.map_cons] at listed
    obtain ⟨newer, older, trace, own⟩ := returnsOf_split listed
    exact ⟨newer, older, trace, own, (counted.serialized.atomic.alone trace).2⟩
  · rcases failing with ⟨_, fine⟩ | ⟨_, fine⟩
    · exact fun visit member => fine visit (List.mem_of_mem_dropLast member)
    · exact fine

section Example

def oneUser : Config := ⟨[], [(1, 1000)], 60, kill⟩

def emptyPool : XmlNode := .element .vmPool [] .null .null

def firstRound : List Monitor.Label :=
  ([.beginWait, .acquire, .sleep, .wake true, .release].map fun action =>
    .terminator (.step .tm action)) ++
    .stamp 1500000000 ::
      ([.enter, .acquire, .flush, .fetch (answering emptyPool), .release].map fun action =>
        .terminator (.step .tm action)) ++
    [.write (.answered []), .write .refused]

theorem usage_recorded_firstRound : ∃ monitor,
    Machine.run (Monitor.step oneUser (knowing emptyPool) fassdb floatText) Monitor.initial
        firstRound = some monitor ∧
      monitor.visits.map Visit.entry = [((1, 1000), 1500000000)] ∧
      (∃ visit, monitor.visits = [visit] ∧
        Measured oneUser (knowing emptyPool) monitor.terminator.shared.trace [] visit) ∧
      ∃ done, monitor.visits.flatMap (Visit.rows floatText) = done ++ monitor.rows ∧
        List.Forall₂ (fun row entry => entry.1.completes = true →
          Delivers fassdb entry.2 row.point) done monitor.sent := by
  have visited : (Machine.run (Monitor.step oneUser (knowing emptyPool) fassdb floatText)
      Monitor.initial firstRound).map (fun monitor => monitor.visits.map Visit.entry) =
        some [((1, 1000), 1500000000)] := by
    decide +kernel
  obtain ⟨monitor, reached, visits⟩ := Option.map_eq_some_iff.mp visited
  obtain ⟨_, _, measured, _, rows⟩ :=
    usage_recorded oneUser (knowing emptyPool) fassdb fassdb_addressable floatText
    floatText_token firstRound monitor reached
  obtain ⟨visit, single, _⟩ := List.map_eq_singleton_iff.mp visits
  exact ⟨monitor, reached, visits, ⟨visit, single, measured [] visit [] single⟩, rows⟩

end Example

theorem failed_fetch_ends_visits (config : Config) (parse : Parser) (db : InfluxDb)
    (format : ℚ → Text) (labels later : List Monitor.Label) (before after final : Monitor)
    (thread : Thread) (server : Server)
    (reached : Machine.run (Monitor.step config parse db format) Monitor.initial labels =
      some before)
    (failed : answered config parse (.step thread (.fetch server)) = false)
    (taken : before.step config parse db format (.terminator (.step thread (.fetch server))) =
      some after)
    (continued : Machine.run (Monitor.step config parse db format) after later = some final) :
    final.visits = after.visits := by
  obtain ⟨counted, failing⟩ := counted_failing_run reached
  refine visits_run (steps_of_step counted.pm taken).2 ?_ continued
  have stepped := (terminator_of_step taken).2
  rcases failing with ⟨owned, _⟩ | ⟨leaked, _⟩
  · exact failed_fetch_leaks counted.serialized.base owned failed stepped
  · exact leaked_step _ leaked stepped

def beforeFailure : List Monitor.Label :=
  firstRound.take 7 ++ [.enter, .acquire, .flush].map fun action => .terminator (.step .pm action)

theorem failed_fetch_ends_visits_waiting : ∃ before after final,
    Machine.run (Monitor.step oneUser (knowing emptyPool) fassdb floatText) Monitor.initial
        beforeFailure = some before ∧
      before.step oneUser (knowing emptyPool) fassdb floatText
        (.terminator (.step .pm (.fetch unreachable))) = some after ∧
      Machine.run (Monitor.step oneUser (knowing emptyPool) fassdb floatText) after
        [.terminator (.step .pm .enter)] = some final ∧
      final.visits = after.visits := by
  have runs : (Machine.run (Monitor.step oneUser (knowing emptyPool) fassdb floatText)
      Monitor.initial (beforeFailure ++ [.terminator (.step .pm (.fetch unreachable)),
        .terminator (.step .pm .enter)])).isSome = true := by
    decide +kernel
  obtain ⟨final, reached⟩ := Option.isSome_iff_exists.mp runs
  rw [Machine.run_append] at reached
  obtain ⟨before, prepared, fetched⟩ := Option.bind_eq_some_iff.mp reached
  rw [Machine.run_cons] at fetched
  obtain ⟨after, taken, continued⟩ := Option.bind_eq_some_iff.mp fetched
  exact ⟨before, after, final, prepared, taken, continued,
    failed_fetch_ends_visits oneUser (knowing emptyPool) fassdb floatText _ _
    before after final .pm unreachable prepared (by decide +kernel) taken continued⟩

end OneFass.Terminator
