import OneFass.Fass.Existence
import OneFass.Pm.Cycle
import OneFass.Rpcm.Registry

set_option autoImplicit false

namespace OneFass.Fass

open Runtime Client ExactPower Xml Pm Rpcm

-- the object behind `XMLRPCClient::_client`
structure XMLRPCClient where
  auth : Text
  endpoint : Text
  timeout : Nat
  deriving DecidableEq

/-- `XMLRPCClient::initialize`, which leaves a client that is there as it is. -/
def initializeClient (client : Option XMLRPCClient) (secret endpoint : Text) (tout : Int) :
    XMLRPCClient :=
  client.getD ⟨secret, endpoint, (tout * 1000 % 2 ^ 32).toNat⟩

inductive Origin where
  | daemon
  | proxy
  deriving DecidableEq

structure Message where
  origin : Origin
  endpoint : Text
  method : Text
  parameters : List Value

structure Settings where
  config : ManagerConfig
  one_endpoint : Text
  timeout : Int
  timers : Timers
  parse : Parser
  format : FloatValue Scaled → Text
  users : List User
  log : CallLog

structure Service where
  fass : State
  client : Option XMLRPCClient
  pm : ManagerState
  sent : List Message
  answered : List (Text × List Value × Except Fault Unit × Value)
  -- a call was made on the pointer before anybody had initialized it
  nullCalled : Bool

/-- The end of one turn of the loop that waits for ONE: whether it is left. -/
def contactOne (outcome : Outcome) : Except Fault Bool := do
  let result ← callAsync outcome .unassigned
  let values ← result.asArray
  let flag ← element values 0
  let success ← flag.asBoolean
  let payload ← element values 1
  let _ ← payload.asString
  return success

namespace Service

inductive Label where
  | contact (outcome : Outcome)
  | main
  | fail
  | tick (now : Int)
  | thread (manager : Manager) (move : Move)
  -- `client->call` in the body of a cycle
  | call (manager : Manager) (method : Text) (plist : List Value)
  -- the rest of a cycle of the priority manager
  | round (round : Round)
  | request (caller : Caller) (method : Text) (paramList : List Value) (outcome : Outcome)

variable (settings : Settings)

def init (service : Service) : XMLRPCClient :=
  initializeClient service.client settings.config.one_secret settings.one_endpoint settings.timeout

def systemConfig : Text := "one.system.config".toList

def contacted (service : Service) : Service :=
  let client := service.init settings
  { service with
    client := some client
    sent := service.sent ++ [⟨.daemon, client.endpoint, systemConfig, [.string client.auth]⟩] }

def contact (service : Service) (outcome : Outcome) : Option Service :=
  match contactOne outcome with
  | .ok true =>
      (Fass.step settings.timers service.fass .main).map fun fass =>
        { service.contacted settings with fass := fass }
  -- it sleeps and tries again
  | .ok false => some (service.contacted settings)
  | .error (.raised _) => some (service.contacted settings)
  | .error (.undefined _) => none

def main (service : Service) : Option Service :=
  let client :=
    match service.fass.stage with
    | .newPriorityManager => some (service.init settings)
    | .newTerminator => some (service.init settings)
    | _ => service.client
  (Fass.step settings.timers service.fass .main).map fun fass =>
    { service with fass := fass, client := client }

def call (service : Service) (method : Text) (plist : List Value) : Service :=
  match service.client with
  | none => { service with nullCalled := true }
  | some client =>
      { service with sent := service.sent ++
        [⟨.daemon, client.endpoint, method, .string client.auth :: plist⟩] }

-- the copy of the queue that a request makes is one step, and so is its assignment in `pm_loop`
def request (service : Service) (caller : Caller) (method : Text) (paramList : List Value)
    (outcome : Outcome) :
    Service :=
  let reply := answer settings.log caller service.pm.queue (fun _ _ => outcome) method paramList
  let answered := service.answered ++ [(method, paramList, reply)]
  if registry method = .oneProxy ∧ hasSession paramList = true then
    let client := initializeClient service.client [] settings.one_endpoint settings.timeout
    { service with
      client := some client
      sent := service.sent ++ [⟨.proxy, client.endpoint, method, paramList⟩]
      answered := answered }
  else { service with answered := answered }

def serving (service : Service) : Bool :=
  decide (Stage.startRpcManager.order < service.fass.stage.order)

def step (service : Service) : Label → Option Service
  | .contact outcome =>
      if service.fass.stage = .contactOne ∧ service.fass.failed = false then
        service.contact settings outcome else none
  | .main => if service.fass.stage = .contactOne then none else service.main settings
  | .fail =>
      (Fass.step settings.timers service.fass .fail).map fun fass => { service with fass := fass }
  | .tick now =>
      (Fass.step settings.timers service.fass (.tick now)).map fun fass =>
        { service with fass := fass }
  | .thread manager taken =>
      if manager = .pm ∧ taken = .finish then none
      else (Fass.step settings.timers service.fass (.thread manager taken)).map fun fass =>
        { service with fass := fass }
  | .call manager method plist =>
      if service.fass.thread manager = .begun ∨ service.fass.thread manager = .working then
        some (service.call method plist)
      else none
  -- an exception ends the process
  | .round round =>
      match Fass.step settings.timers service.fass (.thread .pm .finish),
          cycle settings.config settings.parse settings.format round service.pm with
      | some fass, .ok pm => some { service with fass := fass, pm := pm }
      | _, _ => none
  | .request caller method paramList outcome =>
      if service.serving then some (service.request settings caller method paramList outcome)
      else none

def initial (clock : Int) : Service :=
  ⟨Fass.initial clock, none, ManagerState.initial settings.users, [], [], false⟩

inductive Steps (service : Service) : Label → Service → Prop where
  | contacted {outcome : Outcome} {fass : State} (waits : service.fass.stage = .contactOne)
      (accepted : contactOne outcome = .ok true)
        (taken : Fass.step settings.timers service.fass .main = some fass) :
      Steps service (.contact outcome) { service.contacted settings with fass := fass }
  | retries {outcome : Outcome} (waits : service.fass.stage = .contactOne)
      (refused : contactOne outcome ≠ .ok true) :
      Steps service (.contact outcome) (service.contacted settings)
  | main {fass : State} {client : Option XMLRPCClient}
      (elsewhere : service.fass.stage ≠ .contactOne)
      (taken : Fass.step settings.timers service.fass .main = some fass)
      (initialized : client = service.client ∨
        client = some (service.init settings) ∧ Stage.contactOne.order < service.fass.stage.order) :
      Steps service .main { service with fass := fass, client := client }
  | fail {fass : State} (taken : Fass.step settings.timers service.fass .fail = some fass) :
      Steps service .fail { service with fass := fass }
  | tick {fass : State} (now : Int)
      (taken : Fass.step settings.timers service.fass (.tick now) = some fass) :
      Steps service (.tick now) { service with fass := fass }
  | thread {fass : State} (manager : Manager) (move : Move)
      (taken : Fass.step settings.timers service.fass (.thread manager move) = some fass) :
      Steps service (.thread manager move) { service with fass := fass }
  | call {manager : Manager} (method : Text) (plist : List Value)
      (body : service.fass.thread manager ≠ .absent) :
      Steps service (.call manager method plist) (service.call method plist)
  | round {round : Round} {fass : State} {pm : ManagerState}
      (taken : Fass.step settings.timers service.fass (.thread .pm .finish) = some fass)
      (completed : cycle settings.config settings.parse settings.format round service.pm = .ok pm) :
      Steps service (.round round) { service with fass := fass, pm := pm }
  | request (caller : Caller) (method : Text) (paramList : List Value) (outcome : Outcome)
      (serves : service.serving = true) :
      Steps service (.request caller method paramList outcome)
        (service.request settings caller method paramList outcome)

end Service

section Steps

variable {settings : Settings} {service after : Service} {label : Service.Label}

theorem steps_of_contact {outcome : Outcome} (waits : service.fass.stage = .contactOne)
    (taken : service.contact settings outcome = some after) :
    Service.Steps settings service (.contact outcome) after := by
  simp only [Service.contact] at taken
  split at taken
  next accepted =>
    obtain ⟨fass, moved, rfl⟩ := Option.map_eq_some_iff.mp taken
    exact .contacted waits accepted moved
  next refused =>
    cases taken
    exact .retries waits (by simp [refused])
  next refused =>
    cases taken
    exact .retries waits (by simp [refused])
  next => cases taken

theorem steps_of_step (taken : service.step settings label = some after) :
    Service.Steps settings service label after := by
  cases label with
  | contact outcome =>
      simp only [Service.step] at taken
      split_ifs at taken with waits
      exact steps_of_contact waits.1 taken
  | main =>
      simp only [Service.step, Service.main] at taken
      split_ifs at taken with elsewhere
      obtain ⟨fass, moved, rfl⟩ := Option.map_eq_some_iff.mp taken
      refine .main elsewhere moved ?_
      cases stage : service.fass.stage <;> simp [Stage.order]
  | fail =>
      simp only [Service.step] at taken
      obtain ⟨fass, moved, rfl⟩ := Option.map_eq_some_iff.mp taken
      exact .fail moved
  | tick now =>
      simp only [Service.step] at taken
      obtain ⟨fass, moved, rfl⟩ := Option.map_eq_some_iff.mp taken
      exact .tick now moved
  | thread manager move =>
      simp only [Service.step] at taken
      split_ifs at taken
      obtain ⟨fass, moved, rfl⟩ := Option.map_eq_some_iff.mp taken
      exact .thread manager move moved
  | call manager method plist =>
      simp only [Service.step] at taken
      split_ifs at taken with body
      cases taken
      exact .call method plist (by rcases body with here | here <;> simp [here])
  | round round =>
      simp only [Service.step] at taken
      split at taken
      next moved completed =>
        cases taken
        exact .round moved completed
      next => cases taken
  | request caller method paramList outcome =>
      simp only [Service.step] at taken
      split_ifs at taken with serves
      cases taken
      exact .request caller method paramList outcome serves

end Steps

section Replies

variable {settings : Settings} {service after : Service} {label : Service.Label}

def Service.Label.round? : Service.Label → Option Round
  | .round completed => some completed
  | _ => none

def pmStep (settings : Settings) : ManagerState → Round → Option ManagerState :=
  Pm.step settings.config settings.parse settings.format

def rounds (labels : List Service.Label) : List Round := labels.filterMap Service.Label.round?

theorem projects_pm (settings : Settings) :
    Machine.Projects (Service.step settings) (pmStep settings) Service.pm Service.Label.round? := by
  intro service label after taken
  cases steps_of_step taken with
  | round moved completed => exact step_eq_some.mpr completed
  | call method plist =>
      change (service.call method plist).pm = service.pm
      simp only [Service.call]
      split <;> rfl
  | request caller method paramList outcome =>
      change (service.request settings caller method paramList outcome).pm = service.pm
      simp only [Service.request]
      split_ifs <;> rfl
  | contacted | retries | main | fail | tick | thread => rfl

/-- A request for the pool is answered with the queue of the last completed round. -/
theorem queue_requests_read_last_round (settings : Settings) (clock : Int)
    (labels : List Service.Label) (before : Service) (caller : Caller) (method session : Text)
    (rest : List Value) (outcome : Outcome) (loggable : Loggable settings.log caller)
    (registered : registry method = .reorderedQueue)
    (reached : Machine.run (Service.step settings) (Service.initial settings clock) labels =
      some before)
    (serves : before.serving = true) :
    ∃ pm, Machine.run (pmStep settings) (ManagerState.initial settings.users) (rounds labels) =
      some pm ∧
      before.step settings (.request caller method (.string session :: rest) outcome) =
        some { before with answered := before.answered ++
          [(method, .string session :: rest, .ok (), successArray (.string pm.queue))] } ∧
      (rounds labels = [] → pm.queue = queueOpen ++ queueClose) ∧
      ∀ earlier round, rounds labels = earlier ++ [round] → ∃ previous,
        Machine.run (pmStep settings) (ManagerState.initial settings.users) earlier =
          some previous ∧
          Published settings.config settings.parse settings.format round previous pm := by
  have projected := Machine.run_projects (projects_pm settings) reached
  refine ⟨before.pm, projected, ?_, ?_, ?_⟩
  · have unproxied : ¬ (registry method = .oneProxy ∧
        hasSession (.string session :: rest) = true) := by
      simp [registered]
    simp only [Service.step, serves, if_true, Service.request, if_neg unproxied,
      answer_queue loggable registered]
  · intro none
    rw [rounds] at none
    rw [none, Machine.run_nil] at projected
    rw [← Option.some.inj projected]
    rfl
  · intro earlier round split
    rw [rounds] at split
    rw [split, Machine.run_append] at projected
    obtain ⟨previous, arrived, last⟩ := Option.bind_eq_some_iff.mp projected
    obtain ⟨next, stepped, done⟩ := Option.bind_eq_some_iff.mp last
    cases done
    exact ⟨previous, arrived, cycle_publishes (run_cleared arrived) (step_eq_some.mp stepped)⟩

end Replies

section Credentials

variable {settings : Settings} {service after : Service} {label : Service.Label}

def Settings.client (settings : Settings) : XMLRPCClient :=
  ⟨settings.config.one_secret, settings.one_endpoint, (settings.timeout * 1000 % 2 ^ 32).toNat⟩

-- the main thread is past the loop that waits for ONE
def Contacted (fass : State) : Prop := Stage.contactOne.order < fass.stage.order

instance (fass : State) : Decidable (Contacted fass) := inferInstanceAs (Decidable (_ < _))

def Started (fass : State) : Prop := ∀ manager, fass.thread manager ≠ .absent → Contacted fass

structure Guarded (settings : Settings) (service : Service) : Prop where
  own : service.client = none ∨ service.client = some settings.client
  initialized : Contacted service.fass → service.client = some settings.client
  started : Started service.fass
  real : service.nullCalled = false
  endpoint : ∀ message ∈ service.sent, message.endpoint = settings.one_endpoint
  daemon : ∀ message ∈ service.sent, message.origin = .daemon →
    ∃ plist, message.parameters = .string settings.config.one_secret :: plist

theorem init_own (own : service.client = none ∨ service.client = some settings.client) :
    service.init settings = settings.client := by
  rcases own with none | some
  · rw [Service.init, none]
    rfl
  · rw [Service.init, some]
    rfl

theorem contacted_next {stage : Stage} (contacted : Stage.contactOne.order < stage.order) :
    Stage.contactOne.order < stage.next.order := Nat.lt_of_lt_of_le contacted (order_le_next stage)

theorem started_main {fass : State} (started : Started fass) :
    Started { perform fass with stage := fass.stage.next } := by
  intro manager alive
  by_cases absent : fass.thread manager = .absent
  · -- only the two stages that start a thread make one
    cases stage : fass.stage <;> cases manager <;>
      simp_all [perform, Stage.constructs, State.thread, State.goTo, State.record, Contacted,
        Stage.next, Stage.order]
  · exact contacted_next (started manager absent)

theorem started_goTo {fass : State} (started : Started fass) {manager : Manager} (position : Thread)
    (alive : fass.thread manager ≠ .absent) : Started (fass.goTo manager position) := by
  have contacted : Contacted (fass.goTo manager position) := by
    cases manager <;> exact started _ alive
  intro _ _
  exact contacted

theorem started_step {fass next : State} {label : Fass.Label} (started : Started fass)
    (taken : Fass.step settings.timers fass label = some next) : Started next := by
  cases label with
  | main =>
      simp only [Fass.step] at taken
      split_ifs at taken
      cases taken
      exact started_main started
  | fail =>
      cases taken
      exact started
  | tick now =>
      cases taken
      exact started
  | request =>
      simp only [Fass.step] at taken
      split_ifs at taken
      cases taken
      exact started
  | thread manager move =>
      rcases move_cases taken with ⟨_, here, position, rfl, _⟩ | ⟨_, rfl, _, here, _⟩
        | ⟨_, here, rfl⟩ | ⟨_, here, rfl⟩
      · exact started_goTo started position (by simp [here])
      · exact started_goTo started .begun (by simp [here])
      · exact started_goTo started .working (by simp [here])
      · exact started_goTo started .top (by simp [here])

theorem stage_step {fass next : State} {label : Fass.Label} (other : label ≠ .main)
    (taken : Fass.step settings.timers fass label = some next) : next.stage = fass.stage := by
  cases label with
  | main => exact absurd rfl other
  | fail =>
      cases taken
      rfl
  | tick now =>
      cases taken
      rfl
  | request =>
      simp only [Fass.step] at taken
      split_ifs at taken
      cases taken
      rfl
  | thread manager move =>
      rcases move_cases taken with ⟨_, _, position, rfl, _⟩ | ⟨_, rfl, _⟩ | ⟨_, _, rfl⟩
        | ⟨_, _, rfl⟩ <;>
        cases manager <;> rfl

theorem stage_main {fass next : State} (taken : Fass.step settings.timers fass .main = some next) :
    next.stage = fass.stage.next := by
  simp only [Fass.step] at taken
  split_ifs at taken
  cases taken
  rfl

theorem guarded_sent (guarded : Guarded settings service) (message : Message)
    (endpoint : message.endpoint = settings.one_endpoint)
    (daemon : message.origin = .daemon →
      ∃ plist, message.parameters = .string settings.config.one_secret :: plist) :
    Guarded settings
      { service with client := some settings.client, sent := service.sent ++ [message] } where
  own := Or.inr rfl
  initialized := fun _ => rfl
  started := guarded.started
  real := guarded.real
  endpoint := List.forall_mem_append.mpr ⟨guarded.endpoint, List.forall_mem_singleton.mpr endpoint⟩
  daemon := List.forall_mem_append.mpr ⟨guarded.daemon, List.forall_mem_singleton.mpr daemon⟩

theorem guarded_contacted (guarded : Guarded settings service) :
    Guarded settings (service.contacted settings) := by
  simp only [Service.contacted, init_own guarded.own]
  exact guarded_sent guarded _ rfl fun _ => ⟨[], rfl⟩

theorem guarded_call {manager : Manager} (guarded : Guarded settings service) (method : Text)
    (plist : List Value) (body : service.fass.thread manager ≠ .absent) :
    Guarded settings (service.call method plist) := by
  have client := guarded.initialized (guarded.started manager body)
  rw [Service.call, client]
  exact guarded_sent guarded _ rfl fun _ => ⟨plist, rfl⟩

theorem guarded_request (guarded : Guarded settings service) (caller : Caller) (method : Text)
    (paramList : List Value) (outcome : Outcome) (serves : service.serving = true) :
    Guarded settings (service.request settings caller method paramList outcome) := by
  have contacted : Contacted service.fass := Nat.lt_trans (by decide) (of_decide_eq_true serves)
  have client := guarded.initialized contacted
  -- the proxy's empty secret comes too late
  have kept : initializeClient service.client [] settings.one_endpoint settings.timeout =
      settings.client := by
    rw [client]
    rfl
  have sent := guarded_sent guarded ⟨.proxy, settings.one_endpoint, method, paramList⟩ rfl nofun
  simp only [Service.request, kept]
  split_ifs
  · exact ⟨sent.own, sent.initialized, sent.started, sent.real, sent.endpoint, sent.daemon⟩
  · exact ⟨guarded.own, guarded.initialized, guarded.started, guarded.real, guarded.endpoint,
      guarded.daemon⟩

theorem guarded_moved {fass : State} {inner : Fass.Label} (guarded : Guarded settings service)
    (pm : ManagerState) (other : inner ≠ .main)
    (moved : Fass.step settings.timers service.fass inner = some fass) :
    Guarded settings { service with fass := fass, pm := pm } where
  own := guarded.own
  initialized := fun contacted => guarded.initialized
    (by rwa [Contacted, stage_step other moved] at contacted)
  started := started_step guarded.started moved
  real := guarded.real
  endpoint := guarded.endpoint
  daemon := guarded.daemon

theorem guarded_main {fass : State} {client : Option XMLRPCClient}
    (guarded : Guarded settings service) (elsewhere : service.fass.stage ≠ .contactOne)
    (taken : Fass.step settings.timers service.fass .main = some fass)
    (initialized : client = service.client ∨ client = some (service.init settings) ∧
      Contacted service.fass) :
    Guarded settings { service with fass := fass, client := client } := by
  have own : client = none ∨ client = some settings.client := by
    rcases initialized with rfl | ⟨rfl, _⟩
    · exact guarded.own
    · exact Or.inr (congrArg some (init_own guarded.own))
  have present : Contacted service.fass → client = some settings.client := by
    intro contacted
    rcases initialized with rfl | ⟨rfl, _⟩
    · exact guarded.initialized contacted
    · exact congrArg some (init_own guarded.own)
  refine ⟨own, fun contacted => present ?_, started_step guarded.started taken, guarded.real,
    guarded.endpoint, guarded.daemon⟩
  have next := stage_main taken
  simp only [Contacted] at contacted ⊢
  rw [next] at contacted
  -- only the loop itself gets past its stage
  cases stage : service.fass.stage <;> simp_all [Stage.next, Stage.order]

theorem guarded_step (guarded : Guarded settings service)
    (taken : Service.Steps settings service label after) :
    Guarded settings after := by
  cases taken with
  | contacted waits accepted moved =>
      have called := guarded_contacted guarded
      refine ⟨called.own, fun _ => ?_, started_step called.started moved, called.real,
        called.endpoint, called.daemon⟩
      exact called.own.resolve_left (by simp [Service.contacted])
  | retries waits refused => exact guarded_contacted guarded
  | main elsewhere moved initialized => exact guarded_main guarded elsewhere moved initialized
  | fail moved => exact guarded_moved guarded _ (by simp) moved
  | tick now moved => exact guarded_moved guarded _ (by simp) moved
  | thread manager move moved => exact guarded_moved guarded _ (by simp) moved
  | call method plist body => exact guarded_call guarded method plist body
  | round moved completed => exact guarded_moved guarded _ (by simp) moved
  | request caller method paramList outcome serves =>
      exact guarded_request guarded caller method paramList outcome serves

theorem guarded_initial (settings : Settings) (clock : Int) :
    Guarded settings (Service.initial settings clock) := by
  refine ⟨Or.inl rfl, fun contacted => ?_, fun manager alive => ?_, rfl, nofun, nofun⟩
  · exact absurd contacted (by simp [Service.initial, Fass.initial, Contacted, Stage.order])
  · cases manager <;> exact absurd rfl alive

end Credentials

section Waiting

variable {settings : Settings} {service after : Service} {label : Service.Label}

theorem contactOne_accepts {outcome : Outcome} (accepted : contactOne outcome = .ok true) :
    ∃ text rest, outcome = .success (.array (.boolean true :: .string text :: rest)) := by
  cases outcome with
  | success result =>
      simp only [contactOne, callAsync, bind_eq_ok, Value.asArray_eq_ok, Value.asBoolean_eq_ok,
        Value.asString_eq_ok, element_eq_ok, pure, Except.pure, Except.ok.injEq] at accepted
      obtain ⟨_, rfl, values, rfl, _, first, _, rfl, _, second, text, rfl, rfl⟩ := accepted
      obtain ⟨_, rest, rfl⟩ := List.exists_cons_of_ne_nil
        (show values ≠ [] by rintro rfl; simp at first)
      obtain ⟨_, rest, rfl⟩ := List.exists_cons_of_ne_nil
        (show rest ≠ [] by rintro rfl; simp at second)
      cases first
      cases second
      exact ⟨text, rest, rfl⟩
  | fault | transportError | timeout =>
      simp [contactOne, callAsync, bind, Except.bind, Value.asArray] at accepted

def systemConfigMessage (settings : Settings) : Message :=
  ⟨.daemon, settings.one_endpoint, Service.systemConfig, [.string settings.config.one_secret]⟩

structure Idle (settings : Settings) (service : Service) : Prop where
  answered : service.answered = []
  pm : service.pm = ManagerState.initial settings.users
  sent : ∀ message ∈ service.sent, message = systemConfigMessage settings

theorem contacted_mono (taken : Service.Steps settings service label after)
    (contacted : Contacted service.fass) :
    Contacted after.fass := by
  have kept {fass : State} {inner : Fass.Label} (other : inner ≠ .main)
      (moved : Fass.step settings.timers service.fass inner = some fass) : Contacted fass := by
    rwa [Contacted, stage_step other moved]
  cases taken with
  | contacted waits accepted moved =>
      rw [Contacted, stage_main moved]
      exact contacted_next contacted
  | retries => exact contacted
  | main elsewhere moved =>
      rw [Contacted, stage_main moved]
      exact contacted_next contacted
  | fail moved => exact kept (by simp) moved
  | tick now moved => exact kept (by simp) moved
  | thread manager move moved => exact kept (by simp) moved
  | round moved => exact kept (by simp) moved
  | call method plist =>
      simp only [Service.call]
      split <;> exact contacted
  | request caller method paramList outcome =>
      simp only [Service.request]
      split_ifs <;> exact contacted

theorem idle_step (guarded : Guarded settings service)
    (idle : ¬ Contacted service.fass → Idle settings service)
    (taken : Service.Steps settings service label after) (waiting : ¬ Contacted after.fass) :
    Idle settings after := by
  have before : ¬ Contacted service.fass :=
    fun contacted => waiting (contacted_mono taken contacted)
  obtain ⟨answered, pm, sent⟩ := idle before
  cases taken with
  | contacted waits accepted moved =>
      rw [Contacted, stage_main moved, waits] at waiting
      exact absurd (by decide) waiting
  | retries =>
      refine ⟨answered, pm, fun message member => ?_⟩
      rcases List.mem_append.mp member with old | new
      · exact sent message old
      · rw [List.mem_singleton.mp new, init_own guarded.own]
        rfl
  | main | fail | tick | thread => exact ⟨answered, pm, sent⟩
  | call method plist body => exact absurd (guarded.started _ body) before
  | round moved =>
      have finished : move settings.timers service.fass .pm .finish = some _ := moved
      rcases move_cases finished with ⟨different, _⟩ | ⟨different, _⟩ | ⟨different, _⟩
        | ⟨_, here, _⟩
      · cases different
      · cases different
      · cases different
      · exact absurd (guarded.started .pm (by simp [here])) before
  | request caller method paramList outcome serves =>
      exact absurd (Nat.lt_trans (by decide) (of_decide_eq_true serves)) before

theorem crossing_contact (taken : Service.Steps settings service label after)
    (before : ¬ Contacted service.fass) (contacted : Contacted after.fass) :
    ∃ outcome, label = .contact outcome ∧ contactOne outcome = .ok true := by
  have kept {fass : State} {inner : Fass.Label} (other : inner ≠ .main)
      (moved : Fass.step settings.timers service.fass inner = some fass) : ¬ Contacted fass := by
    rwa [Contacted, stage_step other moved]
  cases taken with
  | @contacted outcome _ waits accepted moved => exact ⟨outcome, rfl, accepted⟩
  | retries => exact absurd contacted before
  | main elsewhere moved =>
      rw [Contacted, stage_main moved] at contacted
      cases stage : service.fass.stage <;> simp_all [Contacted, Stage.next, Stage.order]
  | fail moved => exact absurd contacted (kept (by simp) moved)
  | tick now moved => exact absurd contacted (kept (by simp) moved)
  | thread manager move moved => exact absurd contacted (kept (by simp) moved)
  | round moved => exact absurd contacted (kept (by simp) moved)
  | call method plist =>
      simp only [Service.call] at contacted
      split at contacted <;> exact absurd contacted before
  | request caller method paramList outcome =>
      simp only [Service.request] at contacted
      split_ifs at contacted <;> exact absurd contacted before

theorem waits_for_one (settings : Settings) (clock : Int) (labels : List Service.Label)
    (service : Service)
    (reached : Machine.run (Service.step settings) (Service.initial settings clock) labels =
      some service) :
    (¬ Contacted service.fass → Idle settings service) ∧
      (Contacted service.fass → ∃ front text rest back before, labels =
          front ++ .contact (.success (.array (.boolean true :: .string text :: rest))) :: back ∧
        Machine.run (Service.step settings) (Service.initial settings clock) front = some before ∧
        Idle settings before) := by
  have start : Guarded settings (Service.initial settings clock) ∧
      (¬ Contacted (Service.initial settings clock).fass →
        Idle settings (Service.initial settings clock)) :=
    ⟨guarded_initial settings clock, fun _ => ⟨rfl, rfl, nofun⟩⟩
  have invariant {labels : List Service.Label} {service : Service}
      (arrived : Machine.run (Service.step settings) (Service.initial settings clock) labels =
        some service) :
      ¬ Contacted service.fass → Idle settings service := by
    refine (Machine.run_preserves
      (fun service => Guarded settings service ∧
        (¬ Contacted service.fass → Idle settings service)) ?_ start arrived).2
    rintro before label after ⟨guarded, idle⟩ taken
    exact ⟨guarded_step guarded (steps_of_step taken), idle_step guarded idle (steps_of_step taken)⟩
  refine ⟨invariant reached, fun contacted => ?_⟩
  have waiting : ¬ Contacted (Service.initial settings clock).fass := by
    simp [Service.initial, Fass.initial, Contacted, Stage.order]
  obtain ⟨front, label, back, before, after, rfl, arrived, taken, lacking, crossed⟩ :=
    Machine.exists_crossing (fun service => Contacted service.fass) reached waiting contacted
  obtain ⟨outcome, rfl, accepted⟩ := crossing_contact (steps_of_step taken) lacking crossed
  obtain ⟨text, rest, rfl⟩ := contactOne_accepts accepted
  exact ⟨front, text, rest, back, before, rfl, arrived, invariant arrived lacking⟩

end Waiting

section Example

def plainSettings : Settings where
  config := ⟨"oneadmin:opennebula".toList, 60, 10, 3⟩
  one_endpoint := "http://localhost:2633/RPC2".toList
  timeout := 15
  timers := ⟨60, 60⟩
  parse := knowing pendingPool
  format := prioText
  users := []
  log := ⟨"Req:%i UID:%u %m invoked %l".toList, floatText⟩

def oneadmin : Caller := ⟨9869, 9869, some "oneadmin".toList, 4321⟩

def untilServing : List Service.Label :=
  [.main, .contact .timeout, .contact (.success (.array [.boolean true, .string []])),
    .main, .main, .main, .main, .main, .main]

def poolRequest : Service.Label :=
  .request oneadmin "one.vmpool.info".toList [.string "user:token".toList] .timeout

theorem queue_requests_before_first_round : ∃ (before : Service) (pm : ManagerState),
    Machine.run (Service.step plainSettings) (Service.initial plainSettings 0) untilServing =
      some before ∧
      pm.queue = queueOpen ++ queueClose ∧
      before.step plainSettings poolRequest = some { before with answered := before.answered ++
        [("one.vmpool.info".toList, [.string "user:token".toList], .ok (), successArray
          (.string pm.queue))] } := by
  have serves : ((Machine.run (Service.step plainSettings)
    (Service.initial plainSettings 0) untilServing).any
      Service.serving) = true := rfl
  obtain ⟨before, reached, serving⟩ := Option.any_eq_true _ _ |>.mp serves
  have loggable : Loggable plainSettings.log oneadmin := ⟨by decide, by decide, by decide⟩
  obtain ⟨pm, _, answered, empty, _⟩ :=
    queue_requests_read_last_round plainSettings 0 untilServing before oneadmin
    "one.vmpool.info".toList "user:token".toList [] .timeout loggable
      (by decide +kernel) reached serving
  exact ⟨before, pm, reached, empty rfl, answered⟩

theorem waits_for_one_after_timeout : ∃ service,
    Machine.run (Service.step plainSettings) (Service.initial plainSettings 0)
        [.main, .contact .timeout] = some service ∧
      Idle plainSettings service := by
  have runs : (Machine.run (Service.step plainSettings) (Service.initial plainSettings 0)
      [.main, .contact .timeout]).isSome = true := rfl
  obtain ⟨service, reached⟩ := Option.isSome_iff_exists.mp runs
  have waiting : ¬ Contacted service.fass := by
    cases reached
    decide
  exact ⟨service, reached, (waits_for_one plainSettings 0 _ service reached).1 waiting⟩

end Example

end OneFass.Fass
