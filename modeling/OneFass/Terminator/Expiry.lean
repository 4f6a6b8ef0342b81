import OneFass.Shared.Machine
import OneFass.Terminator.Running

set_option autoImplicit false

namespace OneFass.Terminator.Expiry

open Runtime Client Xml OrderedMap

instance (document : XmlNode) : Decidable (UniqueIds document) :=
  inferInstanceAs (Decidable (List.Pairwise _ _))

instance (config : Config) (parse : Parser) (server : Server) (document : XmlNode) :
    Decidable (Answers config parse server document) := inferInstanceAs (Decidable (_ = _))

def shown (pool : XmlNode) (oid : Int) : Option XmlNode :=
  (vmNodes pool).find? fun node => decide (oidOf node = oid)

def activeIn (pool : XmlNode) (oid : Int) : Bool :=
  (shown pool oid).any fun node => equalsNumber [.state] 3 node

def startIn (pool : XmlNode) (oid : Int) : Option Int := (shown pool oid).bind firstStart

structure State where
  pool : XmlNode
  -- the start time that the pool last showed
  lastStart : Int → Option Int
  wasActive : Int → Bool
  requested : Int → Nat

namespace State

def initial (pool : XmlNode) : State := ⟨pool, startIn pool, activeIn pool, fun _ => 0⟩

def restarted (state : State) (after : XmlNode) (oid : Int) : Bool :=
  (startIn after oid).isSome && decide (startIn after oid ≠ state.lastStart oid)

def observe (state : State) (after : XmlNode) : State where
  pool := after
  lastStart oid := (startIn after oid).or (state.lastStart oid)
  wasActive oid := state.wasActive oid || activeIn after oid
  requested oid := if state.restarted after oid then 0 else state.requested oid

def count (state : State) (requests : List Request) : State :=
  { state with requested := fun oid => state.requested oid + (requests.map Request.oid).count oid }

end State

-- a deleted, suspended or powered-off machine is no longer active, and a reboot changes nothing
def Settled (action : Text) (requests : List Request) (before after : XmlNode) : Prop :=
  ∀ node ∈ vmNodes before ++ vmNodes after,
    if action ≠ reboot ∧ oidOf node ∈ requests.map Request.oid then
      activeIn after (oidOf node) = false
    else shown after (oidOf node) = shown before (oidOf node)

instance (action : Text) (requests : List Request) (before after : XmlNode) :
    Decidable (Settled action requests before after) := List.decidableBAll _ _

inductive Label where
  | call (server : Server) (clock : Int → Int) (uid ttl : Int) (after : XmlNode)
  | external (after : XmlNode)

def step (config : Config) (parse : Parser) (state : State) : Label → Option State
  | .call server clock uid ttl after =>
      match perform config parse server clock (.killRunning uid ttl) .zero with
      | .error _ => none
      | .ok (rc, requests, _) =>
          if rc ≠ 0 then some state
          else if (uid, ttl) ∈ config.users ∧ Answers config parse server state.pool ∧
            UniqueIds after ∧
              Settled config.action requests state.pool after then
            some ((state.count requests).observe after)
          else none
  | .external after => if UniqueIds after then some (state.observe after) else none

def Allowed (config : Config) (state : State) : Label → Prop
  | .call _ _ _ _ _ => config.action ≠ reboot
  | .external after => ∀ oid, activeIn after oid = true →
      activeIn state.pool oid = true ∨ state.wasActive oid = false ∨
        state.restarted after oid = true

structure Invariant (state : State) : Prop where
  unique : UniqueIds state.pool
  seen : ∀ oid, activeIn state.pool oid = true → state.wasActive oid = true
  once : ∀ oid, state.requested oid ≤ 1
  -- what was acted on is not active until it is restarted
  spent : ∀ oid, state.requested oid ≠ 0 → activeIn state.pool oid = false ∧
    state.wasActive oid = true

theorem shown_of_mem {pool node : XmlNode} (unique : UniqueIds pool)
    (member : node ∈ vmNodes pool) :
    shown pool (oidOf node) = some node := by
  cases found : shown pool (oidOf node) with
  | none =>
      have absent := List.find?_eq_none.mp found node member
      simp at absent
  | some other =>
      have same : oidOf other = oidOf node := by simpa using List.find?_some found
      rw [visited_once unique (List.mem_of_find?_eq_some found) member same]

theorem mem_of_shown {pool node : XmlNode} {oid : Int} (found : shown pool oid = some node) :
    node ∈ vmNodes pool ∧ oidOf node = oid :=
  ⟨List.mem_of_find?_eq_some found, by simpa using List.find?_some found⟩

theorem active_of_requested {config : Config} {clock : Int → Int} {uid ttl oid : Int}
    {pool : XmlNode} {before after : Totals} {requests : List Request} (unique : UniqueIds pool)
    (done : Done config clock (.killRunning uid ttl) pool before requests after)
    (about : oid ∈ requests.map Request.oid) : activeIn pool oid = true := by
  obtain ⟨request, sent, rfl⟩ := List.mem_map.mp about
  obtain ⟨node, looked, acted⟩ := (done.requested request).mp sent
  obtain ⟨member, selected, _⟩ := mem_visited.mp looked
  have active : equalsNumber [.state] 3 node = true := by
    simp only [Call.query, Query.holds, Bool.and_eq_true] at selected
    exact selected.1
  have same : request.oid = oidOf node := (Call.request_eq_some acted).1
  simp [activeIn, same, shown_of_mem unique member, active]

theorem Settled.active {action : Text} {requests : List Request} {before after : XmlNode}
    {oid : Int} (settled : Settled action requests before after) (other : action ≠ reboot)
    (active : activeIn after oid = true) :
    oid ∉ requests.map Request.oid ∧ activeIn before oid = true := by
  cases found : shown after oid with
  | none => simp [activeIn, found] at active
  | some node =>
      obtain ⟨member, rfl⟩ := mem_of_shown found
      have effect := settled node (List.mem_append_right _ member)
      by_cases about : oidOf node ∈ requests.map Request.oid
      · rw [if_pos ⟨other, about⟩] at effect
        rw [effect] at active
        cases active
      · rw [if_neg fun claimed => about claimed.2] at effect
        exact ⟨about, by rwa [activeIn, ← effect]⟩

theorem Invariant.observe {state : State} {after : XmlNode} (unique : UniqueIds after)
    (once : ∀ oid, state.requested oid ≤ 1)
    (spent : ∀ oid, state.requested oid ≠ 0 → state.wasActive oid = true ∧
      (activeIn after oid = false ∨ state.restarted after oid = true)) : Invariant
      (state.observe after) := by
  constructor
  · exact unique
  · intro oid active
    simp only [State.observe, Bool.or_eq_true]
    exact Or.inr active
  · intro oid
    simp only [State.observe]
    split
    · exact Nat.zero_le 1
    · exact once oid
  · intro oid counted
    simp only [State.observe] at counted ⊢
    split at counted
    · exact absurd rfl counted
    next kept =>
      obtain ⟨was, gone⟩ := spent oid counted
      exact ⟨gone.resolve_right kept, by simp [was]⟩

theorem invariant_initial {pool : XmlNode} (unique : UniqueIds pool) :
    Invariant (State.initial pool) := by
  constructor
  · exact unique
  · intro oid active
    exact active
  · intro oid
    exact Nat.zero_le 1
  · intro oid counted
    exact absurd rfl counted

theorem Invariant.first {state : State} {oid : Int} (invariant : Invariant state)
    (active : activeIn state.pool oid = true) : state.requested oid = 0 := by
  by_contra counted
  rw [(invariant.spent oid counted).1] at active
  cases active

theorem Invariant.call {config : Config} {clock : Int → Int} {uid ttl : Int} {state : State}
    {before totals : Totals} {requests : List Request} {after : XmlNode}
    (invariant : Invariant state) (other : config.action ≠ reboot)
    (done : Done config clock (.killRunning uid ttl) state.pool before requests totals)
    (unique : UniqueIds after) (settled : Settled config.action requests state.pool after) :
    Invariant ((state.count requests).observe after) := by
  have acted (oid : Int) (about : oid ∈ requests.map Request.oid) :
      activeIn state.pool oid = true :=
    active_of_requested invariant.unique done about
  refine Invariant.observe unique ?_ ?_
  · intro oid
    by_cases about : oid ∈ requests.map Request.oid
    · have single := List.nodup_iff_count_le_one.mp done.once oid
      simpa [State.count, invariant.first (acted oid about)] using single
    · simpa [State.count, List.count_eq_zero_of_not_mem about] using invariant.once oid
  · intro oid counted
    by_cases about : oid ∈ requests.map Request.oid
    · refine ⟨invariant.seen oid (acted oid about), Or.inl ?_⟩
      by_contra active
      exact (settled.active other (by simpa using active)).1 about
    · have earlier : state.requested oid ≠ 0 := by
        simpa [State.count, List.count_eq_zero_of_not_mem about] using counted
      obtain ⟨gone, was⟩ := invariant.spent oid earlier
      refine ⟨was, Or.inl ?_⟩
      by_contra active
      rw [(settled.active other (by simpa using active)).2] at gone
      cases gone

theorem Invariant.external {config : Config} {state : State} {after : XmlNode}
    (invariant : Invariant state) (allowed : Allowed config state (.external after))
    (unique : UniqueIds after) : Invariant (state.observe after) := by
  refine Invariant.observe unique invariant.once ?_
  intro oid counted
  obtain ⟨gone, was⟩ := invariant.spent oid counted
  refine ⟨was, ?_⟩
  cases active : activeIn after oid with
  | false => exact Or.inl rfl
  | true =>
      rcases allowed oid active with still | fresh | restarted
      · rw [gone] at still
        cases still
      · rw [was] at fresh
        cases fresh
      · exact Or.inr restarted

theorem invariant_step (config : Config) (parse : Parser) (state : State) (label : Label)
    (next : State) (allowed : Allowed config state label) (invariant : Invariant state)
    (taken : step config parse state label = some next) : Invariant next := by
  cases label with
  | external after =>
      simp only [step] at taken
      split_ifs at taken with unique
      cases taken
      exact invariant.external allowed unique
  | call server clock uid ttl after =>
      simp only [step] at taken
      split at taken
      · cases taken
      next rc requests totals ended =>
        split_ifs at taken with failed guards
        · cases taken
          exact invariant
        · cases taken
          obtain ⟨_, answers, unique, settled⟩ := guards
          obtain ⟨_, done⟩ := perform_done answers invariant.unique ended
          exact invariant.call allowed done unique settled

theorem one_request_per_start (config : Config) (parse : Parser) (pool : XmlNode)
    (unique : UniqueIds pool) (labels : List Label) (state : State)
    (allowed : Machine.Along (step config parse) (Allowed config) (State.initial pool) labels)
    (reached : Machine.run (step config parse) (State.initial pool) labels = some state)
    (oid : Int) :
    state.requested oid ≤ 1 :=
  (Machine.run_invariant Invariant (invariant_step config parse)
    (invariant_initial unique) allowed reached).once oid

def activePool : XmlNode := poolOf (activeMachine "8" (historyFrom "100"))

def quietPool : XmlNode :=
  poolOf (.element .vm []
    (leaf .id "8" <| leaf .uid "5" <| leaf .state "8" <| historyFrom "100") .null)

def enforce (before after : XmlNode) : Label :=
  .call (fun _ _ => .success (.array [.boolean true, .string (serialize before)])) (fun _ =>
    1000) 5 500 after

def oneUser (action : Text) : State → Label → Option State :=
  step ⟨[], [(5, 500)], 0, action⟩ fun text => [activePool, quietPool].find? fun pool =>
    decide (serialize pool = text)

def requestsAbout (action : Text) (pool : XmlNode) (labels : List Label) : Option Nat :=
  (Machine.run (oneUser action) (State.initial pool) labels).map fun state => state.requested 8

theorem one_request_per_start_when_suspended :
    let labels := [.external activePool, enforce activePool quietPool, enforce quietPool quietPool]
    ∃ state, Machine.run (oneUser suspend) (State.initial (poolOf .null)) labels = some state ∧
      state.requested 8 = 1 ∧ state.requested 8 ≤ 1 := by
  intro labels
  have counted : requestsAbout suspend (poolOf .null) labels = some 1 := by decide +kernel
  obtain ⟨state, reached, once⟩ := Option.map_eq_some_iff.mp counted
  have unique : UniqueIds (poolOf .null) := List.Pairwise.nil
  refine ⟨state, reached, once, one_request_per_start _ _ _ unique labels state ?_ reached 8⟩
  have other : suspend ≠ reboot := by decide
  exact ⟨fun _ _ => Or.inr (Or.inl rfl), fun _ _ => ⟨other, fun _ _ => ⟨other, fun _ _ => trivial⟩⟩⟩

theorem two_requests_for_one_start :
    requestsAbout reboot activePool [enforce activePool activePool, enforce activePool activePool] =
      some 2 ∧
      requestsAbout suspend activePool
        [enforce activePool quietPool, .external activePool, enforce activePool quietPool] =
          some 2 := by
  decide +kernel

end OneFass.Terminator.Expiry
