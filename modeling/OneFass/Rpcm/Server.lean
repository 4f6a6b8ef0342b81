import OneFass.Shared.Handles
import OneFass.Shared.Machine

set_option autoImplicit false

namespace OneFass.Rpcm.Server

inductive Position where
  | unstarted
  -- `start` has returned 0, and the daemon ends with an exception
  | failed
  -- `sigwait`
  | serving
  -- in `finalize`
  | terminated
  | cancelled
  | joined
  | deleted
  | closed
  -- after the `pthread_join` of `Fass::start`
  | rejoined
  deriving DecidableEq

-- `rm_xml_server_loop`
inductive Loop where
  | absent
  | starting
  | running
  | ended
  deriving DecidableEq

structure State where
  addresses : Handles
  sockets : Handles
  servers : Handles
  threads : Handles
  -- nothing stands for -1
  socket_fd : Option Nat
  -- nothing stands for a member that has no value yet
  AbyssServer : Option Nat
  rm_xml_server_thread : Option Nat
  loop : Loop
  position : Position
  -- a member without a value was followed
  wild : Bool
  deriving DecidableEq

def initial : State :=
  ⟨Handles.empty, Handles.empty, Handles.empty, Handles.empty, none, none, none, .absent,
    .unstarted, false⟩

structure Calls where
  getaddrinfo : Bool
  socket : Bool
  setsockopt : Bool
  bind : Bool
  pthread_create : Bool
  deriving DecidableEq

def setupSocketNew (calls : Calls) (state : State) : State × Int :=
  if !calls.getaddrinfo then (state, -1)
  else
    let (result, addresses) := state.addresses.allocate
    let freed := addresses.release result
    if !calls.socket then ({ state with addresses := freed, socket_fd := none }, -1)
    else
      let (fd, sockets) := state.sockets.allocate
      if !calls.setsockopt || !calls.bind then
        ({ state with addresses := freed, sockets := sockets.release fd, socket_fd := some fd }, -1)
      else ({ state with addresses := freed, sockets, socket_fd := some fd }, 0)

-- nobody looks at the result of `pthread_create`
def start (calls : Calls) (state : State) : State × Int :=
  let (state, rc) := setupSocketNew calls state
  if rc ≠ 0 then (state, 0)
  else if calls.pthread_create then
    let (thread, threads) := state.threads.allocate
    ({ state with threads, rm_xml_server_thread := some thread, loop := .starting }, 1)
  else (state, 1)

def follow (state : State) (member : Option Nat) (act : Nat → State) : State :=
  match member with
  | some handle => act handle
  | none => { state with wild := true }

/-- The next statement of `finalize`, and the last `pthread_join` after it. -/
def finalize (state : State) : Option State :=
  match state.position with
  | .serving =>
      let after := follow state state.AbyssServer fun server =>
        { state with servers := state.servers.use server }
      some { after with position := .terminated }
  | .terminated =>
      let after := follow state state.rm_xml_server_thread fun thread =>
        { state with threads := state.threads.use thread }
      some { after with position := .cancelled }
  | .cancelled =>
      if state.rm_xml_server_thread.isSome ∧ state.loop ≠ .ended then none
      else
        let after := follow state state.rm_xml_server_thread fun thread =>
          { state with threads := state.threads.release thread }
        some { after with position := .joined }
  | .joined =>
      let after := follow state state.AbyssServer fun server =>
        { state with servers := state.servers.release server }
      some { after with position := .deleted }
  | .deleted =>
      match state.socket_fd with
      | some fd => some { state with sockets := state.sockets.release fd, position := .closed }
      | none => some { state with position := .closed }
  | .closed =>
      let after := follow state state.rm_xml_server_thread fun thread =>
        { state with threads := state.threads.release thread }
      some { after with position := .rejoined }
  | _ => none

inductive Label where
  | start (calls : Calls)
  | main
  -- the constructor of the server and the assignment of the member
  | construct
  -- a connection on the socket
  | serve
  -- `run` returns
  | leave
  -- the cancellation takes effect
  | cancelled
  deriving DecidableEq

def Position.finalizing : Position → Bool
  | .terminated | .cancelled => true
  | _ => false

def step (state : State) : Label → Option State
  | .start calls =>
      if state.position = .unstarted then
        let (after, rc) := start calls state
        some { after with position := if rc = 0 then .failed else .serving }
      else none
  | .main => finalize state
  | .construct =>
      if state.loop = .starting then
        let (server, servers) := state.servers.allocate
        some { state with servers, AbyssServer := some server, loop := .running }
      else none
  | .serve =>
      if state.loop = .running then
        some (follow state state.AbyssServer fun server => follow state state.socket_fd fun fd =>
          { state with servers := state.servers.use server, sockets := state.sockets.use fd })
      else none
  | .leave =>
      if state.loop = .running ∧ state.position.finalizing then some { state with loop := .ended }
      else none
  | .cancelled =>
      if (state.loop = .starting ∨ state.loop = .running) ∧ state.position = .cancelled then
        some { state with loop := .ended }
      else none

def Ready (state : State) : Label → Prop
  | .main => state.position = .serving → state.AbyssServer.isSome
  | _ => True

structure Sound (state : State) : Prop where
  sane : state.wild = false
  addresses : state.addresses.Clean
  sockets : state.sockets.Clean
  servers : state.servers.Clean

structure Ledgers (state : State) (fds servers : List Nat) : Prop where
  sane : state.wild = false
  addresses : state.addresses.Clean ∧ state.addresses.Owns []
  sockets : state.sockets.Clean ∧ state.sockets.Owns fds
  servers : state.servers.Clean ∧ state.servers.Owns servers

def Joinable (state : State) (threads : List Nat) : Prop :=
  state.threads.Clean ∧ state.threads.Owns threads

def Serves (state : State) : Prop :=
  match state.loop with
  | .absent => state.AbyssServer = none ∧ state.rm_xml_server_thread = none
  | .starting => state.AbyssServer = none ∧ state.rm_xml_server_thread.isSome
  | .running => state.AbyssServer.isSome ∧ state.rm_xml_server_thread.isSome
  | .ended => False

def Kept (state : State) : Prop :=
  match state.position with
  | .unstarted | .failed => Ledgers state [] [] ∧ Joinable state [] ∧ state.loop = .absent ∧
      state.AbyssServer = none ∧ state.rm_xml_server_thread = none
  | .serving => ∃ fd, state.socket_fd = some fd ∧ Ledgers state [fd] state.AbyssServer.toList ∧
      Joinable state state.rm_xml_server_thread.toList ∧ Serves state
  | .terminated | .cancelled =>
      ∃ fd server thread, state.socket_fd = some fd ∧ state.AbyssServer = some server ∧
      state.rm_xml_server_thread = some thread ∧ Ledgers state [fd] [server] ∧
        Joinable state [thread] ∧
      (state.loop = .running ∨ state.loop = .ended)
  | .joined => ∃ fd server thread, state.socket_fd = some fd ∧ state.AbyssServer = some server ∧
      state.rm_xml_server_thread = some thread ∧ Ledgers state [fd] [server] ∧ Joinable state [] ∧
        state.loop = .ended
  | .deleted => ∃ fd thread, state.socket_fd = some fd ∧ state.rm_xml_server_thread = some thread ∧
      Ledgers state [fd] [] ∧ Joinable state [] ∧ state.loop = .ended
  | .closed =>
      ∃ thread, state.rm_xml_server_thread = some thread ∧ Ledgers state [] [] ∧ Joinable state [] ∧
      state.loop = .ended
  -- the thread was joined before
  | .rejoined =>
      ∃ thread, Ledgers state [] [] ∧ state.threads.violations = [.release thread] ∧
        state.threads.Owns [] ∧
      state.loop = .ended

section Start

variable {state : State}

theorem release_allocate {handles : Handles} (settled : handles.Clean ∧ handles.Owns []) :
    (handles.allocate.2.release handles.allocate.1).Clean ∧
    (handles.allocate.2.release handles.allocate.1).Owns [] := by
  have allocated := settled.2.allocate
  exact ⟨Handles.clean_release.mpr ⟨settled.1, (allocated.live _).mpr List.mem_cons_self⟩,
    allocated.release⟩

theorem setupSocketNew_settles (calls : Calls) (ledgers : Ledgers state [] []) :
    ((setupSocketNew calls state).2 = 0 ∧ ∃ fd, (setupSocketNew calls state).1.socket_fd = some fd ∧
        Ledgers (setupSocketNew calls state).1 [fd] []) ∨
      ((setupSocketNew calls state).2 = -1 ∧ Ledgers (setupSocketNew calls state).1 [] []) := by
  obtain ⟨sane, addresses, sockets, servers⟩ := ledgers
  unfold setupSocketNew
  split_ifs with resolved opened set
  · exact Or.inr ⟨rfl, sane, addresses, sockets, servers⟩
  · exact Or.inr ⟨rfl, sane, release_allocate addresses, sockets, servers⟩
  · exact Or.inr ⟨rfl, sane, release_allocate addresses, release_allocate sockets, servers⟩
  · exact Or.inl ⟨rfl, _, rfl, sane, release_allocate addresses, ⟨sockets.1, sockets.2.allocate⟩,
      servers⟩

theorem setupSocketNew_frame (calls : Calls) (state : State) :
    (setupSocketNew calls state).1.AbyssServer = state.AbyssServer ∧
      (setupSocketNew calls state).1.rm_xml_server_thread = state.rm_xml_server_thread ∧
      (setupSocketNew calls state).1.threads = state.threads ∧
      (setupSocketNew calls state).1.loop = state.loop := by
  unfold setupSocketNew
  split_ifs <;> exact ⟨rfl, rfl, rfl, rfl⟩

theorem kept_start (calls : Calls) (here : state.position = .unstarted) (kept : Kept state) :
    Kept { (start calls state).1 with
      position := if (start calls state).2 = 0 then .failed else .serving } := by
  rw [Kept, here] at kept
  obtain ⟨ledgers, joinable, absent, server, thread⟩ := kept
  obtain ⟨server', thread', threads, loop⟩ := setupSocketNew_frame calls state
  rw [server] at server'
  rw [thread] at thread'
  rw [absent] at loop
  have joinable' : Joinable (setupSocketNew calls state).1 [] := by
    rw [Joinable, threads]
    exact joinable
  rcases setupSocketNew_settles calls ledgers with ⟨returned, fd, socket,
    ⟨sane, addresses, sockets, servers⟩⟩ |
    ⟨returned, ⟨sane, addresses, sockets, servers⟩⟩
  · have made : start calls state = if calls.pthread_create then
        ({ (setupSocketNew calls state).1 with
            threads := (setupSocketNew calls state).1.threads.allocate.2
            rm_xml_server_thread := some (setupSocketNew calls state).1.threads.allocate.1
            loop := .starting }, 1)
        else ((setupSocketNew calls state).1, 1) := by
      simp only [start, returned]
      rfl
    have unserved : (setupSocketNew calls state).1.AbyssServer.toList = [] := by
      rw [server', Option.toList_none]
    have unthreaded : (setupSocketNew calls state).1.rm_xml_server_thread.toList = [] := by
      rw [thread', Option.toList_none]
    rw [made]
    cases calls.pthread_create with
    | true => exact ⟨fd, socket, ⟨sane, addresses, sockets, unserved ▸ servers⟩,
        ⟨joinable'.1, joinable'.2.allocate⟩, server', rfl⟩
    | false =>
        refine ⟨fd, socket, ⟨sane, addresses, sockets, unserved ▸ servers⟩, unthreaded ▸ joinable',
          ?_⟩
        simp only [Serves, Bool.false_eq_true, ↓reduceIte, loop]
        exact ⟨server', thread'⟩
  · have made : start calls state = ((setupSocketNew calls state).1, 0) := by
      simp only [start, returned]
      rfl
    rw [made]
    exact ⟨⟨sane, addresses, sockets, servers⟩, joinable', loop, server', thread'⟩

end Start

section Steps

variable {state next : State}

theorem use_owned {handles : Handles} {handle : Nat} (owned : handles.Owns [handle]) :
    handles.use handle = handles :=
  Handles.use_live ((owned.live handle).mpr List.mem_cons_self)

theorem release_owned {handles : Handles} {handle : Nat}
    (settled : handles.Clean ∧ handles.Owns [handle]) :
    (handles.release handle).Clean ∧ (handles.release handle).Owns [] :=
  ⟨Handles.clean_release.mpr ⟨settled.1, (settled.2.live handle).mpr List.mem_cons_self⟩,
    settled.2.release⟩

theorem running_of_server (serves : Serves state) (built : state.AbyssServer.isSome) :
    state.loop = .running ∧ state.rm_xml_server_thread.isSome := by
  unfold Serves at serves
  cases loop : state.loop with
  | absent => simp [loop, Option.isSome_iff_ne_none.mp built] at serves
  | starting => simp [loop, Option.isSome_iff_ne_none.mp built] at serves
  | running =>
      rw [loop] at serves
      exact ⟨rfl, serves.2⟩
  | ended => simp [loop] at serves

theorem kept_finalize (kept : Kept state)
    (ready : state.position = .serving → state.AbyssServer.isSome)
    (done : finalize state = some next) : Kept next := by
  unfold Kept at kept
  cases here : state.position <;> rw [here] at kept <;> simp only [finalize, here] at done
  case unstarted => cases done
  case failed => cases done
  case rejoined => cases done
  case serving =>
    obtain ⟨fd, socket, ⟨sane, addresses, sockets, servers⟩, joinable, serves⟩ := kept
    obtain ⟨running, threaded⟩ := running_of_server serves (ready here)
    obtain ⟨server, built⟩ := Option.isSome_iff_exists.mp (ready here)
    obtain ⟨thread, created⟩ := Option.isSome_iff_exists.mp threaded
    rw [built, Option.toList_some] at servers
    rw [created, Option.toList_some] at joinable
    simp only [built, follow, use_owned servers.2, Option.some.injEq] at done
    subst done
    exact ⟨fd, server, thread, socket, rfl, created, ⟨sane, addresses, sockets, servers⟩, joinable,
      Or.inl running⟩
  case terminated =>
    obtain ⟨fd, server, thread, socket, built, created, ledgers, joinable, loop⟩ := kept
    simp only [created, follow, use_owned joinable.2, Option.some.injEq] at done
    subst done
    exact ⟨fd, server, thread, socket, built, rfl,
      ⟨ledgers.sane, ledgers.addresses, ledgers.sockets, ledgers.servers⟩, joinable, loop⟩
  case cancelled =>
    obtain ⟨fd, server, thread, socket, built, created, ledgers, joinable, loop⟩ := kept
    split_ifs at done with alive
    have ended : state.loop = .ended := by
      rw [created] at alive
      simpa using alive
    simp only [created, follow, Option.some.injEq] at done
    subst done
    exact ⟨fd, server, thread, socket, built, rfl,
      ⟨ledgers.sane, ledgers.addresses, ledgers.sockets, ledgers.servers⟩,
      release_owned joinable, ended⟩
  case joined =>
    obtain ⟨fd, server, thread, socket, built, created, ledgers, joinable, ended⟩ := kept
    simp only [built, follow, Option.some.injEq] at done
    subst done
    exact ⟨fd, thread, socket, created,
      ⟨ledgers.sane, ledgers.addresses, ledgers.sockets, release_owned ledgers.servers⟩, joinable,
        ended⟩
  case deleted =>
    obtain ⟨fd, thread, socket, created, ledgers, joinable, ended⟩ := kept
    simp only [socket, Option.some.injEq] at done
    subst done
    exact ⟨thread, created, ⟨ledgers.sane, ledgers.addresses, release_owned ledgers.sockets,
      ledgers.servers⟩, joinable, ended⟩
  case closed =>
    obtain ⟨thread, created, ledgers, ⟨clean, owns⟩, ended⟩ := kept
    simp only [created, follow, Option.some.injEq] at done
    subst done
    have gone : state.threads.status thread ≠ .live := Handles.owns_nil_iff.mp owns thread
    refine ⟨thread, ⟨ledgers.sane, ledgers.addresses, ledgers.sockets, ledgers.servers⟩, ?_, ?_,
      ended⟩
    · simp only [Handles.release, if_neg gone]
      rw [show state.threads.violations = [] from clean, List.nil_append]
    · simp only [Handles.release, if_neg gone]
      exact ⟨owns.distinct, owns.live⟩

theorem kept_construct (kept : Kept state) (starting : state.loop = .starting) :
    Kept { state with
      servers := state.servers.allocate.2, AbyssServer := some state.servers.allocate.1,
      loop := .running } := by
  unfold Kept at kept ⊢
  cases here : state.position <;> rw [here] at kept <;>
    simp only [starting, reduceCtorEq, and_false, false_and, exists_false, or_self] at kept
  case serving =>
    obtain ⟨fd, socket, ⟨sane, addresses, sockets, servers⟩, joinable, serves⟩ := kept
    rw [Serves, starting] at serves
    rw [serves.1, Option.toList_none] at servers
    exact ⟨fd, socket, ⟨sane, addresses, sockets, servers.1, servers.2.allocate⟩, joinable, rfl,
      serves.2⟩

theorem kept_ended (kept : Kept state) (finalizing : state.position.finalizing = true) :
    Kept { state with loop := .ended } := by
  unfold Kept at kept ⊢
  cases here : state.position <;> rw [here] at kept finalizing <;>
    simp only [Position.finalizing, Bool.false_eq_true] at finalizing
  case terminated | cancelled =>
    obtain ⟨fd, server, thread, socket, built, created, ledgers, joinable, _⟩ := kept
    exact ⟨fd, server, thread, socket, built, created,
      ⟨ledgers.sane, ledgers.addresses, ledgers.sockets, ledgers.servers⟩, joinable, Or.inr rfl⟩

theorem serve_owned (kept : Kept state) (running : state.loop = .running) : ∃ fd server,
    state.socket_fd = some fd ∧ state.AbyssServer = some server ∧ state.sockets.Owns [fd] ∧
    state.servers.Owns [server] := by
  unfold Kept at kept
  cases here : state.position <;> rw [here] at kept <;>
    simp only [running, reduceCtorEq, and_false, false_and, exists_false, or_false] at kept
  case serving =>
    obtain ⟨fd, socket, ledgers, _, serves⟩ := kept
    rw [Serves, running] at serves
    obtain ⟨server, built⟩ := Option.isSome_iff_exists.mp serves.1
    have owned := ledgers.servers.2
    rw [built, Option.toList_some] at owned
    exact ⟨fd, server, socket, built, ledgers.sockets.2, owned⟩
  case terminated | cancelled =>
    obtain ⟨fd, server, _, socket, built, _, ledgers, _⟩ := kept
    exact ⟨fd, server, socket, built, ledgers.sockets.2, ledgers.servers.2⟩

theorem kept_step {label : Label} (ready : Ready state label) (kept : Kept state)
    (taken : step state label = some next) : Kept next := by
  cases label with
  | start calls =>
      simp only [step, Option.ite_none_right_eq_some, Option.some.injEq] at taken
      obtain ⟨here, rfl⟩ := taken
      exact kept_start calls here kept
  | main => exact kept_finalize kept ready taken
  | construct =>
      simp only [step, Option.ite_none_right_eq_some, Option.some.injEq] at taken
      obtain ⟨starting, rfl⟩ := taken
      exact kept_construct kept starting
  | serve =>
      simp only [step, Option.ite_none_right_eq_some, Option.some.injEq] at taken
      obtain ⟨running, rfl⟩ := taken
      obtain ⟨fd, server, socket, built, openSocket, live⟩ := serve_owned kept running
      rw [built, follow, socket, follow, use_owned live, use_owned openSocket, ← socket, ← built]
      exact kept
  | leave =>
      simp only [step, Option.ite_none_right_eq_some, Option.some.injEq] at taken
      obtain ⟨⟨_, finalizing⟩, rfl⟩ := taken
      exact kept_ended kept finalizing
  | cancelled =>
      simp only [step, Option.ite_none_right_eq_some, Option.some.injEq] at taken
      obtain ⟨⟨_, here⟩, rfl⟩ := taken
      exact kept_ended kept (by rw [here]; rfl)

theorem Ledgers.sound {fds servers : List Nat} (ledgers : Ledgers state fds servers) :
    Sound state :=
  ⟨ledgers.sane, ledgers.addresses.1, ledgers.sockets.1, ledgers.servers.1⟩

theorem sound_of_kept (kept : Kept state) : Sound state := by
  unfold Kept at kept
  cases here : state.position <;> rw [here] at kept
  case unstarted | failed =>
    obtain ⟨ledgers, _⟩ := kept
    exact ledgers.sound
  case serving =>
    obtain ⟨_, _, ledgers, _⟩ := kept
    exact ledgers.sound
  case terminated | cancelled | joined =>
    obtain ⟨_, _, _, _, _, _, ledgers, _⟩ := kept
    exact ledgers.sound
  case deleted =>
    obtain ⟨_, _, _, _, ledgers, _⟩ := kept
    exact ledgers.sound
  case closed =>
    obtain ⟨_, _, ledgers, _⟩ := kept
    exact ledgers.sound
  case rejoined =>
    obtain ⟨_, ledgers, _⟩ := kept
    exact ledgers.sound

end Steps

section Wild

variable {state next : State}

theorem wild_follow {member : Option Nat} {act : Nat → State}
    (keeps : ∀ handle, (act handle).wild = true) : (follow state member act).wild = true := by
  cases member with
  | none => rfl
  | some handle => exact keeps handle

theorem wild_start (calls : Calls) : (start calls state).1.wild = state.wild := by
  unfold start setupSocketNew
  split_ifs <;> rfl

theorem wild_finalize (wild : state.wild = true) (done : finalize state = some next) :
    next.wild = true := by
  unfold finalize at done
  split at done
  case h_1 | h_2 | h_4 | h_6 =>
    cases done
    exact wild_follow fun _ => wild
  case h_3 =>
    split_ifs at done
    cases done
    exact wild_follow fun _ => wild
  case h_5 =>
    split at done
    all_goals
      cases done
      exact wild
  case h_7 => cases done

theorem wild_step {label : Label} (wild : state.wild = true)
    (taken : step state label = some next) :
    next.wild = true := by
  cases label with
  | start calls =>
      simp only [step, Option.ite_none_right_eq_some, Option.some.injEq] at taken
      obtain ⟨_, rfl⟩ := taken
      exact (wild_start calls).trans wild
  | main => exact wild_finalize wild taken
  | serve =>
      simp only [step, Option.ite_none_right_eq_some, Option.some.injEq] at taken
      obtain ⟨_, rfl⟩ := taken
      exact wild_follow fun _ => wild_follow fun _ => wild
  | construct | leave | cancelled =>
      simp only [step, Option.ite_none_right_eq_some, Option.some.injEq] at taken
      obtain ⟨_, rfl⟩ := taken
      exact wild

theorem wild_of_unready {label : Label} (unready : ¬ Ready state label)
    (taken : step state label = some next) :
    next.wild = true := by
  cases label with
  | main =>
      simp only [Ready, Classical.not_imp, Bool.not_eq_true, Option.isSome_eq_false_iff,
        Option.isNone_iff_eq_none] at unready
      obtain ⟨here, missing⟩ := unready
      simp only [step, finalize, here, missing, follow, Option.some.injEq] at taken
      subst taken
      rfl
  | _ => exact absurd trivial unready

end Wild

theorem kept_initial : Kept initial :=
  ⟨⟨rfl, ⟨rfl, Handles.owns_empty⟩, ⟨rfl, Handles.owns_empty⟩, ⟨rfl, Handles.owns_empty⟩⟩,
    ⟨rfl, Handles.owns_empty⟩, rfl, rfl, rfl⟩

def Position.done : Position → Bool
  | .failed | .closed | .rejoined => true
  | _ => false

theorem Ledgers.released {state : State} (ledgers : Ledgers state [] [])
    (threads : state.threads.Owns []) :
    state.addresses.Owns [] ∧ state.sockets.Owns [] ∧ state.servers.Owns [] ∧
    state.threads.Owns [] :=
  ⟨ledgers.addresses.2, ledgers.sockets.2, ledgers.servers.2, threads⟩

theorem released_of_kept {state : State} (kept : Kept state) (done : state.position.done = true) :
    state.addresses.Owns [] ∧ state.sockets.Owns [] ∧ state.servers.Owns [] ∧
    state.threads.Owns [] := by
  unfold Kept at kept
  cases here : state.position <;> rw [here] at kept done <;> simp only [Position.done,
    Bool.false_eq_true] at done
  case failed =>
    obtain ⟨ledgers, joinable, _⟩ := kept
    exact ledgers.released joinable.2
  case closed =>
    obtain ⟨_, _, ledgers, joinable, _⟩ := kept
    exact ledgers.released joinable.2
  case rejoined =>
    obtain ⟨_, ledgers, _, joined, _⟩ := kept
    exact ledgers.released joined

theorem threads_of_kept {state : State} (kept : Kept state) :
    state.threads.Clean ↔ state.position ≠ .rejoined := by
  unfold Kept at kept
  cases here : state.position <;> rw [here] at kept <;>
    simp only [ne_eq, reduceCtorEq, not_false_eq_true, not_true_eq_false, iff_true, iff_false]
  case unstarted | failed => exact kept.2.1.1
  case serving => exact kept.choose_spec.2.2.1.1
  case terminated | cancelled | joined =>
    obtain ⟨_, _, _, _, _, _, _, joinable, _⟩ := kept
    exact joinable.1
  case deleted =>
    obtain ⟨_, _, _, _, _, joinable, _⟩ := kept
    exact joinable.1
  case closed =>
    obtain ⟨_, _, _, joinable, _⟩ := kept
    exact joinable.1
  case rejoined =>
    obtain ⟨_, _, again, _⟩ := kept
    intro clean
    rw [Handles.Clean, again] at clean
    cases clean

theorem server_lifecycle (labels : List Label) (final : State)
    (reached : Machine.run step initial labels = some final) :
    (Sound final ↔ Machine.Along step Ready initial labels) ∧
      (Sound final → (final.threads.Clean ↔ final.position ≠ .rejoined) ∧
        (final.position.done = true → final.addresses.Owns [] ∧ final.sockets.Owns [] ∧
          final.servers.Owns [] ∧ final.threads.Owns [])) := by
  have kept (along : Machine.Along step Ready initial labels) : Kept final :=
    Machine.run_invariant Kept (fun _ _ _ ready kept taken =>
      kept_step ready kept taken) kept_initial along reached
  have along (sound : Sound final) : Machine.Along step Ready initial labels := by
    refine Machine.along_of_unspoiled (fun state => state.wild = true) ?_ ?_ reached
      (by rw [sound.sane]; decide)
    · intro state label next wild taken
      exact wild_step wild taken
    · intro state label next unready taken
      exact wild_of_unready unready taken
  refine ⟨⟨along, fun ready => sound_of_kept (kept ready)⟩, ?_⟩
  intro sound
  exact ⟨threads_of_kept (kept (along sound)), released_of_kept (kept (along sound))⟩

section Example

def opened : Label := .start ⟨true, true, true, true, true⟩

def shutdown : List Label := [opened, .construct, .serve, .main, .main, .leave, .main, .main, .main,
    .main]

theorem server_lifecycle_shutdown : ∃ final, Machine.run step initial shutdown = some final ∧
    final.threads.violations = [.release 0] ∧
    (Sound final ↔ Machine.Along step Ready initial shutdown) ∧
      (Sound final → (final.threads.Clean ↔ final.position ≠ .rejoined) ∧
        (final.position.done = true → final.addresses.Owns [] ∧ final.sockets.Owns [] ∧
          final.servers.Owns [] ∧ final.threads.Owns [])) :=
  ⟨_, rfl, rfl, server_lifecycle shutdown _ rfl⟩

-- a signal that comes before the thread has built its server
example : (Machine.run step initial [opened, .main]).map State.wild = some true := rfl

end Example

end OneFass.Rpcm.Server
