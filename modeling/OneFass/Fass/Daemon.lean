import OneFass.Shared.Machine

set_option autoImplicit false

namespace OneFass.Fass.Daemon

inductive Opt where
  | version
  | help
  | initDb
  | foreground
  | unknown
  deriving DecidableEq

inductive Position where
  | options (rest : List Opt) (foreground : Bool)
  -- in `fassd_init`, which starts everything without the lock file
  | initializing
  | opening (foreground : Bool)
  | forking (foreground : Bool)
  -- in the child, or in the one process of the foreground, before `chdir`
  | entering (foreground : Bool)
  | detaching
  | serving
  | unlinking (code : Int)
  | exited (code : Int)
  | killed
  deriving DecidableEq

structure World where
  lockfile : Bool
  processes : List Position
  deriving DecidableEq

structure Outcome where
  position : Position
  lockfile : Bool
  forked : List Position

/-- One step of `main`; `ok` is the result of the system call that is made there. -/
def advance (lockfile ok : Bool) : Position → Option Outcome
  | .options [] foreground => some ⟨.opening foreground, lockfile, []⟩
  | .options (.version :: _) _ => some ⟨.exited 0, lockfile, []⟩
  | .options (.help :: _) _ => some ⟨.exited 0, lockfile, []⟩
  | .options (.initDb :: _) _ => some ⟨.initializing, lockfile, []⟩
  | .options (.foreground :: rest) _ => some ⟨.options rest true, lockfile, []⟩
  | .options (.unknown :: _) _ => some ⟨.exited (-1), lockfile, []⟩
  | .initializing => some ⟨.exited 0, lockfile, []⟩
  -- O_CREAT | O_EXCL
  | .opening foreground =>
      if ok && !lockfile then some ⟨.forking foreground, true, []⟩
      else some ⟨.exited (-1), lockfile, []⟩
  | .forking true => some ⟨.entering true, lockfile, []⟩
  | .forking false =>
      if ok then some ⟨.exited 0, lockfile, [.entering false]⟩
      -- the one exit that leaves the lock file behind
      else some ⟨.exited (-1), lockfile, []⟩
  | .entering foreground =>
      if !ok then some ⟨.unlinking (-1), lockfile, []⟩
      else some ⟨if foreground then .serving else .detaching, lockfile, []⟩
  | .detaching => some ⟨if ok then .serving else .unlinking (-1), lockfile, []⟩
  | .serving => some ⟨.unlinking 0, lockfile, []⟩
  -- nobody looks at the result of `unlink`
  | .unlinking code => some ⟨.exited code, lockfile && !ok, []⟩
  | .exited _ => none
  | .killed => none

inductive Label where
  | launch (options : List Opt)
  | process (pid : Nat) (ok : Bool)
  -- a signal, or an exception that leaves one of its threads
  | kill (pid : Nat)
  deriving DecidableEq

def step (world : World) : Label → Option World
  | .launch options => some { world with processes := world.processes ++ [.options options false] }
  | .process pid ok => do
      let position ← world.processes[pid]?
      let outcome ← advance world.lockfile ok position
      return ⟨outcome.lockfile, world.processes.set pid outcome.position ++ outcome.forked⟩
  | .kill pid =>
      match world.processes[pid]? with
      | none => none
      | some (.exited _) => none
      | some _ => some { world with processes := world.processes.set pid .killed }

def initial : World := ⟨false, []⟩

def Position.owns : Position → Bool
  | .forking _ => true
  | .entering _ => true
  | .detaching => true
  | .serving => true
  | .unlinking _ => true
  | _ => false

def World.owners (world : World) : Nat := world.processes.countP Position.owns

def Owned (world : World) : Prop :=
  ∃ (pid : Nat) (position : Position), world.processes[pid]? = some position ∧ position.owns = true

def abandons (world : World) : Label → Bool
  | .launch _ => false
  | .process pid ok =>
      match world.processes[pid]? with
      | some (.forking false) => !ok
      | some (.unlinking _) => !ok
      | _ => false
  | .kill pid =>
      match world.processes[pid]? with
      | some position => position.owns
      | none => false

section Steps

variable {world after : World} {label : Label}

inductive Transfer (world : World) (label : Label) (after : World) : Prop where
  | keeps (kept : abandons world label = false) (same : after.lockfile = world.lockfile)
      (count : after.owners = world.owners)
  | acquires (kept : abandons world label = false) (free : world.lockfile = false)
      (taken : after.lockfile = true)
      (count : after.owners = world.owners + 1)
  | releases (kept : abandons world label = false) (free : after.lockfile = false)
      (count : after.owners + 1 = world.owners)
  | abandons (left : abandons world label = true) (same : after.lockfile = world.lockfile)
      (count : after.owners + 1 = world.owners)

theorem owners_set {pid : Nat} {old : Position} (found : world.processes[pid]? = some old)
    (lockfile : Bool) (new : Position) (forked : List Position) :
    (World.mk lockfile (world.processes.set pid new ++ forked)).owners + (if old.owns then
      1 else 0) =
      world.owners + (if new.owns then 1 else 0) + forked.countP Position.owns := by
  obtain ⟨inside, rfl⟩ := List.getElem?_eq_some_iff.mp found
  have present : (if world.processes[pid].owns then 1 else 0) ≤ world.owners := by
    by_cases owner : world.processes[pid].owns = true
    · rw [if_pos owner]
      exact List.countP_pos_iff.mpr ⟨_, List.getElem_mem inside, owner⟩
    · rw [if_neg owner]
      exact Nat.zero_le _
  simp only [World.owners, List.countP_append, List.countP_set inside] at present ⊢
  omega

theorem process_transfer {pid : Nat} {ok : Bool} {position : Position} {outcome : Outcome}
    (found : world.processes[pid]? = some position)
    (advanced : advance world.lockfile ok position = some outcome) :
    Transfer world (.process pid ok)
      ⟨outcome.lockfile, world.processes.set pid outcome.position ++ outcome.forked⟩ := by
  have count := owners_set found outcome.lockfile outcome.position outcome.forked
  have left : abandons world (.process pid ok) =
      match some position with
      | some (.forking false) => !ok
      | some (.unlinking _) => !ok
      | _ => false := by rw [← found]; rfl
  cases position with
  | options rest foreground =>
      rcases rest with _ | ⟨opt, rest⟩
      · cases advanced
        exact .keeps left rfl (by simpa [Position.owns] using count)
      · cases opt <;> cases advanced <;> exact .keeps left rfl
          (by simpa [Position.owns] using count)
  | initializing =>
      cases advanced
      exact .keeps left rfl (by simpa [Position.owns] using count)
  | opening foreground =>
      simp only [advance] at advanced
      by_cases created : (ok && !world.lockfile) = true
      · rw [if_pos created] at advanced
        cases advanced
        simp only [Bool.and_eq_true, Bool.not_eq_true'] at created
        exact .acquires left created.2 rfl (by simpa [Position.owns] using count)
      · rw [if_neg created] at advanced
        cases advanced
        exact .keeps left rfl (by simpa [Position.owns] using count)
  | forking foreground =>
      cases foreground with
      | true =>
          cases advanced
          exact .keeps left rfl (by simpa [Position.owns] using count)
      | false =>
          cases ok with
          | true =>
              cases advanced
              exact .keeps left rfl (by simpa [Position.owns] using count)
          | false =>
              cases advanced
              exact .abandons left rfl (by simpa [Position.owns] using count)
  | entering foreground =>
      cases ok <;> cases foreground <;> cases advanced <;>
        exact .keeps left rfl (by simpa [Position.owns] using count)
  | detaching =>
      cases ok <;> cases advanced <;> exact .keeps left rfl (by simpa [Position.owns] using count)
  | serving =>
      cases advanced
      exact .keeps left rfl (by simpa [Position.owns] using count)
  | unlinking code =>
      cases advanced
      cases ok with
      | true => exact .releases left (Bool.and_false _) (by simpa [Position.owns] using count)
      | false => exact .abandons left (Bool.and_true _) (by simpa [Position.owns] using count)
  | exited code => cases advanced
  | killed => cases advanced

theorem step_transfer (taken : step world label = some after) : Transfer world label after := by
  cases label with
  | launch options =>
      cases taken
      exact .keeps rfl rfl (by simp [World.owners, Position.owns])
  | process pid ok =>
      simp only [step, Option.bind_eq_bind, Option.bind_eq_some_iff, pure,
        Option.some.injEq] at taken
      obtain ⟨position, found, outcome, advanced, rfl⟩ := taken
      exact process_transfer found advanced
  | kill pid =>
      simp only [step] at taken
      cases found : world.processes[pid]? with
      | none => simp [found] at taken
      | some position =>
          have count := owners_set found world.lockfile .killed []
          have left : abandons world (.kill pid) = position.owns := by simp [abandons, found]
          have result : after = { world with processes := world.processes.set pid .killed } := by
            rw [found] at taken
            cases position <;> simp_all
          subst result
          rw [show Position.killed.owns = false from rfl, List.append_nil] at count
          cases owner : position.owns with
          | false => exact .keeps (left.trans owner) rfl (by simpa [owner] using count)
          | true => exact .abandons (left.trans owner) rfl (by simpa [owner] using count)

end Steps

section Runs

variable {world after : World} {label : Label}

def Held (world : World) : Prop := world.owners ≤ 1 ∧ (world.owners = 1 → world.lockfile = true)

theorem held_initial : Held initial := ⟨by decide, by decide⟩

theorem held_step (held : Held world) (taken : step world label = some after) : Held after := by
  obtain ⟨single, locked⟩ := held
  cases step_transfer taken with
  | keeps _ same count => exact ⟨by omega, fun one => by rw [same]; exact locked (by omega)⟩
  | acquires _ free taken count =>
      -- the owner of a missing lock file would contradict the invariant
      have none : world.owners ≠ 1 := fun one => by simp [locked one] at free
      exact ⟨by omega, fun _ => taken⟩
  | releases _ free count => exact ⟨by omega, fun one => by omega⟩
  | abandons _ same count => exact ⟨by omega, fun one => by omega⟩

theorem held_run {labels : List Label} (held : Held world)
    (reached : Machine.run step world labels = some after) :
    Held after :=
  Machine.run_preserves Held (fun _ _ _ kept taken => held_step kept taken) held reached

theorem owned_iff : Owned world ↔ 0 < world.owners := by
  rw [World.owners, List.countP_pos_iff]
  constructor
  · rintro ⟨pid, position, found, owner⟩
    exact ⟨position, List.mem_of_getElem? found, owner⟩
  · rintro ⟨position, member, owner⟩
    obtain ⟨pid, found⟩ := List.getElem?_of_mem member
    exact ⟨pid, position, found, owner⟩

theorem owner_unique (single : world.owners ≤ 1) {pid other : Nat} {position rival : Position}
    (found : world.processes[pid]? = some position) (seen : world.processes[other]? = some rival)
    (owner : position.owns = true) (owner' : rival.owns = true) : pid = other := by
  by_cases same : pid = other
  · exact same
  have count := owners_set found true .killed []
  have still : (world.processes.set pid .killed ++ [])[other]? = some rival := by
    rw [List.append_nil, List.getElem?_set_ne same, seen]
  have another : 0 < (World.mk true (world.processes.set pid .killed ++ [])).owners :=
    List.countP_pos_iff.mpr ⟨rival, List.mem_of_getElem? still, owner'⟩
  rw [if_pos owner, if_neg (show ¬ Position.killed.owns = true by decide), List.countP_nil] at count
  omega

/-- No two of the launched processes have the lock file at a time. -/
theorem one_daemon (labels : List Label) (world : World)
    (reached : Machine.run step initial labels = some world) :
    (∀ (pid other : Nat) (position rival : Position), world.processes[pid]? = some position →
      world.processes[other]? = some rival →
        position.owns = true → rival.owns = true → pid = other) ∧
      (Owned world → world.lockfile = true) ∧
      (Machine.Along step (fun before label => abandons before label = false) initial labels →
        (world.lockfile = true ↔ Owned world)) := by
  have held := held_run held_initial reached
  have locked : Owned world → world.lockfile = true := by
    rw [owned_iff]
    intro some
    exact held.2 (by have := held.1; omega)
  refine ⟨fun pid other position rival => owner_unique held.1, locked, fun kept => ⟨?_, locked⟩⟩
  rw [owned_iff]
  refine (Machine.run_invariant (fun world => Held world ∧
    (world.lockfile = true → 0 < world.owners)) ?_ ⟨held_initial, by decide⟩ kept reached).2
  rintro before label after left ⟨invariant, owned⟩ taken
  refine ⟨held_step invariant taken, ?_⟩
  cases step_transfer taken with
  | keeps _ same count => rw [same, count]; exact owned
  | acquires _ _ _ count => intro _; omega
  | releases _ free _ => simp [free]
  | abandons gone => simp [left] at gone

theorem one_daemon_of_two_launches :
    ∃ world, Machine.run step initial
        [.launch [], .launch [.foreground], .process 0 true, .process 0 true, .process 1 true,
          .process 1 true] =
          some world ∧ (world.lockfile = true ↔ Owned world) := by
  have kept : Machine.Along step (fun before label => abandons before label = false) initial
      [.launch [], .launch [.foreground], .process 0 true, .process 0 true, .process 1 true,
        .process 1 true] := by
    repeat' first
      | exact trivial
      | refine ⟨rfl, ?_⟩
        rintro _ ⟨⟩
  exact ⟨_, rfl, (one_daemon _ _ rfl).2.2 kept⟩

def Stale (world : World) : Prop := world.lockfile = true ∧ world.owners = 0

theorem stale_step (stale : Stale world) (taken : step world label = some after) : Stale after := by
  obtain ⟨locked, none⟩ := stale
  cases step_transfer taken with
  | keeps _ same count => exact ⟨by rw [same, locked], by omega⟩
  | acquires _ free => simp [locked] at free
  | releases _ _ count => omega
  | abandons _ _ count => omega

theorem abandoned_lock_blocks (labels later : List Label) (label : Label)
    (before after final : World) (reached : Machine.run step initial labels = some before)
    (abandoned : abandons before label = true) (taken : step before label = some after)
    (continued : Machine.run step after later = some final) :
    final.lockfile = true ∧ ∀ (pid : Nat) (position : Position),
    final.processes[pid]? = some position →
      position.owns = false := by
  have held := held_run held_initial reached
  have stale : Stale after := by
    cases step_transfer taken with
    | keeps kept => simp [abandoned] at kept
    | acquires kept => simp [abandoned] at kept
    | releases kept => simp [abandoned] at kept
    | abandons _ same count =>
        have one : before.owners = 1 := by have := held.1; omega
        exact ⟨by rw [same, held.2 one], by omega⟩
  obtain ⟨locked, none⟩ := Machine.run_preserves Stale (fun _ _ _ kept taken =>
    stale_step kept taken) stale continued
  refine ⟨locked, fun pid position found => ?_⟩
  rw [World.owners, List.countP_eq_zero] at none
  simpa using none position (List.mem_of_getElem? found)

theorem abandoned_lock_blocks_next :
    ∃ final, Machine.run step ⟨true, [.exited (-1)]⟩
        [.launch [.foreground], .process 1 true, .process 1 true, .process 1 true] = some final ∧
      final.lockfile = true ∧ final.processes[1]? = some (.exited (-1)) ∧
      ∀ (pid : Nat) (position : Position), final.processes[pid]? = some position →
      position.owns = false :=
  have blocked := abandoned_lock_blocks [.launch [], .process 0 true, .process 0 true]
    [.launch [.foreground], .process 1 true, .process 1 true, .process 1 true]
      (.process 0 false) _ _ _ rfl rfl rfl rfl
  ⟨_, rfl, blocked.1, rfl, blocked.2⟩

end Runs

end OneFass.Fass.Daemon
