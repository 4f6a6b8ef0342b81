import OneFass.Config.Shares

set_option autoImplicit false

namespace OneFass.Config

open Runtime

structure Outcome where
  returned : Bool
  shares : List Text
  logged : Bool
  deriving DecidableEq

-- `FassLog::log`, which follows the logger that `init_log_system` has made
def log (logger : Bool) : Except Fault Unit :=
  if logger then .ok () else .error (.undefined .nullPointer)

def loadUsers (logger : Bool) (settings : Settings) :
    List Section → List Text → Except Fault Outcome
  | [], shares => .ok ⟨true, shares, false⟩
  | entry :: rest, shares =>
      match loadUser settings entry.name with
      | some value => loadUsers logger settings rest (shares ++ [value])
      | none => do
          log logger
          return ⟨false, shares, true⟩

def loadSharesInto (logger : Bool) (document : Option Settings) (shares : List Text) :
    Except Fault Outcome :=
  match document with
  | none => .ok ⟨false, shares, false⟩
  | some settings => loadUsers logger settings settings.sections shares

/-- The initial shares of `Fass::start`. -/
def startShares (document : Option Settings) : Except Fault (List Text) := do
  let outcome ← loadSharesInto false document []
  if outcome.returned then return outcome.shares
  else .error (.raised (.runtimeError "Could not load initial shares file."))

def AllOrNothing (logger : Bool) (document : Option Settings) (shares : List Text) : Prop :=
  ∃ outcome, loadSharesInto logger document shares = .ok outcome ∧ outcome.logged = false ∧
    match document with
    | none => outcome.returned = false ∧ outcome.shares = shares
    | some settings =>
        (outcome.returned = true ∧ ∃ records, outcome.shares = shares ++ records ∧
          List.Forall₂ (fun entry record => ∃ stated : Stated entry, stated.record = record)
            settings.sections records) ∨
        ((∃ entry ∈ settings.sections, IsEmpty (Stated entry)) ∧ outcome.returned = false ∧
          outcome.shares = shares)

section Loop

variable {logger : Bool} {settings : Settings} {sections : List Section}
    {shares records : List Text}
  {outcome : Outcome}

theorem loadUsers_loaded
    (loaded : List.Forall₂ (fun entry record => loadUser settings entry.name = some record)
    sections records) : loadUsers logger settings sections shares =
      .ok ⟨true, shares ++ records, false⟩ := by
  induction loaded generalizing shares with
  | nil => simp [loadUsers]
  | cons first rest ih =>
      simp only [loadUsers, first, ih]
      simp

theorem loadUsers_stopped
    (loaded : List.Forall₂ (fun entry record => loadUser settings entry.name = some record)
    sections records) {bad : Section} (failed : loadUser settings bad.name = none) (rest :
    List Section) :
    loadUsers logger settings (sections ++ bad :: rest) shares =
      if logger then .ok ⟨false, shares ++ records, true⟩
      else .error (.undefined .nullPointer) := by
  induction loaded generalizing shares with
  | nil => cases logger <;> simp [loadUsers, failed, log, bind, Except.bind, pure, Except.pure]
  | cons first others ih =>
      simp only [List.cons_append, loadUsers, first, ih]
      simp

theorem loaded_of_unlogged (done : loadUsers logger settings sections shares = .ok outcome)
    (unlogged : outcome.logged = false) :
    ∀ entry ∈ sections, ∃ record, loadUser settings entry.name = some record := by
  induction sections generalizing shares with
  | nil => simp
  | cons entry rest ih =>
      rw [loadUsers] at done
      split at done
      · next value first =>
          rw [List.forall_mem_cons]
          exact ⟨⟨value, first⟩, ih done⟩
      · obtain ⟨_, _, ends⟩ := bind_eq_ok.mp done
        cases ends
        cases unlogged

theorem loadShares_eq_some_iff :
    loadShares settings = some records ↔
      List.Forall₂ (fun entry record =>
        loadUser settings entry.name = some record) settings.sections records :=
  mapM_eq_some

theorem loadSharesInto_of_loadShares (loaded : loadShares settings = some records) :
    loadSharesInto logger (some settings) shares = .ok ⟨true, shares ++ records, false⟩ :=
  loadUsers_loaded (loadShares_eq_some_iff.mp loaded)

end Loop

theorem forall₂_of_forall {α β : Type} {related : α → β → Prop} {inputs : List α}
    (each : ∀ input ∈ inputs, ∃ output, related input output) :
    ∃ outputs, List.Forall₂ related inputs outputs := by
  induction inputs with
  | nil => exact ⟨[], .nil⟩
  | cons input rest ih =>
      obtain ⟨output, first⟩ := each input List.mem_cons_self
      obtain ⟨outputs, others⟩ := ih fun other member => each other (List.mem_cons_of_mem _ member)
      exact ⟨output :: outputs, .cons first others⟩

section Loaded

variable {logger : Bool} {settings : Settings} {shares records : List Text}

theorem stated_of_loaded
    (loaded : List.Forall₂ (fun entry record => loadUser settings entry.name = some record)
    settings.sections records) :
    List.Forall₂ (fun entry record =>
      ∃ stated : Stated entry, stated.record = record) settings.sections records := by
  have members : ∀ entry ∈ settings.sections, entry ∈ settings.sections := fun _ member => member
  have pairs := (List.forall₂_and_left settings.sections records).mpr ⟨members, loaded⟩
  exact pairs.imp fun entry record both => ((loadUser_eq_some both.1 record).mp both.2).2

theorem complete_of_allOrNothing (whole : AllOrNothing logger (some settings) shares) :
    ∀ entry ∈ settings.sections, '.' ∉ entry.name ∧ Nonempty (Stated entry) := by
  obtain ⟨outcome, done, unlogged, _⟩ := whole
  intro entry member
  obtain ⟨record, loaded⟩ := loaded_of_unlogged done unlogged entry member
  obtain ⟨simple, stated, _⟩ := (loadUser_eq_some member record).mp loaded
  exact ⟨simple, ⟨stated⟩⟩

theorem allOrNothing_of_complete
    (complete : ∀ entry ∈ settings.sections, '.' ∉ entry.name ∧ Nonempty (Stated entry)) :
    AllOrNothing logger (some settings) shares := by
  have each : ∀ entry ∈ settings.sections,
      ∃ record, loadUser settings entry.name = some record := by
    intro entry member
    obtain ⟨simple, ⟨stated⟩⟩ := complete entry member
    exact ⟨stated.record, (loadUser_eq_some member _).mpr ⟨simple, stated, rfl⟩⟩
  obtain ⟨records, loaded⟩ := forall₂_of_forall each
  exact ⟨_, loadUsers_loaded loaded, rfl, Or.inl ⟨rfl, records, rfl, stated_of_loaded loaded⟩⟩

end Loaded

theorem allOrNothing_iff (logger : Bool) (document : Option Settings) (shares : List Text) :
    AllOrNothing logger document shares ↔
      ∀ settings, document = some settings →
        ∀ entry ∈ settings.sections, '.' ∉ entry.name ∧ Nonempty (Stated entry) := by
  cases document with
  | none => exact ⟨fun _ => nofun, fun _ => ⟨_, rfl, rfl, rfl, rfl⟩⟩
  | some settings =>
      simp only [Option.some.injEq, forall_eq']
      exact ⟨complete_of_allOrNothing, allOrNothing_of_complete⟩

theorem startShares_raises_iff (document : Option Settings) :
    startShares document = .error (.raised (.runtimeError "Could not load initial shares file.")) ↔
    document = none := by
  cases document with
  | none => exact ⟨fun _ => rfl, fun _ => rfl⟩
  | some settings =>
      simp only [startShares, loadSharesInto, reduceCtorEq, iff_false]
      have ends (sections : List Section) (shares : List Text) :
          loadUsers false settings sections shares = .error (.undefined .nullPointer) ∨
            ∃ later, loadUsers false settings sections shares = .ok ⟨true, later, false⟩ := by
        induction sections generalizing shares with
        | nil => exact Or.inr ⟨shares, rfl⟩
        | cons entry rest ih =>
            simp only [loadUsers]
            cases loadUser settings entry.name with
            | none => exact Or.inl rfl
            | some value => exact ih (shares ++ [value])
      rcases ends settings.sections [] with failed | ⟨later, loaded⟩
      · simp [failed, bind, Except.bind]
      · simp [loaded, bind, Except.bind, pure, Except.pure]

section Example

def documented : Settings where
  sections :=
    [⟨"oneadmin".toList, [(uidKey, "0".toList), (gidKey, "0".toList), (shareKey, "50".toList),
      (ttlKey, "600".toList)]⟩,
      ⟨"serveradmin".toList, [(uidKey, "1".toList), (gidKey, "0".toList), (shareKey, "0".toList)]⟩,
      ⟨"goofy".toList, [(uidKey, "2".toList), (gidKey, "1".toList), (shareKey, "50".toList),
        (ttlKey, "600".toList)]⟩]
  distinct := by decide +kernel

def dotted : Settings where
  sections :=
    [⟨"goofy.disney".toList,
      [(uidKey, "2".toList), (gidKey, "1".toList), (shareKey, "50".toList),
        (ttlKey, "600".toList)]⟩]
  distinct := by decide +kernel

theorem documented_not_allOrNothing :
    loadSharesInto true (some documented) [] = .ok ⟨false, ["oneadmin:0:0:50:600".toList], true⟩ ∧
      startShares (some documented) = .error (.undefined .nullPointer) ∧
      ¬ AllOrNothing false (some documented) [] ∧
      startShares (some dotted) = .error (.undefined .nullPointer) := by
  refine ⟨by decide +kernel, by decide +kernel, ?_, by decide +kernel⟩
  rintro ⟨outcome, done, _⟩
  have failed : loadSharesInto false (some documented) [] = .error (.undefined .nullPointer) := by
    decide +kernel
  rw [failed] at done
  cases done

end Example

end OneFass.Config
