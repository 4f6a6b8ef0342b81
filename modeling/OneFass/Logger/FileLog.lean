import Mathlib.Tactic.IntervalCases
import OneFass.Shared.Machine
import OneFass.Shared.Runtime

set_option autoImplicit false

namespace OneFass.Logger

open Runtime

inductive MessageType where
  | error
  | warning
  | info
  | debug
  | ddebug
  | dddebug
  deriving DecidableEq

namespace MessageType

def value : MessageType → Nat
  | error => 0
  | warning => 1
  | info => 2
  | debug => 3
  | ddebug => 4
  | dddebug => 5

-- `error_names`
def letter : MessageType → Char
  | error => 'E'
  | warning => 'W'
  | info => 'I'
  | _ => 'D'

def ofInt (level : Int) : Option MessageType :=
  [error, warning, info, debug, ddebug, dddebug][level.toNat]?

end MessageType

/-- `Fass::get_debug_level`: whatever is no level counts as the level of errors. -/
def getDebugLevel (log_level_int : Int) : MessageType :=
  if log_level_int ≠ 0 then
    if (MessageType.error.value : Int) ≤ log_level_int ∧
        log_level_int ≤ MessageType.dddebug.value then
      (MessageType.ofInt log_level_int).getD .error
    else .error
  else .error

structure Call where
  component : Text
  type : MessageType
  message : Text
  deriving DecidableEq

-- `message.c_str()`
def cString (message : Text) : Text := message.takeWhile fun c => decide (c ≠ '\x00')

structure Record where
  thread : Nat
  call : Call
  time : Text
  deriving DecidableEq

def Record.pieces (record : Record) : List Text :=
  [record.time, " ".toList, "[".toList ++ record.call.component ++ "]".toList,
    "[".toList ++ [record.call.type.letter] ++ "]: ".toList, cString record.call.message,
      "\n".toList]

def Record.text (record : Record) : Text := record.pieces.flatten

inductive Phase where
  | idle
  -- at `pthread_mutex_lock`
  | locking (call : Call)
  -- at the comparison with the level
  | checking (call : Call)
  | opening (call : Call)
  | writing (left : List Text)
  | unlocking
  deriving DecidableEq

structure FileLogTS where
  log_level : MessageType
  log_mutex : Option Nat
  file : Text
  threads : Nat → Phase
  asked : List (Nat × Call)
  begun : List Record

inductive Label where
  | log (thread : Nat) (call : Call)
  | lock (thread : Nat)
  | check (thread : Nat)
  -- nothing when the file cannot be opened
  | openFile (thread : Nat) (time : Option Text)
  | write (thread : Nat)
  | unlock (thread : Nat)

namespace FileLogTS

def goTo (logger : FileLogTS) (thread : Nat) (phase : Phase) : FileLogTS :=
  { logger with threads := fun other => if other = thread then phase else logger.threads other }

@[simp] theorem threads_goTo (logger : FileLogTS) (thread other : Nat) (phase : Phase) :
    (logger.goTo thread phase).threads other = if other = thread then
    phase else logger.threads other := rfl

-- the constructor opens the file with `ios_base::trunc`
def init (log_level : MessageType) : FileLogTS := ⟨log_level, none, [], fun _ => .idle, [], []⟩

def step (logger : FileLogTS) : Label → Option FileLogTS
  | .log thread call =>
      match logger.threads thread with
      | .idle =>
          some { logger.goTo thread (.locking call) with asked := logger.asked ++ [(thread, call)] }
      | _ => none
  | .lock thread =>
      match logger.threads thread, logger.log_mutex with
      | .locking call, none =>
          some { logger.goTo thread (.checking call) with log_mutex := some thread }
      | _, _ => none
  | .check thread =>
      match logger.threads thread with
      | .checking call =>
          some (logger.goTo thread
            (if call.type.value ≤ logger.log_level.value then .opening call else .unlocking))
      | _ => none
  | .openFile thread time =>
      match logger.threads thread, time with
      | .opening call, some time =>
          let record : Record := ⟨thread, call, time⟩
          some { logger.goTo thread (.writing record.pieces) with
            begun := logger.begun ++ [record] }
      | .opening _, none => some (logger.goTo thread .unlocking)
      | _, _ => none
  | .write thread =>
      match logger.threads thread with
      | .writing (piece :: left) =>
          some { logger.goTo thread (.writing left) with file := logger.file ++ piece }
      | .writing [] => some (logger.goTo thread .unlocking)
      | _ => none
  | .unlock thread =>
      match logger.threads thread with
      | .unlocking => some { logger.goTo thread .idle with log_mutex := none }
      | _ => none

inductive Steps (logger : FileLogTS) : Label → FileLogTS → Prop where
  | log {thread : Nat} (call : Call) (phase : logger.threads thread = .idle) :
      Steps logger (.log thread call)
        { logger.goTo thread (.locking call) with asked := logger.asked ++ [(thread, call)] }
  | lock {thread : Nat} {call : Call} (phase : logger.threads thread = .locking call)
      (free : logger.log_mutex = none) :
      Steps logger (.lock thread)
        { logger.goTo thread (.checking call) with log_mutex := some thread }
  | pass {thread : Nat} {call : Call} (phase : logger.threads thread = .checking call)
      (level : call.type.value ≤ logger.log_level.value) :
      Steps logger (.check thread) (logger.goTo thread (.opening call))
  | drop {thread : Nat} {call : Call} (phase : logger.threads thread = .checking call)
      (level : ¬ call.type.value ≤ logger.log_level.value) :
        Steps logger (.check thread) (logger.goTo thread .unlocking)
  | begin {thread : Nat} {call : Call} (time : Text)
      (phase : logger.threads thread = .opening call) :
      Steps logger (.openFile thread (some time))
        { logger.goTo thread (.writing (Record.mk thread call time).pieces) with
          begun := logger.begun ++ [⟨thread, call, time⟩] }
  | fail {thread : Nat} {call : Call} (phase : logger.threads thread = .opening call) :
      Steps logger (.openFile thread none) (logger.goTo thread .unlocking)
  | write {thread : Nat} {piece : Text} {left : List Text}
      (phase : logger.threads thread = .writing (piece :: left)) :
      Steps logger (.write thread)
        { logger.goTo thread (.writing left) with file := logger.file ++ piece }
  | close {thread : Nat} (phase : logger.threads thread = .writing []) :
      Steps logger (.write thread) (logger.goTo thread .unlocking)
  | unlock {thread : Nat} (phase : logger.threads thread = .unlocking) :
      Steps logger (.unlock thread) { logger.goTo thread .idle with log_mutex := none }

theorem steps_of_step {logger after : FileLogTS} {label : Label}
    (taken : logger.step label = some after) :
    Steps logger label after := by
  cases label with
  | log thread call =>
      cases phase : logger.threads thread <;> simp only [step, phase, Option.some.injEq,
        reduceCtorEq] at taken
      subst taken
      exact .log call phase
  | lock thread =>
      cases phase : logger.threads thread <;> cases free : logger.log_mutex <;>
        simp only [step, phase, free, Option.some.injEq, reduceCtorEq] at taken
      subst taken
      exact .lock phase free
  | check thread =>
      cases phase : logger.threads thread <;> simp only [step, phase, Option.some.injEq,
        reduceCtorEq] at taken
      subst taken
      split
      case isTrue level => exact .pass phase level
      case isFalse level => exact .drop phase level
  | openFile thread time =>
      cases phase : logger.threads thread <;> cases time <;>
        simp only [step, phase, Option.some.injEq, reduceCtorEq] at taken <;> subst taken
      · exact .fail phase
      · exact .begin _ phase
  | write thread =>
      cases phase : logger.threads thread <;> simp only [step, phase, reduceCtorEq] at taken
      case writing left =>
        cases left <;> simp only [Option.some.injEq] at taken <;> subst taken
        · exact .close phase
        · exact .write phase
  | unlock thread =>
      cases phase : logger.threads thread <;> simp only [step, phase, Option.some.injEq,
        reduceCtorEq] at taken
      subst taken
      exact .unlock phase

end FileLogTS

section Serial

def Phase.inside : Phase → Bool
  | .idle => false
  | .locking _ => false
  | _ => true

def Phase.left : Phase → Text
  | .writing left => left.flatten
  | _ => []

def FileLogTS.left (logger : FileLogTS) : Text :=
  match logger.log_mutex with
  | some thread => (logger.threads thread).left
  | none => []

def FileLogTS.logs (logger : FileLogTS) (call : Call) : Bool :=
  decide (call.type.value ≤ logger.log_level.value)

def FileLogTS.upcoming (logger : FileLogTS) (thread : Nat) : List Call :=
  match logger.threads thread with
  | .locking call => [call].filter logger.logs
  | .checking call => [call].filter logger.logs
  | .opening call => [call]
  | _ => []

def FileLogTS.askedBy (logger : FileLogTS) (thread : Nat) : List Call :=
  (logger.asked.filter fun entry => entry.1 = thread).map Prod.snd

def FileLogTS.begunBy (logger : FileLogTS) (thread : Nat) : List Call :=
  (logger.begun.filter fun record => record.thread = thread).map Record.call

structure Serial (logger : FileLogTS) : Prop where
  holder : ∀ thread, (logger.threads thread).inside = true ↔ logger.log_mutex = some thread
  text : logger.file ++ logger.left = logger.begun.flatMap Record.text
  passed : ∀ thread call, logger.threads thread = .opening call → logger.logs call = true
  levels : ∀ record ∈ logger.begun, logger.logs record.call = true

variable {logger after : FileLogTS} {label : Label} {thread : Nat} {phase : Phase}

theorem left_goTo (same : phase.left = (logger.threads thread).left) :
    (logger.goTo thread phase).left = logger.left := by
  simp only [FileLogTS.left, FileLogTS.goTo]
  cases logger.log_mutex with
  | none => rfl
  | some holder =>
      by_cases own : holder = thread
      · simp only [own, ↓reduceIte, same]
      · simp only [own, ↓reduceIte]

theorem holder_goTo (serial : Serial logger) (same : phase.inside = (logger.threads thread).inside)
    (other : Nat) :
    ((logger.goTo thread phase).threads other).inside = true ↔ logger.log_mutex = some other := by
  rw [FileLogTS.threads_goTo, ← serial.holder]
  by_cases own : other = thread
  · rw [if_pos own, own, same]
  · rw [if_neg own]

theorem left_goTo_holder (held : logger.log_mutex = some thread) :
    (logger.goTo thread phase).left = phase.left := by
  have own : (logger.goTo thread phase).log_mutex = some thread := held
  rw [FileLogTS.left, own]
  simp only [FileLogTS.threads_goTo, ↓reduceIte]

theorem left_of_holder (held : logger.log_mutex = some thread) :
    logger.left = (logger.threads thread).left := by
  rw [FileLogTS.left, held]

theorem passed_goTo (serial : Serial logger)
    (opens : ∀ call, phase = .opening call → logger.logs call = true) (other : Nat) (call : Call)
    (found : (logger.goTo thread phase).threads other = .opening call) :
    logger.logs call = true := by
  rw [FileLogTS.threads_goTo] at found
  by_cases own : other = thread
  · rw [if_pos own] at found
    exact opens call found
  · rw [if_neg own] at found
    exact serial.passed other call found

theorem Serial.goTo (serial : Serial logger)
    (inside : phase.inside = (logger.threads thread).inside)
    (left : phase.left = (logger.threads thread).left)
    (opens : ∀ call, phase = .opening call → logger.logs call = true) :
    Serial (logger.goTo thread phase) where
  holder := holder_goTo serial inside
  text := by
    rw [left_goTo left]
    exact serial.text
  passed := passed_goTo serial opens
  levels := serial.levels

theorem serial_lock {call : Call} (serial : Serial logger) (free : logger.log_mutex = none) :
    Serial { logger.goTo thread (.checking call) with log_mutex := some thread } where
  holder := by
    intro other
    have outside := serial.holder other
    simp only [free, reduceCtorEq, iff_false, Bool.not_eq_true] at outside
    by_cases own : other = thread
    · simp [own, Phase.inside]
    · have different : thread ≠ other := fun same => own same.symm
      simp [own, outside, different]
  text := by
    have text := serial.text
    rw [FileLogTS.left, free] at text
    simp only [FileLogTS.left, FileLogTS.threads_goTo, ↓reduceIte]
    exact text
  passed := passed_goTo serial (by simp)
  levels := serial.levels

theorem serial_unlock (serial : Serial logger) (unlocking : logger.threads thread = .unlocking) :
    Serial { logger.goTo thread .idle with log_mutex := none } where
  holder := by
    have held := (serial.holder thread).mp (by rw [unlocking]; rfl)
    intro other
    by_cases own : other = thread
    · simp [own, Phase.inside]
    · have outside : (logger.threads other).inside = false := by
        rw [Bool.eq_false_iff, Ne, serial.holder, held]
        exact fun same => own (Option.some.inj same).symm
      simp [own, outside]
  text := by
    have held := (serial.holder thread).mp (by rw [unlocking]; rfl)
    have text := serial.text
    rw [left_of_holder held, unlocking] at text
    exact text
  passed := passed_goTo serial (by simp)
  levels := serial.levels

theorem serial_begin {call : Call} (serial : Serial logger)
    (opening : logger.threads thread = .opening call) (time : Text) :
    Serial { logger.goTo thread (.writing (Record.mk thread call time).pieces) with
      begun := logger.begun ++ [⟨thread, call, time⟩] } where
  holder := holder_goTo serial (by rw [opening]; rfl)
  text := by
    have held := (serial.holder thread).mp (by rw [opening]; rfl)
    have text := serial.text
    rw [left_of_holder held, opening] at text
    have own : (logger.goTo thread (.writing (Record.mk thread call time).pieces)).left =
        (Record.mk thread call time).text := left_goTo_holder held
    rw [List.flatMap_append, ← text, List.flatMap_singleton, ← own]
    simp only [Phase.left, List.append_nil]
    rfl
  passed := passed_goTo serial (by simp)
  levels := by
    intro record member
    rcases List.mem_append.mp member with old | new
    · exact serial.levels record old
    · rw [List.mem_singleton.mp new]
      exact serial.passed thread call opening

theorem serial_write {piece : Text} {left : List Text} (serial : Serial logger)
    (writing : logger.threads thread = .writing (piece :: left)) :
    Serial { logger.goTo thread (.writing left) with file := logger.file ++ piece } where
  holder := holder_goTo serial (by rw [writing]; rfl)
  text := by
    have held := (serial.holder thread).mp (by rw [writing]; rfl)
    have text := serial.text
    rw [left_of_holder held, writing] at text
    have own : (logger.goTo thread (.writing left)).left = left.flatten := left_goTo_holder held
    change logger.file ++ piece ++ (logger.goTo thread (.writing left)).left = _
    rw [own, List.append_assoc]
    exact text
  passed := passed_goTo serial (by simp)
  levels := serial.levels

theorem serial_step (serial : Serial logger) (taken : FileLogTS.Steps logger label after) :
    Serial after := by
  cases taken with
  | log call idle =>
      have moved := @Serial.goTo _ _ (.locking call) serial (by rw [idle]; rfl) (by rw [idle]; rfl)
        (by simp)
      exact ⟨moved.holder, moved.text, moved.passed, moved.levels⟩
  | lock locking free => exact serial_lock serial free
  | pass checking level =>
      refine serial.goTo (by rw [checking]; rfl) (by rw [checking]; rfl) ?_
      rintro _ ⟨⟩
      exact decide_eq_true level
  | drop checking => exact serial.goTo (by rw [checking]; rfl) (by rw [checking]; rfl) (by simp)
  | begin time opening => exact serial_begin serial opening time
  | fail opening => exact serial.goTo (by rw [opening]; rfl) (by rw [opening]; rfl) (by simp)
  | write writing => exact serial_write serial writing
  | close writing => exact serial.goTo (by rw [writing]; rfl) (by rw [writing]; rfl) (by simp)
  | unlock unlocking => exact serial_unlock serial unlocking

theorem log_level_step (taken : FileLogTS.Steps logger label after) :
    after.log_level = logger.log_level := by
  cases taken <;> rfl

end Serial

section Accounts

variable {logger after : FileLogTS} {label : Label}

def opens : Label → Bool
  | .openFile _ none => false
  | _ => true

def Accounts (logger : FileLogTS) : Prop :=
  ∀ thread, logger.begunBy thread ++ logger.upcoming thread =
    (logger.askedBy thread).filter logger.logs

theorem upcoming_goTo {thread : Nat} {phase : Phase} (other : Nat) (different : other ≠ thread) :
    (logger.goTo thread phase).upcoming other = logger.upcoming other := by
  simp only [FileLogTS.upcoming, FileLogTS.threads_goTo, different, ↓reduceIte]
  rfl

theorem Accounts.goTo {thread : Nat} {phase : Phase} (accounts : Accounts logger)
    (same : (logger.goTo thread phase).upcoming thread = logger.upcoming thread) :
    Accounts (logger.goTo thread phase) := by
  intro other
  refine Eq.trans ?_ (accounts other)
  by_cases own : other = thread
  · rw [own, same]
    rfl
  · rw [upcoming_goTo other own]
    rfl

theorem accounts_log {thread : Nat} (accounts : Accounts logger) (call : Call)
    (idle : logger.threads thread = .idle) :
    Accounts { logger.goTo thread (.locking call) with
      asked := logger.asked ++ [(thread, call)] } := by
  intro other
  have before := accounts other
  by_cases own : other = thread
  · subst own
    simp only [FileLogTS.upcoming, idle, List.append_nil] at before
    have asks : ((logger.asked ++ [(other, call)]).filter fun entry =>
      entry.1 = other).map Prod.snd =
        logger.askedBy other ++ [call] := by simp [FileLogTS.askedBy]
    have comes : (logger.goTo other (.locking call)).upcoming other =
        [call].filter logger.logs := by
      simp only [FileLogTS.upcoming, FileLogTS.threads_goTo, ↓reduceIte]
      rfl
    rw [FileLogTS.askedBy, asks]
    change logger.begunBy other ++ (logger.goTo other (.locking call)).upcoming other =
      (logger.askedBy other ++ [call]).filter logger.logs
    rw [comes, before, List.filter_append]
  · have others : ((logger.asked ++ [(thread, call)]).filter fun entry => entry.1 = other) =
        logger.asked.filter fun entry => entry.1 = other := by
      have different : thread ≠ other := fun same => own same.symm
      simp [different]
    rw [FileLogTS.askedBy, others]
    refine Eq.trans ?_ before
    exact congrArg (logger.begunBy other ++ ·) (upcoming_goTo other own)

theorem accounts_begin {thread : Nat} {call : Call} (accounts : Accounts logger)
    (opening : logger.threads thread = .opening call) (time : Text) :
    Accounts { logger.goTo thread (.writing (Record.mk thread call time).pieces) with
      begun := logger.begun ++ [⟨thread, call, time⟩] } := by
  intro other
  refine Eq.trans ?_ (accounts other)
  by_cases own : other = thread
  · subst own
    simp [FileLogTS.begunBy, FileLogTS.upcoming, opening]
  · have different : thread ≠ other := fun same => own same.symm
    have others : ((logger.begun ++ [Record.mk thread call time]).filter fun record =>
      record.thread = other) =
        logger.begun.filter fun record => record.thread = other := by simp [different]
    rw [FileLogTS.begunBy, others]
    exact congrArg (logger.begunBy other ++ ·) (upcoming_goTo other own)

theorem accounts_step (opened : opens label = true) (accounts : Accounts logger)
    (taken : FileLogTS.Steps logger label after) : Accounts after := by
  cases taken with
  | log call idle => exact accounts_log accounts call idle
  | lock locking free => exact accounts.goTo (by simp [FileLogTS.upcoming, locking]; rfl)
  | pass checking level =>
      refine accounts.goTo ?_
      simp [FileLogTS.upcoming, checking, FileLogTS.logs, level]
  | drop checking level =>
      refine accounts.goTo ?_
      simp [FileLogTS.upcoming, checking, FileLogTS.logs, level]
  | begin time opening => exact accounts_begin accounts opening time
  | fail opening => cases opened
  | write writing => exact accounts.goTo (by simp [FileLogTS.upcoming, writing])
  | close writing => exact accounts.goTo (by simp [FileLogTS.upcoming, writing])
  | unlock unlocking => exact accounts.goTo (by simp [FileLogTS.upcoming, unlocking])

end Accounts

theorem le_getDebugLevel {type : MessageType} {log_level_int : Int}
    (passed : type.value ≤ (getDebugLevel log_level_int).value) :
    type = .error ∨ ((type.value : Int) ≤ log_level_int ∧ log_level_int ≤ 5) := by
  have errors : type.value ≤ 0 → type = .error := by cases type <;> simp [MessageType.value]
  rw [getDebugLevel] at passed
  split_ifs at passed with _ inside
  · obtain ⟨low, high⟩ := inside
    simp only [MessageType.value] at low high
    obtain ⟨level, rfl⟩ := Int.eq_ofNat_of_zero_le low
    have small : level ≤ 5 := by omega
    interval_cases level <;>
      exact Or.inr ⟨by exact_mod_cast passed, by decide⟩
  · exact Or.inl (errors passed)
  · exact Or.inl (errors passed)

/-- Entries are written whole, one after another, and each thread's own in their order. -/
theorem log_is_serial (log_level_int : Int) (labels : List Label) (logger : FileLogTS)
    (reached : Machine.run FileLogTS.step (FileLogTS.init (getDebugLevel log_level_int)) labels =
      some logger) :
    (∀ first second, (logger.threads first).inside = true → (logger.threads second).inside = true →
      first = second) ∧
      logger.file ++ logger.left = logger.begun.flatMap Record.text ∧
      (∀ record ∈ logger.begun, record.call.type = .error ∨
        ((record.call.type.value : Int) ≤ log_level_int ∧ log_level_int ≤ 5)) ∧
      (Machine.Along FileLogTS.step (fun _ label => opens label = true)
          (FileLogTS.init (getDebugLevel log_level_int)) labels →
        ∀ thread, logger.begunBy thread ++ logger.upcoming thread =
          (logger.askedBy thread).filter logger.logs) := by
  have start : Serial (FileLogTS.init (getDebugLevel log_level_int)) :=
    ⟨by simp [FileLogTS.init, Phase.inside], rfl, by simp [FileLogTS.init],
      by simp [FileLogTS.init]⟩
  have serial := Machine.run_preserves Serial (fun _ _ _ kept taken =>
    serial_step kept (FileLogTS.steps_of_step taken))
    start reached
  have level : logger.log_level = getDebugLevel log_level_int :=
    Machine.run_preserves (fun logger => logger.log_level = getDebugLevel log_level_int)
      (fun _ _ _ kept taken => (log_level_step
        (FileLogTS.steps_of_step taken)).trans kept) rfl reached
  refine ⟨?_, serial.text, ?_, fun opened => ?_⟩
  · intro first second one other
    have held := (serial.holder first).mp one
    rw [(serial.holder second).mp other] at held
    exact (Option.some.inj held).symm
  · intro record member
    have logged := serial.levels record member
    rw [FileLogTS.logs, level] at logged
    exact le_getDebugLevel (of_decide_eq_true logged)
  · have accounts : Accounts (FileLogTS.init (getDebugLevel log_level_int)) := fun _ => rfl
    exact Machine.run_invariant Accounts
      (fun _ _ _ opened kept taken =>
        accounts_step opened kept (FileLogTS.steps_of_step taken)) accounts opened reached

def started : Call := ⟨"PM".toList, .info, "...started.".toList⟩

def waiting : List Label :=
  [.log 0 started, .log 1 started, .lock 0, .check 0,
    .openFile 0 (some "Mon Jan  1 00:00:00 2018".toList), .write 0, .write 0]

theorem log_is_serial_waiting :
    ∃ logger, Machine.run FileLogTS.step (FileLogTS.init (getDebugLevel 3)) waiting = some logger ∧
      logger.file ++ logger.left = logger.begun.flatMap Record.text := by
  have runs : (Machine.run FileLogTS.step (FileLogTS.init (getDebugLevel 3)) waiting).isSome =
      true := rfl
  obtain ⟨logger, reached⟩ := Option.isSome_iff_exists.mp runs
  exact ⟨logger, reached, (log_is_serial 3 _ _ reached).2.1⟩

end OneFass.Logger
