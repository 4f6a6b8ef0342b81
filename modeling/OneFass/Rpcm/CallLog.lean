import OneFass.Client.XmlRpc
import OneFass.Shared.Decimal

set_option autoImplicit false

namespace OneFass.Rpcm

open Runtime Client

structure RequestAttributes where
  uid : Int
  gid : Int
  uname : Text
  gname : Text
  password : Text
  session : Text
  req_id : Int

structure Invocation where
  att : RequestAttributes
  paramList : List Value
  method_name : Text
  hidden_params : List Int
  -- `oss << value` for a `double`
  real : ℚ → Text

def truncateText (text : Text) : Text :=
  let st_limit :=
    match find text ['\n'] with
    | some st_newline => min st_newline 20
    | none => 20
  text.take st_limit ++ if st_limit < text.length then "...".toList else []

-- a parameter is never unassigned
def logXmlrpcValue (real : ℚ → Text) : Value → Text
  | .int value => ", ".toList ++ intText value
  | .boolean value => ", ".toList ++ if value then "true".toList else "false".toList
  | .string value => ", \"".toList ++ truncateText value ++ "\"".toList
  | .double value => ", ".toList ++ real value
  | _ => ", unknown param type".toList

namespace Invocation

variable (call : Invocation)

def param (index : Nat) (value : Value) : Text :=
  if (index : Int) ∈ call.hidden_params then ", ****".toList else logXmlrpcValue call.real value

def logParams (index : Nat) (oss : Text) : List Value → Text
  | [] => oss
  | value :: rest => logParams (index + 1) (oss ++ call.param index value) rest

-- the `switch` on the character after a `%`
def escape (oss : Text) (mod : Char) : Text :=
  match mod with
  | '%' => oss ++ ['%']
  | 'i' => oss ++ intText call.att.req_id
  | 'u' => oss ++ intText call.att.uid
  | 'U' => oss ++ call.att.uname
  | 'g' => oss ++ intText call.att.gid
  | 'G' => oss ++ call.att.gname
  | 'p' => oss ++ call.att.password
  | 'a' => oss ++ call.att.session
  | 'm' => oss ++ call.method_name
  | 'l' => call.logParams 1 oss (call.paramList.drop 1)
  | _ => oss ++ ['%'] ++ [mod]

end Invocation

-- `format_str[j]`, which is the terminator behind the last character
def charAt (format_str : Text) (j : Nat) : Except Fault Char :=
  match format_str[j]? with
  | some c => .ok c
  | none => if j = format_str.length then .ok '\x00' else .error (.undefined .indexOutOfBounds)

-- `j + 1` in `unsigned int`
def next (j : Nat) : Nat := (j + 1) % 2 ^ 32

-- `format_str.length() - 1` in `size_t`
def limit (format_str : Text) : Nat :=
  if format_str.length = 0 then 2 ^ 64 - 1 else format_str.length - 1

/-- `log_method_invoked` from its loop head, with nothing for a run that takes more rounds. -/
def logLoop (call : Invocation) (format_str : Text) : Nat → Nat → Text → Option (Except Fault Text)
  | 0, _, _ => none
  | rounds + 1, j, oss =>
      if j < limit format_str then
        match charAt format_str j with
        | .error fault => some (.error fault)
        | .ok c =>
            if c ≠ '%' then logLoop call format_str rounds (next j) (oss ++ [c])
            else
              match charAt format_str (next j) with
              | .error fault => some (.error fault)
              | .ok mod => logLoop call format_str rounds (next (next j)) (call.escape oss mod)
      else some (.ok oss)

section Reference

variable (call : Invocation)

def items : Text := (call.paramList.zipIdx.drop 1).flatMap fun entry => call.param entry.2 entry.1

def expandEscape (mod : Char) : Text :=
  match mod with
  | '%' => ['%']
  | 'i' => intText call.att.req_id
  | 'u' => intText call.att.uid
  | 'U' => call.att.uname
  | 'g' => intText call.att.gid
  | 'G' => call.att.gname
  | 'p' => call.att.password
  | 'a' => call.att.session
  | 'm' => call.method_name
  | 'l' => items call
  | unknown => ['%', unknown]

def expand : Text → Text
  | [] => []
  | [c] => [c]
  | c :: mod :: rest =>
      if c = '%' then expandEscape call mod ++ expand rest else c :: expand (mod :: rest)

-- the expansion without a last character that no escape takes
def expandOpen : Text → Text
  | [] => []
  | [_] => []
  | c :: mod :: rest =>
      if c = '%' then expandEscape call mod ++ expandOpen rest else c :: expandOpen (mod :: rest)

end Reference

-- the last character belongs to an escape
def closed : Text → Bool
  | [] => false
  | [_] => false
  | c :: mod :: rest => if c = '%' then rest.isEmpty || closed rest else closed (mod :: rest)

section Expansion

variable (call : Invocation)

theorem logParams_eq (values : List Value) (index : Nat) (oss : Text) :
    call.logParams index oss values = oss ++ (values.zipIdx index).flatMap fun entry =>
    call.param entry.2 entry.1 := by
  induction values generalizing index oss with
  | nil => simp [Invocation.logParams]
  | cons value rest ih => simp [Invocation.logParams, ih, List.zipIdx_cons]

theorem escape_eq (oss : Text) (mod : Char) :
    call.escape oss mod = oss ++ expandEscape call mod := by
  unfold Invocation.escape expandEscape
  split <;> simp [logParams_eq, items]

theorem expandOpen_of_closed (format_str : Text) (whole : closed format_str = true) :
    expandOpen call format_str = expand call format_str := by
  fun_induction closed format_str with
  | case1 => cases whole
  | case2 => cases whole
  | case3 mod rest ih =>
      cases rest with
      | nil => simp [expandOpen, expand]
      | cons c tail => simp [expandOpen, expand, ih (by simpa using whole)]
  | case4 c mod rest plain ih => simp [expandOpen, expand, plain, ih whole]

theorem length_expandOpen {format_str : Text} (nonempty : format_str ≠ [])
    (cut : closed format_str = false) :
    (expandOpen call format_str).length + 1 = (expand call format_str).length := by
  fun_induction closed format_str with
  | case1 => exact absurd rfl nonempty
  | case2 => rfl
  | case3 mod rest ih =>
      simp only [Bool.or_eq_false_iff, List.isEmpty_eq_false_iff] at cut
      have others := ih cut.1 cut.2
      simp only [expandOpen, expand, ↓reduceIte, List.length_append]
      omega
  | case4 c mod rest plain ih =>
      have others := ih (by simp) cut
      simp only [expandOpen, expand, plain, ↓reduceIte, List.length_cons]
      omega

end Expansion

section Rounds

variable {call : Invocation} {format_str rest oss : Text} {j rounds : Nat} {c mod : Char}

theorem charAt_drop (suffix : format_str.drop j = c :: rest) : charAt format_str j = .ok c := by
  have found : format_str[j]? = some c := by
    rw [← Nat.add_zero j, ← List.getElem?_drop, suffix]
    rfl
  simp [charAt, found]

theorem drop_succ (suffix : format_str.drop j = c :: rest) : format_str.drop (j + 1) = rest := by
  rw [← List.drop_drop, suffix]
  rfl

theorem length_drop (suffix : format_str.drop j = c :: rest) :
    format_str.length = j + 1 + rest.length := by
  have lengths := congrArg List.length suffix
  simp only [List.length_drop, List.length_cons] at lengths
  omega

theorem next_eq (inside : j + 1 < 2 ^ 32) : next j = j + 1 := Nat.mod_eq_of_lt inside

theorem logLoop_plain (suffix : format_str.drop j = c :: mod :: rest) (plain : c ≠ '%') :
    logLoop call format_str (rounds + 1) j oss =
      logLoop call format_str rounds (next j) (oss ++ [c]) := by
  have length := length_drop suffix
  have inside : j < limit format_str := by
    rw [limit, if_neg (by omega), length, List.length_cons]
    omega
  simp [logLoop, inside, charAt_drop suffix, plain]

theorem logLoop_escape (suffix : format_str.drop j = '%' :: mod :: rest) (small : j + 1 < 2 ^ 32) :
    logLoop call format_str (rounds + 1) j oss =
      logLoop call format_str rounds (next (j + 1)) (oss ++ expandEscape call mod) := by
  have length := length_drop suffix
  have inside : j < limit format_str := by
    rw [limit, if_neg (by omega), length, List.length_cons]
    omega
  simp [logLoop, inside, charAt_drop suffix, next_eq small, charAt_drop (drop_succ suffix),
    escape_eq]

theorem logLoop_last (nonempty : format_str ≠ []) (last : format_str.length ≤ j + 1) :
    logLoop call format_str (rounds + 1) j oss = some (.ok oss) := by
  have outside : ¬ j < limit format_str := by
    rw [limit, if_neg (by simpa using nonempty)]
    omega
  simp [logLoop, outside]

theorem logLoop_more {result : Except Fault Text}
    (returned : logLoop call format_str rounds j oss = some result) (more : Nat) :
    logLoop call format_str (rounds + more) j oss = some result := by
  induction rounds generalizing j oss with
  | zero => cases returned
  | succ rounds ih =>
      rw [Nat.add_right_comm, logLoop]
      rw [logLoop] at returned
      split_ifs at returned ⊢ with inside
      · split at returned
        · exact returned
        · split_ifs at returned ⊢
          · exact ih returned
          · split at returned
            · exact returned
            · exact ih returned
      · exact returned

theorem logLoop_unique {first second : Nat} {left right : Except Fault Text}
    (one : logLoop call format_str first j oss = some left)
    (other : logLoop call format_str second j oss = some right) : left = right := by
  have longer := logLoop_more one second
  rw [Nat.add_comm, logLoop_more other first] at longer
  exact (Option.some.inj longer).symm

end Rounds

section Runs

variable {call : Invocation} {format_str : Text}

def Room (format_str rest : Text) : Prop :=
  format_str.length < 2 ^ 32 ∨ (format_str.length = 2 ^ 32 ∧ closed rest = false)

theorem Room.escape {rest : Text} {mod : Char} {j : Nat}
    (room : Room format_str ('%' :: mod :: rest))
    (suffix : format_str.drop j = '%' :: mod :: rest) : j + 2 < 2 ^ 32 ∧ Room format_str rest := by
  have length := length_drop suffix
  rw [List.length_cons] at length
  rcases room with less | ⟨full, cut⟩
  · exact ⟨by omega, Or.inl less⟩
  · simp only [closed, ↓reduceIte, Bool.or_eq_false_iff, List.isEmpty_eq_false_iff,
      ← List.length_pos_iff] at cut
    exact ⟨by omega, Or.inr ⟨full, cut.2⟩⟩

theorem logLoop_returns (nonempty : format_str ≠ []) {rest : Text} (room : Room format_str rest) :
    ∀ j oss, format_str.drop j = rest → j ≤ format_str.length →
      logLoop call format_str (rest.length + 1) j oss =
        some (.ok (oss ++ expandOpen call rest)) := by
  fun_induction closed rest with
  | case1 =>
      intro j oss suffix inside
      have length := List.drop_eq_nil_iff.mp suffix
      rw [logLoop_last nonempty (by omega), expandOpen, List.append_nil]
  | case2 c =>
      intro j oss suffix inside
      have length := length_drop suffix
      rw [List.length_nil] at length
      rw [logLoop_last nonempty (by omega), expandOpen, List.append_nil]
  | case3 mod rest ih =>
      intro j oss suffix inside
      obtain ⟨beyond, shorter⟩ := room.escape suffix
      have length := length_drop suffix
      rw [List.length_cons] at length
      have returned := logLoop_more
        (ih shorter (j + 2) (oss ++ expandEscape call mod) (drop_succ (drop_succ suffix))
          (by omega)) 1
      rw [List.length_cons, List.length_cons, logLoop_escape suffix (by omega), next_eq beyond]
      simpa [expandOpen] using returned
  | case4 c mod rest plain ih =>
      intro j oss suffix inside
      have length := length_drop suffix
      rw [List.length_cons] at length
      have shorter : Room format_str (mod :: rest) := by
        simpa [Room, closed, plain] using room
      have bound : format_str.length ≤ 2 ^ 32 := room.elim Nat.le_of_lt fun full => full.1.le
      have returned := ih shorter (j + 1) (oss ++ [c]) (drop_succ suffix) (by omega)
      rw [List.length_cons, logLoop_plain suffix plain, next_eq (by omega)]
      simpa [expandOpen, plain] using returned

-- the index starts over after the last escape
theorem logLoop_wraps (full : format_str.length = 2 ^ 32) (whole : closed format_str = true)
    (rounds : Nat) :
    ∀ j oss, closed (format_str.drop j) = true → logLoop call format_str rounds j oss = none := by
  induction rounds with
  | zero => exact fun _ _ _ => rfl
  | succ rounds ih =>
      intro j oss inner
      rcases suffix : format_str.drop j with _ | ⟨c, _ | ⟨mod, rest⟩⟩
      · simp [suffix, closed] at inner
      · simp [suffix, closed] at inner
      · have length := length_drop suffix
        simp only [List.length_cons] at length
        rw [suffix, closed] at inner
        by_cases plain : c = '%'
        · subst plain
          rw [logLoop_escape suffix (by omega)]
          apply ih
          rcases rest with _ | ⟨head, tail⟩
          · have start : next (j + 1) = 0 := by
              rw [List.length_nil] at length
              rw [next, show j + 1 + 1 = 2 ^ 32 by omega, Nat.mod_self]
            rwa [start]
          · simp only [List.length_cons] at length
            rw [next_eq (by omega), drop_succ (drop_succ suffix)]
            simpa using inner
        · rw [logLoop_plain suffix plain]
          apply ih
          rw [next_eq (by omega), drop_succ suffix]
          simpa [plain] using inner

theorem next_lt (j : Nat) : next j < 2 ^ 32 := Nat.mod_lt _ (by decide)

theorem charAt_of_lt {j : Nat} (inside : j < format_str.length) :
    charAt format_str j = .ok format_str[j] := by
  simp [charAt, inside]

theorem logLoop_long (long : 2 ^ 32 < format_str.length) (rounds : Nat) :
    ∀ j oss, j < 2 ^ 32 → logLoop call format_str rounds j oss = none := by
  induction rounds with
  | zero => exact fun _ _ _ => rfl
  | succ rounds ih =>
      intro j oss small
      have inside : j < limit format_str := by
        rw [limit, if_neg (by omega)]
        omega
      have following := next_lt j
      rw [logLoop, if_pos inside, charAt_of_lt (by omega : j < format_str.length),
        charAt_of_lt (by omega : next j < format_str.length)]
      simp only
      split_ifs
      · exact ih _ _ (next_lt _)
      · exact ih _ _ (next_lt _)

-- the terminator is copied and what follows it is read
theorem logLoop_empty (rounds : Nat) (text : Text) :
    logLoop call [] rounds 0 [] ≠ some (.ok text) := by
  rcases rounds with _ | _ | rounds <;> simp [logLoop, limit, charAt, next]

end Runs

def ReadsInside (format_str : Text) : Prop :=
  ∀ j, j < limit format_str → j < format_str.length ∧ next j < format_str.length

def LogsExpansion (call : Invocation) (format_str : Text) : Prop :=
  ReadsInside format_str ∧ ∃ rounds,
    logLoop call format_str rounds 0 [] = some (.ok (expand call format_str))

section Expansion

variable {call : Invocation} {format_str : Text}

theorem readsInside (nonempty : format_str ≠ []) : ReadsInside format_str := by
  intro j inside
  rw [limit, if_neg (by simpa using nonempty)] at inside
  have following : next j ≤ j + 1 := Nat.mod_le _ _
  omega

theorem not_logs_of_cut (nonempty : format_str ≠ []) (cut : closed format_str = false)
    (bounded : format_str.length ≤ 2 ^ 32) : ¬ LogsExpansion call format_str := by
  rintro ⟨_, rounds, returned⟩
  have room : Room format_str format_str :=
    (Nat.lt_or_eq_of_le bounded).imp id fun full => ⟨full, cut⟩
  have left := @logLoop_returns call format_str nonempty _ room 0 [] List.drop_zero (Nat.zero_le _)
  have same := congrArg List.length (Except.ok.inj (logLoop_unique returned left))
  have lengths := length_expandOpen call nonempty cut
  rw [List.nil_append] at same
  omega

theorem closed_of_logs (logs : LogsExpansion call format_str) :
    closed format_str = true ∧ format_str.length < 2 ^ 32 := by
  obtain ⟨inside, rounds, returned⟩ := logs
  have nonempty : format_str ≠ [] := by
    rintro rfl
    exact logLoop_empty rounds _ returned
  have bounded : format_str.length ≤ 2 ^ 32 := by
    by_contra long
    rw [logLoop_long (not_le.mp long) rounds 0 [] (by decide)] at returned
    cases returned
  cases whole : closed format_str with
  | false => exact absurd ⟨inside, rounds, returned⟩ (not_logs_of_cut nonempty whole bounded)
  | true =>
      refine ⟨rfl, lt_of_le_of_ne bounded fun full => ?_⟩
      rw [logLoop_wraps full whole rounds 0 [] whole] at returned
      cases returned

theorem logs_of_closed (whole : closed format_str = true) (short : format_str.length < 2 ^ 32) :
    LogsExpansion call format_str := by
  have nonempty : format_str ≠ [] := by
    rintro rfl
    cases whole
  have returned := @logLoop_returns call format_str nonempty _ (Or.inl short) 0 [] List.drop_zero
    (Nat.zero_le _)
  rw [expandOpen_of_closed call format_str whole] at returned
  exact ⟨readsInside nonempty, _, returned⟩

end Expansion

theorem logs_expansion_iff (call : Invocation) (format_str : Text) :
    LogsExpansion call format_str ↔ closed format_str = true ∧ format_str.length < 2 ^ 32 := by
  constructor
  · exact closed_of_logs
  · rintro ⟨whole, short⟩
    exact logs_of_closed whole short

section Example

def invoked : Invocation where
  att := ⟨0, 0, "root".toList, [], [], "oneadmin:secret".toList, 4711⟩
  paramList := [.string "oneadmin:secret".toList, .int (-2), .string "key".toList, .boolean true]
  method_name := "one.vm.info".toList
  hidden_params := [2]
  real := fun _ => "0.5".toList

-- the default format
example : logLoop invoked "Req:%i UID:%u %m invoked %l".toList 40 0 [] =
    some (.ok "Req:4711 UID:0 one.vm.info invoked , -2, ****, true".toList) := by decide +kernel

theorem last_character_lost :
    logLoop invoked "%m!".toList 3 0 [] = some (.ok "one.vm.info".toList) ∧
      expand invoked "%m!".toList = "one.vm.info!".toList ∧ ¬ LogsExpansion invoked "%m!".toList ∧
      logLoop invoked [] 2 0 [] = some (.error (.undefined .indexOutOfBounds)) ∧
      logLoop invoked ['%'] 1 0 [] = some (.ok []) := by
  refine ⟨by decide +kernel, by decide +kernel, ?_, by decide +kernel, by decide +kernel⟩
  intro logs
  exact absurd (closed_of_logs logs).1 (by decide)

end Example

end OneFass.Rpcm
