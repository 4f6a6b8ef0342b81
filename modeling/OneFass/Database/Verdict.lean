import OneFass.Database.Requests

set_option autoImplicit false

namespace OneFass.Database

open Runtime Delimited

structure StatusLine where
  version : Text
  digits : Text
  reason : Text
  version_word : version ≠ [] ∧ ∀ c ∈ version, isSpace c = false
  number : digits ≠ [] ∧ ∀ c ∈ digits, c.isDigit = true
  reason_line : '\n' ∉ reason ∧ ∀ c ∈ reason.head?, c.isDigit = false

namespace StatusLine

def text (line : StatusLine) : Text := line.version ++ ' ' :: (line.digits ++ line.reason)

def code (line : StatusLine) : Nat := digitsValue line.digits

def valid (line : StatusLine) : Bool :=
  decide (line.version.take 5 = "HTTP/".toList) && decide (line.code < 2 ^ 32)

def message (line : StatusLine) (retval : Text) : Text :=
  if !line.valid then "Invalid response.".toList
  else if line.code = 204 then retval
  -- `getline` keeps the carriage return
  else line.reason ++ ['\r']

end StatusLine

section Reading

theorem isSpace_digit {c : Char} (digit : c.isDigit = true) : isSpace c = false := by
  have different (space : Char) (other : space.isDigit = false) : c ≠ space := by
    rintro rfl
    rw [other] at digit
    cases digit
  simp [isSpace, different ' ' (by decide), different '\t' (by decide), different '\n' (by decide),
    different '\x0b' (by decide), different '\x0c' (by decide), different '\r' (by decide)]

theorem takeSign_digit {c : Char} (digit : c.isDigit = true) (text : Text) :
    takeSign (c :: text) = (false, c :: text) := by
  have plus : c ≠ '+' := by
    rintro rfl
    cases digit
  have minus : c ≠ '-' := by
    rintro rfl
    cases digit
  unfold takeSign
  split <;> simp_all

theorem readUnsigned_digits {digits after : Text} {c : Char}
    (number : digits ≠ [] ∧ ∀ d ∈ digits, d.isDigit = true) (ends : c.isDigit = false) :
    Stream.readUnsigned ⟨' ' :: (digits ++ c :: after), false, false⟩ =
      if 2 ^ 32 ≤ digitsValue digits then (2 ^ 32 - 1, ⟨c :: after, false, true⟩)
      else (digitsValue digits, ⟨c :: after, false, false⟩) := by
  obtain ⟨nonempty, all⟩ := number
  obtain ⟨first, rest, rfl⟩ := List.exists_cons_of_ne_nil nonempty
  have digit := all first List.mem_cons_self
  have body : (' ' :: (first :: rest ++ c :: after)).dropWhile isSpace =
      first :: rest ++ c :: after := by
    simp [isSpace_digit digit, show isSpace ' ' = true from rfl]
  have sign : takeSign (first :: rest ++ c :: after) = (false, first :: rest ++ c :: after) :=
    takeSign_digit digit _
  have parts := takeWhile_append_cons after all ends
  simp only [Stream.readUnsigned, body, sign, parts]
  simp [Stream.good]

theorem line_unmarked {line : Text} (single : '\n' ∉ line) :
    ¬ crlf <:+: (line ++ crlf).dropLast := by
  have cut : (line ++ crlf).dropLast = line ++ ['\r'] := by
    rw [List.dropLast_append_of_ne_nil (by decide)]
    rfl
  rw [cut]
  intro present
  have member : '\n' ∈ line ++ ['\r'] := present.subset (by decide)
  simp [single] at member

theorem line_read {line rest : Text} {socket : List Text} (single : '\n' ∉ line)
    (received : socket.flatten = line ++ crlf ++ rest) :
    ∃ tail later, tail ++ later.flatten = rest ∧
      readUntil crlf [] socket = some (line ++ crlf ++ tail, later) := by
  have present : crlf <:+: [] ++ socket.flatten := by
    rw [List.nil_append, received]
    exact ⟨line, rest, rfl⟩
  obtain ⟨taken, later, split, done⟩ := readUntil_early socket [] present
  rw [List.nil_append, List.append_nil, List.append_nil] at done
  have whole : taken.flatten ++ later.flatten = line ++ crlf ++ rest := by
    rw [← received, split, List.flatten_append]
  have start : taken.flatten <+: line ++ crlf ++ rest := whole ▸ List.prefix_append _ _
  obtain ⟨tail, filled⟩ := prefix_of_present (by simp [crlf]) (line_unmarked single)
    (readUntil_eq_some done).1 start
  refine ⟨tail, later, ?_, filled ▸ done⟩
  rw [← filled, List.append_assoc] at whole
  exact List.append_cancel_left whole

end Reading

namespace StatusLine

variable {line : StatusLine}

theorem text_single (line : StatusLine) : '\n' ∉ line.text := by
  have version : '\n' ∉ line.version :=
    fun member => absurd (line.version_word.2 _ member) (by decide)
  have digits : '\n' ∉ line.digits := fun member => absurd (line.number.2 _ member) (by decide)
  simp [text, version, digits, line.reason_line.1]

theorem reason_starts (line : StatusLine) (tail : Text) :
    ∃ c after, line.reason ++ crlf ++ tail = c :: after ∧ c.isDigit = false := by
  cases starts : line.reason with
  | nil => exact ⟨'\r', '\n' :: tail, rfl, by decide⟩
  | cons c after => exact ⟨c, after ++ crlf ++ tail, rfl, line.reason_line.2 c (by simp [starts])⟩

end StatusLine

section Verdict

theorem readUntil_none_iff {delim buffer : Text} {chunks : List Text} :
    readUntil delim buffer chunks = none ↔ ¬ delim <:+: buffer ++ chunks.flatten := by
  constructor
  · intro nothing present
    obtain ⟨_, _, _, done⟩ := readUntil_early chunks [] present
    rw [List.append_nil, nothing] at done
    cases done
  · intro absent
    cases done : readUntil delim buffer chunks with
    | none => rfl
    | some read =>
        obtain ⟨present, whole⟩ := readUntil_eq_some done
        exact absurd (present.trans (whole ▸ (List.prefix_append _ _).isInfix)) absent

variable (line : StatusLine)

theorem readWord_line (tail : Text) :
    ∃ c after, line.reason ++ crlf ++ tail = c :: after ∧ c.isDigit = false ∧
    Stream.readWord ⟨line.text ++ crlf ++ tail, false, false⟩ =
      (line.version, ⟨' ' :: (line.digits ++ c :: after), false, false⟩) := by
  obtain ⟨c, after, starts, ends⟩ := line.reason_starts tail
  refine ⟨c, after, starts, ends, ?_⟩
  have text : line.text ++ crlf ++ tail = line.version ++ ' ' :: (line.digits ++ c :: after) := by
    rw [← starts, StatusLine.text]
    simp
  rw [text]
  exact readWord_append _ line.version_word.1 line.version_word.2

theorem queryDb_line {tail retval : Text} {socket later : List Text}
    (read : readUntil crlf [] socket = some (line.text ++ crlf ++ tail, later)) :
    queryDb retval socket =
      if !line.valid || decide (line.code ≠ 200 ∧ line.code ≠ 204) then
      ⟨false, some (line.message retval), []⟩
      else if line.code = 204 then ⟨true, some (line.message retval), []⟩
      else match readUntil (crlf ++ crlf) tail later with
        | none => ⟨false, none, []⟩
        | some (response, socket) =>
            let (response_stream, oss_h) :=
          logHeaders (response.length + 2) ⟨response, false, false⟩ []
            ⟨true, some (readRest [] socket), oss_h ++ ['\n'] ++ response_stream.rest⟩ := by
  obtain ⟨c, after, starts, ends, word⟩ := readWord_line line tail
  have number := @readUnsigned_digits line.digits after c line.number ends
  have remainder : c :: after = (line.reason ++ ['\r']) ++ '\n' :: tail := by
    rw [← starts]
    simp [crlf]
  have reason := @getLine_append (line.reason ++ ['\r']) tail (by simp [line.reason_line.1])
  rw [queryDb, read]
  simp only [word, number]
  by_cases overflows : 2 ^ 32 ≤ digitsValue line.digits
  · have invalid : line.valid = false := by
      rw [StatusLine.valid, decide_eq_false (p := line.code < 2 ^ 32) (not_lt.mpr overflows),
        Bool.and_false]
    have failed : Stream.getLine ⟨c :: after, false, true⟩ = ([], ⟨c :: after, false, true⟩) := rfl
    rw [if_pos overflows, StatusLine.message, invalid]
    simp only [failed]
    rfl
  · have bounded : line.code < 2 ^ 32 := not_le.mp overflows
    rw [if_neg overflows, remainder]
    simp only [reason, Bool.false_or]
    by_cases http : line.version.take 5 = "HTTP/".toList
    · have valid : line.valid = true := by
        rw [StatusLine.valid, decide_eq_true http, decide_eq_true bounded, Bool.and_true]
      rw [decide_eq_false (not_not.mpr http), StatusLine.message, valid, ← StatusLine.code]
      by_cases refused : line.code ≠ 200 ∧ line.code ≠ 204
      · rw [if_pos refused, decide_eq_true refused, if_neg refused.2]
        rfl
      · rw [if_neg refused, decide_eq_false refused]
        by_cases empty : line.code = 204
        · simp only [if_pos empty]
          rfl
        · simp only [if_neg empty]
          rfl
    · have invalid : line.valid = false := by
        rw [StatusLine.valid, decide_eq_false http, Bool.false_and]
      rw [decide_eq_true http, StatusLine.message, invalid]
      rfl

def StatusLine.Succeeds (line : StatusLine) (rest : Text) : Prop :=
  line.valid = true ∧ (line.code = 204 ∨ line.code = 200 ∧ crlf ++ crlf <:+: rest)

theorem queryDb_verdict {retval rest : Text} {socket : List Text}
    (received : socket.flatten = line.text ++ crlf ++ rest) :
    ((queryDb retval socket).returned = true ↔ line.Succeeds rest) ∧
      (¬ (line.valid = true ∧ line.code = 200) →
        (queryDb retval socket).retval = some (line.message retval)) ∧
      (line.valid = true ∧ line.code = 200 → ¬ line.Succeeds rest →
        (queryDb retval socket).retval = none) := by
  obtain ⟨tail, later, remaining, read⟩ := line_read line.text_single received
  have reply := @queryDb_line line tail retval socket later read
  unfold StatusLine.Succeeds
  rw [reply]
  by_cases refused : (!line.valid || decide (line.code ≠ 200 ∧ line.code ≠ 204)) = true
  · rw [if_pos refused]
    simp only [Bool.or_eq_true, Bool.not_eq_true', decide_eq_true_eq] at refused
    have rejected : line.valid = true → line.code ≠ 200 ∧ line.code ≠ 204 := by
      intro valid
      exact refused.resolve_left (by simp [valid])
    refine ⟨?_, fun _ => rfl, fun ⟨valid, full⟩ => absurd full (rejected valid).1⟩
    simp only [Bool.false_eq_true, false_iff, not_and]
    intro valid accepted
    rcases accepted with empty | ⟨full, _⟩
    · exact (rejected valid).2 empty
    · exact (rejected valid).1 full
  · rw [if_neg refused]
    simp only [Bool.or_eq_true, Bool.not_eq_true', decide_eq_true_eq, not_or,
      Bool.not_eq_false] at refused
    obtain ⟨valid, accepted⟩ := refused
    by_cases empty : line.code = 204
    · rw [if_pos empty]
      exact ⟨by simp [valid, empty], fun _ => rfl, fun ⟨_, full⟩ =>
        absurd (empty.symm.trans full) (by decide)⟩
    · have full : line.code = 200 := by
        by_contra other
        exact accepted ⟨other, empty⟩
      rw [if_neg empty]
      rw [← remaining]
      cases done : readUntil (crlf ++ crlf) tail later with
      | none =>
          have absent := readUntil_none_iff.mp done
          exact ⟨by simp [valid, full, absent], fun other => absurd ⟨valid, full⟩ other, fun _ _ =>
            rfl⟩
      | some read =>
          obtain ⟨present, whole⟩ := readUntil_eq_some done
          have inside : crlf ++ crlf <:+: tail ++ later.flatten :=
            present.trans (whole ▸ (List.prefix_append _ _).isInfix)
          refine ⟨by simp [valid, full, inside], fun other => absurd ⟨valid, full⟩ other,
            fun _ failed => ?_⟩
          exact absurd ⟨valid, Or.inr ⟨full, inside⟩⟩ failed

end Verdict

-- for code 200 without its blank line the text is the exception's
theorem status_decides (db : InfluxDb) (line : StatusLine) (rest : Text) (socket : List Text)
    (received : socket.flatten = line.text ++ crlf ++ rest) :
    (∀ method q retval : Text,
      ((db.query method q retval (.answered socket)).reply.returned = true ↔ line.Succeeds rest) ∧
        (¬ (line.valid = true ∧ line.code = 200) →
          (db.query method q retval (.answered socket)).reply.retval = some (line.message retval)) ∧
        (line.valid = true ∧ line.code = 200 → ¬ line.Succeeds rest →
          (db.query method q retval (.answered socket)).reply.retval = none)) ∧
      ∀ creates, (db.initDb (.answered socket) creates).2 = true ↔ line.Succeeds rest := by
  constructor
  · intro method q retval
    exact queryDb_verdict line received
  · intro creates
    rw [← (@queryDb_verdict line [] rest socket received).1]
    unfold InfluxDb.initDb
    split_ifs with pinged
    · exact iff_of_true rfl pinged
    · exact iff_of_false not_false pinged

section Example

def noContent : StatusLine where
  version := "HTTP/1.0".toList
  digits := "204".toList
  reason := " No Content".toList
  version_word := ⟨by decide, word_of_all (by decide)⟩
  number := ⟨by decide, List.all_eq_true.mp (by decide)⟩
  reason_line := ⟨by decide, by simp⟩

theorem status_decides_noContent :
    noContent.Succeeds [] ∧ (fassdb.initDb
      (.answered ["HTTP/1.0 2".toList, "04 No Content\r\n".toList]) .refused).2 = true := by
  have received : ["HTTP/1.0 2".toList, "04 No Content\r\n".toList].flatten =
      noContent.text ++ crlf ++ [] := by
    decide +kernel
  have succeeds : noContent.Succeeds [] := ⟨by decide +kernel, Or.inl (by decide +kernel)⟩
  exact ⟨succeeds, ((status_decides fassdb noContent [] _ received).2 .refused).mpr succeeds⟩

example : (queryDb [] ["\r\n".toList, "HTTP/1.0 204 \r\n".toList]).returned = false ∧
    (queryDb [] ["\r\nHTTP/1.0 204 \r\n".toList]).returned = true := by
  decide +kernel

end Example

end OneFass.Database
