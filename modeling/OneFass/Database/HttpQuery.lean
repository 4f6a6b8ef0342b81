import OneFass.Shared.Delimited
import OneFass.Shared.Runtime

set_option autoImplicit false

namespace OneFass.Database

open Runtime Delimited

def crlf : Text := ['\r', '\n']

-- a stream over the response buffer, with its `eofbit` and `failbit`
structure Stream where
  rest : Text
  eof : Bool
  fail : Bool
  deriving DecidableEq

def inWord (c : Char) : Bool := !isSpace c

def inLine (c : Char) : Bool := decide (c ≠ '\n')

namespace Stream

def good (stream : Stream) : Bool := !stream.eof && !stream.fail

-- `stream >> word`
def readWord (stream : Stream) : Text × Stream :=
  let body := stream.rest.dropWhile isSpace
  if !stream.good then ([], { stream with fail := true })
  else if body = [] then ([], ⟨[], true, true⟩)
  else
    let after := body.dropWhile inWord
    (body.takeWhile inWord, ⟨after, after.isEmpty, false⟩)

-- `stream >> number` for an `unsigned int`, which negates a number with a minus sign
def readUnsigned (stream : Stream) : Nat × Stream :=
  let (negative, body) := takeSign (stream.rest.dropWhile isSpace)
  let digits := body.takeWhile Char.isDigit
  let after := body.dropWhile Char.isDigit
  let value := digitsValue digits
  if !stream.good then (0, { stream with fail := true })
  else if digits = [] then (0, ⟨after, after.isEmpty, true⟩)
  else if 2 ^ 32 ≤ value then (2 ^ 32 - 1, ⟨after, after.isEmpty, true⟩)
  else (if negative then (2 ^ 32 - value) % 2 ^ 32 else value, ⟨after, after.isEmpty, false⟩)

-- `std::getline(stream, line)`
def getLine (stream : Stream) : Text × Stream :=
  if !stream.good then ([], { stream with fail := true })
  else
    let line := stream.rest.takeWhile inLine
    match stream.rest.dropWhile inLine with
    | [] => (line, ⟨[], true, line.isEmpty⟩)
    | _ :: after => (line, ⟨after, false, false⟩)

end Stream

/-- The loop over the headers; every line takes a character from the buffer, or is the last one. -/
def logHeaders : Nat → Stream → Text → Stream × Text
  | 0, response_stream, oss_h => (response_stream, oss_h)
  | rounds + 1, response_stream, oss_h =>
      let (header, response_stream) := response_stream.getLine
      if response_stream.fail || header = ['\r'] then (response_stream, oss_h)
      else logHeaders rounds response_stream (oss_h ++ header ++ ['\n'])

def readRest (oss_r : Text) : List Text → Text
  | [] => oss_r
  | chunk :: rest => readRest (oss_r ++ chunk) rest

structure Reply where
  returned : Bool
  -- nothing where it is the text of an exception of the library
  retval : Option Text
  oss_h : Text
  deriving DecidableEq

/-- `query_db` from the first read on. -/
def queryDb (retval : Text) (socket : List Text) : Reply :=
  match readUntil crlf [] socket with
  | none => ⟨false, none, []⟩
  | some (response, socket) =>
      let (http_version, response_stream) := Stream.readWord ⟨response, false, false⟩
      let (status_code, response_stream) := response_stream.readUnsigned
      let (status_message, response_stream) := response_stream.getLine
      if response_stream.fail || http_version.take 5 ≠ "HTTP/".toList then
        ⟨false, some "Invalid response.".toList, []⟩
      else if status_code ≠ 200 ∧ status_code ≠ 204 then ⟨false, some status_message, []⟩
      else if status_code = 204 then ⟨true, some retval, []⟩
      else
        match readUntil (crlf ++ crlf) response_stream.rest socket with
        | none => ⟨false, none, []⟩
        | some (response, socket) =>
            let (response_stream, oss_h) :=
              logHeaders (response.length + 2) { response_stream with rest := response } []
            ⟨true, some (readRest [] socket), oss_h ++ ['\n'] ++ response_stream.rest⟩

structure Response where
  version : Text
  reason : Text
  headers : List Text
  body : Text
  version_word : ∀ c ∈ version, isSpace c = false
  reason_line : '\r' ∉ reason ∧ '\n' ∉ reason
  header_lines : ∀ header ∈ headers, header ≠ [] ∧ '\r' ∉ header ∧ '\n' ∉ header

namespace Response

def statusLine (response : Response) : Text :=
  "HTTP/".toList ++ response.version ++ " 200 ".toList ++ response.reason

def headerBlock (response : Response) : Text := response.headers.flatMap (· ++ crlf) ++ crlf

def head (response : Response) : Text := response.statusLine ++ crlf ++ response.headerBlock

end Response

section Rounds

def Stream.lines (stream : Stream) : Nat := if stream.good then stream.rest.length + 1 else 0

theorem lines_getLine {stream : Stream} (succeeds : stream.getLine.2.fail = false) :
    stream.getLine.2.lines < stream.lines := by
  have working : stream.good = true := by
    cases working : stream.good with
    | true => rfl
    | false => simp [Stream.getLine, working] at succeeds
  have shorter := (stream.rest.dropWhile_sublist inLine).length_le
  have before : stream.lines = stream.rest.length + 1 := by simp [Stream.lines, working]
  rw [before]
  cases ends : stream.rest.dropWhile inLine with
  | nil =>
      -- the last line sets `eofbit`
      have last : stream.getLine.2.good = false := by
        simp only [Stream.getLine, working, ends, Bool.not_true, Bool.false_eq_true, ↓reduceIte]
        rfl
      simp [Stream.lines, last]
  | cons c after =>
      rw [ends, List.length_cons] at shorter
      have next : stream.getLine.2 = ⟨after, false, false⟩ := by
        simp [Stream.getLine, working, ends]
      have fewer : stream.getLine.2.lines = after.length + 1 := by
        simp [Stream.lines, next, Stream.good]
      omega

theorem logHeaders_settled {rounds : Nat} {stream : Stream} (enough : stream.lines < rounds)
    (oss_h : Text) :
    logHeaders (rounds + 1) stream oss_h = logHeaders rounds stream oss_h := by
  induction rounds generalizing stream oss_h with
  | zero => omega
  | succ rounds ih =>
      rw [logHeaders, logHeaders]
      cases failed : stream.getLine.2.fail with
      | true => simp [failed]
      | false =>
          have fewer := lines_getLine failed
          simp only [failed, ih (by omega : stream.getLine.2.lines < rounds)]

end Rounds

section Lines

theorem word_of_all {text : Text} (all : text.all (fun c => !isSpace c) = true) :
    ∀ c ∈ text, isSpace c = false := by
  simpa using all

theorem dropWhile_space_text {c : Char} (text : Text) (word : isSpace c = false) :
    (c :: text).dropWhile isSpace = c :: text := by
  simp [word]

theorem takeWhile_append_cons {p : Char → Bool} {front : Text} {c : Char} (text : Text)
    (all : ∀ d ∈ front, p d = true) (stops : p c = false) :
    (front ++ c :: text).takeWhile p = front ∧ (front ++ c :: text).dropWhile p = c :: text := by
  induction front with
  | nil => simp [stops]
  | cons d rest ih =>
      have first := all d List.mem_cons_self
      have others := ih fun e member => all e (List.mem_cons_of_mem _ member)
      simp [first, others]

theorem getLine_append {line : Text} (text : Text) (single : '\n' ∉ line) :
    Stream.getLine ⟨line ++ '\n' :: text, false, false⟩ = (line, ⟨text, false, false⟩) := by
  have parts := @takeWhile_append_cons inLine line '\n' text
    (fun d member => decide_eq_true fun same => single (same ▸ member)) (by decide)
  simp [Stream.getLine, Stream.good, parts]

theorem readWord_append {word : Text} (text : Text) (nonempty : word ≠ [])
    (whole : ∀ c ∈ word, isSpace c = false) :
    Stream.readWord ⟨word ++ ' ' :: text, false, false⟩ = (word, ⟨' ' :: text, false, false⟩) := by
  obtain ⟨c, rest, rfl⟩ := List.exists_cons_of_ne_nil nonempty
  have body := dropWhile_space_text (rest ++ ' ' :: text) (whole c List.mem_cons_self)
  have parts := @takeWhile_append_cons inWord (c :: rest) ' ' text
    (fun d member => by simp [inWord, whole d member]) (by decide)
  rw [List.cons_append] at parts
  simp [Stream.readWord, Stream.good, body, parts]

theorem readUnsigned_status (text : Text) :
    Stream.readUnsigned ⟨" 200 ".toList ++ text, false, false⟩ =
      (200, ⟨' ' :: text, false, false⟩) := by
  have body : (" 200 ".toList ++ text).dropWhile isSpace = "200".toList ++ ' ' :: text := rfl
  have sign : takeSign ("200".toList ++ ' ' :: text) = (false, "200".toList ++ ' ' :: text) := rfl
  have digits : ("200".toList).all Char.isDigit = true := by decide
  have parts := @takeWhile_append_cons Char.isDigit "200".toList ' ' text
    (List.all_eq_true.mp digits) (by decide)
  have value : digitsValue "200".toList = 200 := by decide
  simp only [Stream.readUnsigned, body, sign, parts, value]
  simp [Stream.good]

theorem readRest_eq (oss_r : Text) (chunks : List Text) :
    readRest oss_r chunks = oss_r ++ chunks.flatten := by
  induction chunks generalizing oss_r with
  | nil => simp [readRest]
  | cons chunk rest ih => simp [readRest, ih]

theorem length_le_block (headers : List Text) :
    headers.length ≤ (headers.flatMap (· ++ crlf)).length := by
  induction headers with
  | nil => rfl
  | cons header rest ih =>
      simp only [List.flatMap_cons, List.length_append, List.length_cons, crlf] at ih ⊢
      omega

theorem logHeaders_block {headers : List Text}
    (lines : ∀ header ∈ headers, header ≠ [] ∧ '\r' ∉ header ∧ '\n' ∉ header) (tail oss_h : Text)
    {rounds : Nat} (enough : headers.length < rounds) :
    logHeaders rounds ⟨headers.flatMap (· ++ crlf) ++ crlf ++ tail, false, false⟩ oss_h =
      (⟨tail, false, false⟩, oss_h ++ headers.flatMap (· ++ crlf)) := by
  obtain ⟨rounds, rfl⟩ : ∃ fewer, rounds = fewer + 1 := ⟨rounds - 1, by omega⟩
  induction headers generalizing oss_h rounds with
  | nil =>
      have blank := @getLine_append ['\r'] tail (by decide)
      simp only [crlf, List.flatMap_nil, List.nil_append, List.cons_append] at blank ⊢
      simp [logHeaders, blank]
  | cons header rest ih =>
      obtain ⟨nonempty, _, single⟩ := lines header List.mem_cons_self
      obtain ⟨fewer, rfl⟩ : ∃ fewer, rounds = fewer + 1 :=
        ⟨rounds - 1, by simp only [List.length_cons] at enough; omega⟩
      have line := @getLine_append (header ++ ['\r']) (rest.flatMap (· ++ crlf) ++ crlf ++ tail)
        (by simp [single])
      have others := ih (fun other member => lines other (List.mem_cons_of_mem _ member))
        (oss_h ++ header ++ crlf) fewer (by simp only [List.length_cons] at enough; omega)
      have text : (header :: rest).flatMap (· ++ crlf) ++ crlf ++ tail =
          (header ++ ['\r']) ++ '\n' :: (rest.flatMap (· ++ crlf) ++ crlf ++ tail) := by
        simp [crlf]
      have proper : header ++ ['\r'] ≠ ['\r'] := by simpa using nonempty
      rw [logHeaders, text, line]
      simp only [Bool.false_or, proper, decide_false, Bool.false_eq_true, ↓reduceIte]
      have joined : oss_h ++ (header ++ ['\r']) ++ ['\n'] = oss_h ++ header ++ crlf := by
        simp [crlf]
      rw [joined, others]
      simp

end Lines

section Marks

variable {response : Response}

theorem statusLine_eq :
    response.statusLine = "HTTP/".toList ++ response.version ++ " 200 ".toList ++ response.reason :=
  rfl

theorem reason_not_mem : '\n' ∉ response.statusLine := by
  have word : '\n' ∉ response.version :=
    fun member => absurd (response.version_word _ member) (by decide)
  simp [statusLine_eq, word, response.reason_line.2]

theorem statusLine_unmarked : ¬ crlf <:+: (response.statusLine ++ crlf).dropLast := by
  have cut : (response.statusLine ++ crlf).dropLast = response.statusLine ++ ['\r'] := by
    rw [List.dropLast_append_of_ne_nil (by decide)]
    rfl
  rw [cut]
  intro present
  have member : '\n' ∈ response.statusLine ++ ['\r'] := present.subset (by decide)
  simp [reason_not_mem] at member

theorem headers_unmarked {headers : List Text}
    (lines : ∀ header ∈ headers, header ≠ [] ∧ '\r' ∉ header ∧ '\n' ∉ header) :
    ¬ crlf ++ crlf <:+: headers.flatMap (· ++ crlf) ++ ['\r'] := by
  induction headers with
  | nil => decide
  | cons header rest ih =>
      have others := ih fun other member => lines other (List.mem_cons_of_mem _ member)
      have text : (header :: rest).flatMap (· ++ crlf) ++ ['\r'] =
          header ++ '\r' :: '\n' :: (rest.flatMap (· ++ crlf) ++ ['\r']) := by
        simp [crlf]
      have delim : crlf ++ crlf = '\r' :: '\n' :: crlf := rfl
      rw [text, delim, infix_append_of_notMem (lines header List.mem_cons_self).2.1,
        List.infix_cons_iff, List.infix_cons_iff, ← delim]
      rintro (here | here | later)
      · rw [delim, List.cons_prefix_cons, List.cons_prefix_cons] at here
        rcases rest with _ | ⟨next, tail⟩
        · exact absurd here.2.2 (by decide)
        · obtain ⟨nonempty, plain, _⟩ := lines next (by simp)
          obtain ⟨c, more, rfl⟩ := List.exists_cons_of_ne_nil nonempty
          have first := (List.cons_prefix_cons.mp here.2.2).1
          exact plain (first ▸ List.mem_cons_self)
      · exact absurd (List.cons_prefix_cons.mp here).1 (by decide)
      · exact others later

theorem headerBlock_unmarked : ¬ crlf ++ crlf <:+: response.headerBlock.dropLast := by
  have cut : response.headerBlock.dropLast = response.headers.flatMap (· ++ crlf) ++ ['\r'] := by
    rw [Response.headerBlock, List.dropLast_append_of_ne_nil (by decide)]
    rfl
  rw [cut]
  exact headers_unmarked response.header_lines

theorem headerBlock_marked (listed : response.headers ≠ []) :
    crlf ++ crlf <:+: response.headerBlock := by
  obtain ⟨front, last, split⟩ := List.eq_nil_or_concat response.headers |>.resolve_left listed
  rw [Response.headerBlock, split]
  exact ⟨front.flatMap (· ++ crlf) ++ last, [], by simp⟩

end Marks

section Query

variable {response : Response} {retval more tail : Text} {front back later : List Text}

theorem statusLine_read (holds : front.flatten = response.statusLine ++ crlf ++ more)
    (back : List Text) :
    ∃ taken mid tail, front = taken ++ mid ∧ taken.flatten = response.statusLine ++ crlf ++ tail ∧
      readUntil crlf [] (front ++ back) =
        some (response.statusLine ++ crlf ++ tail, mid ++ back) := by
  have present : crlf <:+: [] ++ front.flatten := by
    rw [List.nil_append, holds]
    exact ⟨response.statusLine, more, rfl⟩
  obtain ⟨taken, mid, rfl, done⟩ := readUntil_early front back present
  rw [List.nil_append] at done
  have start : taken.flatten <+: response.statusLine ++ crlf ++ more := by
    rw [← holds, List.flatten_append]
    exact List.prefix_append _ _
  obtain ⟨tail, split⟩ := prefix_of_present (by simp [crlf]) statusLine_unmarked
    (readUntil_eq_some done).1 start
  rw [← split] at done
  exact ⟨taken, mid, tail, rfl, split.symm, done⟩

theorem queryDb_status
    (read : readUntil crlf [] front = some (response.statusLine ++ crlf ++ tail, later)) :
    queryDb retval front =
      match readUntil (crlf ++ crlf) tail later with
      | none => ⟨false, none, []⟩
      | some (buffer, socket) =>
          let (response_stream, oss_h) := logHeaders (buffer.length + 2) ⟨buffer, false, false⟩ []
          ⟨true, some (readRest [] socket), oss_h ++ ['\n'] ++ response_stream.rest⟩ := by
  have text : response.statusLine ++ crlf ++ tail =
      ("HTTP/".toList ++ response.version) ++ ' ' ::
        ("200 ".toList ++ response.reason ++ crlf ++ tail) := by
    simp [statusLine_eq]
  have word : ∀ c ∈ "HTTP/".toList ++ response.version, isSpace c = false :=
    List.forall_mem_append.mpr ⟨word_of_all (by decide), response.version_word⟩
  have first := @readWord_append ("HTTP/".toList ++ response.version)
    ("200 ".toList ++ response.reason ++ crlf ++ tail)
    (by simp) word
  have second := readUnsigned_status (response.reason ++ crlf ++ tail)
  have third := @getLine_append (' ' :: response.reason ++ ['\r']) tail
    (by simp [response.reason_line.2])
  have numbered : ' ' :: ("200 ".toList ++ response.reason ++ crlf ++ tail) =
      " 200 ".toList ++ (response.reason ++ crlf ++ tail) := by simp
  have ended : ' ' :: (response.reason ++ crlf ++ tail) =
      (' ' :: response.reason ++ ['\r']) ++ '\n' :: tail := by
    simp [crlf]
  rw [numbered] at first
  rw [ended] at second
  rw [queryDb, read]
  simp only [text, numbered, first, second, third]
  simp

theorem queryDb_head (listed : response.headers ≠ [])
    (holds : front.flatten = response.head ++ more) (back : List Text) :
    ∃ taken mid lost, front = taken ++ mid ∧ taken.flatten = response.head ++ lost ∧
      queryDb retval (front ++ back) =
        ⟨true, some (mid ++ back).flatten,
          response.headers.flatMap (· ++ crlf) ++ ['\n'] ++ lost⟩ := by
  have status : front.flatten = response.statusLine ++ crlf ++ (response.headerBlock ++ more) := by
    rw [holds, Response.head, List.append_assoc]
  obtain ⟨first, others, tail, rfl, started, read⟩ := statusLine_read status back
  have remaining : tail ++ others.flatten = response.headerBlock ++ more := by
    rw [List.flatten_append, started, List.append_assoc] at status
    exact List.append_cancel_left status
  have present : crlf ++ crlf <:+: tail ++ others.flatten := by
    rw [remaining]
    exact (headerBlock_marked listed).trans (List.prefix_append _ _).isInfix
  obtain ⟨second, mid, rfl, done⟩ := readUntil_early others back present
  have start : tail ++ second.flatten <+: response.headerBlock ++ more := by
    rw [← remaining, List.flatten_append, ← List.append_assoc]
    exact List.prefix_append _ _
  obtain ⟨lost, split⟩ := prefix_of_present
    (by simp [Response.headerBlock, crlf]) headerBlock_unmarked
    (readUntil_eq_some done).1 start
  refine ⟨first ++ second, mid, lost, by simp, ?_, ?_⟩
  · rw [List.flatten_append, started, List.append_assoc, ← split]
    simp [Response.head]
  · have rounds : response.headers.length < (response.headerBlock ++ lost).length + 2 := by
      have lines := length_le_block response.headers
      rw [Response.headerBlock, List.length_append, List.length_append]
      omega
    have logged := logHeaders_block response.header_lines lost [] rounds
    rw [← Response.headerBlock, List.nil_append] at logged
    rw [queryDb_status read, done, ← split]
    simp only [logged, readRest_eq, List.nil_append]

theorem not_queryDb_unlisted (empty : response.headers = [])
    (all : front.flatten = response.head ++ response.body) :
    ¬ ((queryDb retval front).returned = true ∧
      (queryDb retval front).retval = some response.body) := by
  have status : front.flatten = response.statusLine ++ crlf ++ (crlf ++ response.body) := by
    rw [all, Response.head, Response.headerBlock, empty]
    simp
  obtain ⟨taken, mid, tail, rfl, started, read⟩ := statusLine_read status []
  rw [List.flatten_append, started, List.append_assoc] at status
  have remaining := List.append_cancel_left status
  rw [List.append_nil, List.append_nil] at read
  rw [queryDb_status read]
  rintro ⟨returned, body⟩
  cases done : readUntil (crlf ++ crlf) tail mid with
  | none => simp [done] at returned
  | some read =>
      obtain ⟨present, joined⟩ := readUntil_eq_some done
      simp only [done, readRest_eq, List.nil_append, Option.some.injEq] at body
      -- at least two characters of the body are in the buffer
      have long := present.length_le
      have lengths := congrArg List.length (joined.trans remaining)
      rw [List.length_append, List.length_append, body] at lengths
      simp only [crlf, List.length_append, List.length_cons, List.length_nil] at long lengths
      omega

end Query

def ReturnsBody (response : Response) (retval : Text) (socket : List Text) : Prop :=
  (queryDb retval socket).returned = true ∧ (queryDb retval socket).retval = some response.body

theorem returns_body_iff (response : Response) (retval : Text) (socket : List Text)
    (received : socket.flatten = response.head ++ response.body) :
    ReturnsBody response retval socket ↔
      response.headers ≠ [] ∧ ∃ front back, socket = front ++ back ∧
      front.flatten = response.head := by
  constructor
  · intro returns
    have listed : response.headers ≠ [] := fun empty => not_queryDb_unlisted empty received returns
    obtain ⟨taken, mid, lost, rfl, started, reply⟩ :=
      @queryDb_head response retval _ _ listed received []
    simp only [List.append_nil] at reply
    rw [ReturnsBody, reply, Option.some.injEq] at returns
    rw [List.flatten_append, started, returns.2, List.append_assoc,
      List.append_cancel_left_eq] at received
    have nothing : lost = [] := by simpa using received
    exact ⟨listed, taken, mid, rfl, by rw [started, nothing, List.append_nil]⟩
  · rintro ⟨listed, front, back, rfl, aligned⟩
    have holds : front.flatten = response.head ++ [] := by rw [aligned, List.append_nil]
    obtain ⟨taken, mid, lost, rfl, started, reply⟩ :=
      @queryDb_head response retval _ _ listed holds back
    rw [List.flatten_append, started, List.append_assoc, List.append_cancel_left_eq,
      List.append_eq_nil_iff] at holds
    rw [List.flatten_append, aligned, List.append_cancel_left_eq] at received
    rw [ReturnsBody, reply, List.flatten_append, holds.2, received]
    exact ⟨rfl, rfl⟩

section Example

def created : Response where
  version := "1.0".toList
  reason := "OK".toList
  headers := ["Connection: close".toList]
  body := "\x7b\"results\":[]\x7d".toList
  version_word := word_of_all (by decide)
  reason_line := by decide
  header_lines := by decide

theorem returns_body_iff_aligned :
    ReturnsBody created [] [created.head, created.body] ↔
      created.headers ≠ [] ∧ ∃ front back, [created.head, created.body] = front ++ back ∧
      front.flatten = created.head :=
  returns_body_iff created [] [created.head, created.body] (by simp)

theorem body_lost :
    [created.head ++ created.body].flatten = created.head ++ created.body ∧
      queryDb [] [created.head ++ created.body] =
        ⟨true, some [], "Connection: close\r\n\n\x7b\"results\":[]\x7d".toList⟩ ∧
      ¬ ReturnsBody created [] [created.head ++ created.body] := by
  have reply : queryDb [] [created.head ++ created.body] =
      ⟨true, some [], "Connection: close\r\n\n\x7b\"results\":[]\x7d".toList⟩ := by decide +kernel
  refine ⟨by simp, reply, ?_⟩
  rw [ReturnsBody, reply]
  decide

end Example

end OneFass.Database
