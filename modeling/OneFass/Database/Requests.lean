import OneFass.Database.HttpQuery
import OneFass.Database.UsageLines
import OneFass.Shared.Http

set_option autoImplicit false

namespace OneFass.Database

open Runtime Http LineProtocol

structure InfluxDb where
  endpoint : Text
  port : Int
  dbname : Text

inductive Connection where
  -- `resolve` or `connect` raised
  | refused
  -- `write` raised after some bytes
  | broken (bytes : Nat)
  | answered (socket : List Text)

def Connection.completes : Connection → Bool
  | answered _ => true
  | _ => false

structure Exchange where
  received : Text
  reply : Reply

namespace InfluxDb

def write' : Text := "WRITE".toList

def get : Text := "GET".toList

def post : Text := "POST".toList

def ping : Text := "/ping".toList

def createQuery : Text := "/query?pretty=false&q=create%20database%20".toList

def writeTarget : Text := "/write?db=".toList

def protocol : Text := "HTTP/1.0".toList

def host : Text := "Host: ".toList

def accept : Text := "Accept: */*".toList

def contentType : Text := "Content-Type: application/x-www-form-urlencoded".toList

def length : Text := "Content-Length: ".toList

def connectionClose : Text := "Connection: close".toList

/-- The stream that `query_db` writes to the socket. -/
def requestText (db : InfluxDb) (method q : Text) : Text :=
  let posts := decide (method = write')
  let my_query := if posts then writeTarget ++ db.dbname else q
  let method := if posts then post else method
  method ++ [' '] ++ my_query ++ [' '] ++ protocol ++ crlf ++ host ++ db.endpoint ++ crlf ++
    accept ++ crlf ++
    (if posts then contentType ++ crlf ++ length ++ decimal q.length ++ crlf else []) ++
    connectionClose ++ crlf ++ crlf ++ (if posts then q else [])

def query (db : InfluxDb) (method q retval : Text) : Connection → Exchange
  | .refused => ⟨[], false, none, []⟩
  | .broken bytes => ⟨(db.requestText method q).take bytes, false, none, []⟩
  | .answered socket => ⟨db.requestText method q, queryDb retval socket⟩

def pingDb (db : InfluxDb) : Connection → Exchange := db.query get ping []

def createDb (db : InfluxDb) : Connection → Exchange := db.query post (createQuery ++ db.dbname) []

def initDb (db : InfluxDb) (pings creates : Connection) : List Text × Bool :=
  if (db.pingDb pings).reply.returned then
    -- a database that cannot be created is only logged
    ([(db.pingDb pings).received, (db.createDb creates).received], true)
  else ([(db.pingDb pings).received], false)

def valueField : Text := " value=".toList

def line (key value tag : Text) (timestamp : Int) : Except Fault Text := do
  let ns ← nanoseconds timestamp
  let series := if tag.isEmpty then key else key ++ [','] ++ tag
  return series ++ valueField ++ value ++ [' '] ++ intText ns

def write (db : InfluxDb) (key value tag : Text) (timestamp : Int) (connection : Connection) :
    Except Fault Exchange := do
  let body ← line key value tag timestamp
  return db.query write' body [] connection

def shareUser : Text := "share,user=".toList

def groupTag : Text := ",group=".toList

def ttlTag : Text := ",ttl=".toList

def sharesLine (share user group : Text) (ttl timestamp : Int) : Except Fault Text := do
  let ns ← nanoseconds timestamp
  return shareUser ++ user ++ groupTag ++ group ++ ttlTag ++ intText ttl ++ valueField ++ share ++
    [' '] ++ intText ns

-- `share` is the text that the stream makes of the number
def writeInitialShares (db : InfluxDb) (share user group : Text) (ttl timestamp : Int)
    (connection : Connection) :
    Except Fault Exchange := do
  let body ← sharesLine share user group ttl timestamp
  return db.query write' body [] connection

end InfluxDb

section Reading

variable {db : InfluxDb}

structure InfluxDb.Addressable (db : InfluxDb) : Prop where
  dbname : ' ' ∉ db.dbname ∧ '\r' ∉ db.dbname
  endpoint : db.endpoint.head? ≠ some ' ' ∧ '\r' ∉ db.endpoint

def hostName : Text := "Host".toList

def acceptField : Field := ("Accept".toList, "*/*".toList)

def typeField : Field := ("Content-Type".toList, "application/x-www-form-urlencoded".toList)

def lengthName : Text := "Content-Length".toList

def closing : Field := ("Connection".toList, "close".toList)

def plainFields (db : InfluxDb) : List Field := [(hostName, db.endpoint), acceptField]

def formFields (body : Text) : List Field := [typeField, (lengthName, decimal body.length)]

def posted (db : InfluxDb) (body : Text) : Request where
  method := InfluxDb.post
  target := InfluxDb.writeTarget ++ db.dbname
  version := InfluxDb.protocol
  fields := plainFields db ++ formFields body ++ [closing]
  body := body

def asked (db : InfluxDb) (method target : Text) : Request where
  method := method
  target := target
  version := InfluxDb.protocol
  fields := plainFields db ++ [closing]
  body := []

theorem host_eq : InfluxDb.host = hostName ++ [':', ' '] := by decide +kernel

theorem accept_eq : InfluxDb.accept = fieldLine acceptField := by decide +kernel

theorem contentType_eq : InfluxDb.contentType = fieldLine typeField := by decide +kernel

theorem length_eq : InfluxDb.length = lengthName ++ [':', ' '] := by decide +kernel

theorem connectionClose_eq : InfluxDb.connectionClose = fieldLine closing := by decide +kernel

theorem fieldLine_mk (name value : Text) : fieldLine (name, value) = name ++ ':' :: ' ' :: value :=
  rfl

theorem requestText_posted (body : Text) :
    db.requestText InfluxDb.write' body = (posted db body).text := by
  simp only [InfluxDb.requestText, posted, Request.text, Request.requestLine, plainFields,
    formFields, fieldLine_mk,
    newline, crlf, host_eq, accept_eq, contentType_eq, length_eq, connectionClose_eq, decide_true,
      ↓reduceIte,
    List.append_assoc, List.cons_append, List.nil_append, List.flatMap_cons, List.flatMap_nil]

theorem requestText_asked {method : Text} (reads : method ≠ InfluxDb.write') (target : Text) :
    db.requestText method target = (asked db method target).text := by
  simp only [InfluxDb.requestText, reads, decide_false, Bool.false_eq_true, asked, Request.text,
    Request.requestLine,
    plainFields, fieldLine_mk, newline, crlf, host_eq, accept_eq, connectionClose_eq, ↓reduceIte,
      List.append_assoc,
    List.cons_append, List.nil_append, List.flatMap_cons, List.flatMap_nil, List.append_nil]

theorem decimal_value (n : Nat) : (decimal n).head? ≠ some ' ' ∧ '\r' ∉ decimal n := by
  have digit (c : Char) (member : c ∈ decimal n) := isDigit_decimal member
  refine ⟨fun first => ?_, fun member => absurd (digit _ member) (by decide)⟩
  exact absurd (digit _ (List.mem_of_mem_head? first)) (by decide)

def Word (text : Text) : Prop := ' ' ∉ text ∧ '\r' ∉ text

instance (text : Text) : Decidable (Word text) := inferInstanceAs (Decidable (_ ∧ _))

theorem Word.append {first second : Text} (word : Word first) (other : Word second) :
    Word (first ++ second) :=
  ⟨fun member => (List.mem_append.mp member).elim word.1 other.1,
    fun member => (List.mem_append.mp member).elim word.2 other.2⟩

def PlainField (field : Field) : Prop :=
  (':' ∉ field.1 ∧ '\r' ∉ field.1) ∧ (field.2.head? ≠ some ' ' ∧ '\r' ∉ field.2)

instance (field : Field) : Decidable (PlainField field) := inferInstanceAs (Decidable (_ ∧ _))

theorem plainFields_plain (addressable : db.Addressable) :
    ∀ field ∈ plainFields db, PlainField field := by
  have name : ':' ∉ hostName ∧ '\r' ∉ hostName := by decide +kernel
  have accept : PlainField acceptField := by decide +kernel
  exact List.forall_mem_cons.mpr ⟨⟨name, addressable.endpoint⟩,
    List.forall_mem_cons.mpr ⟨accept, List.forall_mem_nil _⟩⟩

theorem formFields_plain (body : Text) : ∀ field ∈ formFields body, PlainField field := by
  have type : PlainField typeField := by decide +kernel
  have name : ':' ∉ lengthName ∧ '\r' ∉ lengthName := by decide +kernel
  exact List.forall_mem_cons.mpr
    ⟨type, List.forall_mem_cons.mpr ⟨⟨name, decimal_value body.length⟩, List.forall_mem_nil _⟩⟩

theorem closing_plain : ∀ field ∈ [closing], PlainField field := by
  have close : PlainField closing := by decide +kernel
  exact List.forall_mem_cons.mpr ⟨close, List.forall_mem_nil _⟩

theorem version_word : ∀ word ∈ [InfluxDb.protocol], Word word := by
  have version : Word InfluxDb.protocol := by decide +kernel
  exact List.forall_mem_cons.mpr ⟨version, List.forall_mem_nil _⟩

theorem lengthOf_plainFields (db : InfluxDb) (fields : List Field) :
    lengthOf (plainFields db ++ fields) = lengthOf fields := by
  have host : ¬ hostName.map Char.toLower = contentLength := by decide +kernel
  have accept : ¬ acceptField.1.map Char.toLower = contentLength := by decide +kernel
  simp only [lengthOf, plainFields, List.cons_append, List.nil_append, List.find?_cons, host,
    accept, decide_false]

theorem lengthOf_formFields (body : Text) (fields : List Field) :
    lengthOf (formFields body ++ fields) = some (decimal body.length) := by
  have type : ¬ typeField.1.map Char.toLower = contentLength := by decide +kernel
  have length : lengthName.map Char.toLower = contentLength := by decide +kernel
  simp only [lengthOf, formFields, List.cons_append, List.nil_append, List.find?_cons, type, length,
    decide_false, decide_true, Option.map_some]

theorem lengthOf_closing : lengthOf [closing] = none := by decide +kernel

theorem posted_wellFormed (addressable : db.Addressable) (body : Text) :
    (posted db body).WellFormed := by
  have plain : ∀ field ∈ (posted db body).fields, PlainField field := by
    intro field member
    rcases List.mem_append.mp member with early | last
    · exact (List.mem_append.mp early).elim (plainFields_plain addressable field)
        (formFields_plain body field)
    · exact closing_plain field last
  have method : Word InfluxDb.post := by decide +kernel
  have place : Word InfluxDb.writeTarget := by decide +kernel
  refine ⟨?_, fun field member => (plain field member).1, fun field member =>
    (plain field member).2, Or.inl ?_⟩
  · exact List.forall_mem_cons.mpr ⟨method,
      List.forall_mem_cons.mpr ⟨place.append addressable.dbname, version_word⟩⟩
  · rw [posted, List.append_assoc, lengthOf_plainFields, lengthOf_formFields]

theorem asked_wellFormed (addressable : db.Addressable) {method target : Text} (word : Word method)
    (place : Word target) :
    (asked db method target).WellFormed := by
  have plain : ∀ field ∈ (asked db method target).fields, PlainField field := by
    intro field member
    exact (List.mem_append.mp member).elim (plainFields_plain addressable field)
      (closing_plain field)
  refine ⟨?_, fun field member => (plain field member).1, fun field member =>
    (plain field member).2, Or.inr ⟨?_, rfl⟩⟩
  · exact List.forall_mem_cons.mpr ⟨word, List.forall_mem_cons.mpr ⟨place, version_word⟩⟩
  · rw [asked, lengthOf_plainFields, lengthOf_closing]

end Reading

inductive Sends (db : InfluxDb) : Text → Text → Request → Prop where
  | ping : Sends db InfluxDb.get InfluxDb.ping (asked db InfluxDb.get InfluxDb.ping)
  | create : Sends db InfluxDb.post (InfluxDb.createQuery ++ db.dbname)
      (asked db InfluxDb.post (InfluxDb.createQuery ++ db.dbname))
  | write (body : Text) : Sends db InfluxDb.write' body (posted db body)

theorem requests_read_back (db : InfluxDb) (addressable : db.Addressable) (method q : Text)
    (request : Request) (sends : Sends db method q request) (later : Text) :
    readRequest (db.requestText method q ++ later) = some (request, later) := by
  cases sends with
  | ping =>
      have words : Word InfluxDb.get ∧ Word InfluxDb.ping ∧ InfluxDb.get ≠ InfluxDb.write' := by
        decide +kernel
      rw [requestText_asked words.2.2]
      exact readRequest_text (asked_wellFormed addressable words.1 words.2.1) later
  | create =>
      have words : Word InfluxDb.post ∧ Word InfluxDb.createQuery ∧
          InfluxDb.post ≠ InfluxDb.write' := by decide +kernel
      rw [requestText_asked words.2.2]
      exact readRequest_text (asked_wellFormed addressable words.1
        (words.2.1.append addressable.dbname)) later
  | write =>
      rw [requestText_posted]
      exact readRequest_text (posted_wellFormed addressable q) later

def fassdb : InfluxDb := ⟨"localhost".toList, 8086, "fassdb".toList⟩

theorem fassdb_addressable : fassdb.Addressable := by
  have words : Word fassdb.dbname ∧ fassdb.endpoint.head? ≠ some ' ' ∧ '\r' ∉ fassdb.endpoint := by
    decide +kernel
  exact ⟨words.1, words.2⟩

theorem requests_read_back_disguised :
    readRequest (fassdb.requestText InfluxDb.write' "a\r\n\r\nPOST / HTTP/1.0".toList ++
      "GET".toList) =
      some (posted fassdb "a\r\n\r\nPOST / HTTP/1.0".toList, "GET".toList) :=
  requests_read_back fassdb fassdb_addressable _ _ _ (.write _) _

section Lines

variable {db : InfluxDb} {timestamp : Int}

def Delivers (db : InfluxDb) (received : Text) (point : Tagged) : Prop :=
  readRequest received = some (posted db point.line, []) ∧ readTagged point.line = some point

theorem delivers_requestText (addressable : db.Addressable) {point : Tagged}
    (wellFormed : point.WellFormed) :
    Delivers db (db.requestText InfluxDb.write' point.line) point := by
  have read := readRequest_text (posted_wellFormed addressable point.line) []
  rw [List.append_nil, ← requestText_posted] at read
  exact ⟨read, readTagged_line wellFormed⟩

-- up to the year 2262
def Representable (timestamp : Int) : Prop := 1 ≤ timestamp ∧ timestamp ≤ 9223372036

theorem nanoseconds_representable (representable : Representable timestamp) :
    nanoseconds timestamp = .ok (timestamp * 1000000000) :=
  nanoseconds_ok representable.1 representable.2

def valueName : Text := "value".toList

def measured (key value : Text) (tags : List Pair) (timestamp : Int) : Tagged where
  measurement := key
  tags := tags
  fields := [(valueName, value)]
  time := intText (timestamp * 1000000000)

theorem measured_wellFormed {key value : Text} {tags : List Pair} (named : Token key)
    (valued : Token value) (tagged : ∀ tag ∈ tags, TokenPair tag) :
    (measured key value tags timestamp).WellFormed where
  measurement := named
  tags := tagged
  fields := by
    have name : Token valueName := by decide +kernel
    exact ⟨List.cons_ne_nil _ _, List.forall_mem_cons.mpr ⟨⟨name, valued⟩, List.forall_mem_nil _⟩⟩
  time := intText_token _

theorem value_eq : InfluxDb.valueField = [' '] ++ valueName ++ ['='] := by decide +kernel

theorem nanoseconds_eq {ns : Int} (written : nanoseconds timestamp = .ok ns) :
    nanoseconds timestamp = .ok (timestamp * 1000000000) := by
  exact checkInt64_eq_ok.mpr ⟨(checkInt64_eq_ok.mp written).1, rfl⟩

theorem line_tagged {key value : Text} {tag : Pair} {body : Text}
    (written : InfluxDb.line key value (pairText tag) timestamp = .ok body) :
    body = (measured key value [tag] timestamp).line := by
  obtain ⟨ns, stamped, built⟩ := bind_eq_ok.mp written
  rw [nanoseconds_eq stamped] at stamped
  cases stamped
  have filled : (tag.1 ++ '=' :: tag.2).isEmpty = false := by simp
  simp only [pure, Except.pure, pairText, filled, Bool.false_eq_true, ↓reduceIte,
    Except.ok.injEq] at built
  simp only [← built, measured, Tagged.line, Tagged.series, pairText, value_eq, List.intercalate,
    List.map_cons, List.map_nil, List.intersperse, List.flatten_cons, List.flatten_nil,
      List.append_assoc,
    List.cons_append, List.nil_append]

theorem write_delivers {key value : Text} {tag : Pair} {connection : Connection}
    {exchange : Exchange} (addressable : db.Addressable) (named : Token key) (valued : Token value)
    (tagged : TokenPair tag)
    (wrote : db.write key value (pairText tag) timestamp connection = .ok exchange)
    (completes : connection.completes = true) :
    Delivers db exchange.received (measured key value [tag] timestamp) := by
  obtain ⟨body, written, queried⟩ := bind_eq_ok.mp wrote
  cases queried
  rw [line_tagged written]
  cases connection with
  | answered socket =>
      refine delivers_requestText addressable (measured_wellFormed named valued ?_)
      exact List.forall_mem_cons.mpr ⟨tagged, List.forall_mem_nil _⟩
  | refused => cases completes
  | broken bytes => cases completes

def userName : Text := "user".toList

def groupName : Text := "group".toList

def ttlName : Text := "ttl".toList

def shareName : Text := "share".toList

def sharePoint (share user group : Text) (ttl timestamp : Int) : Tagged :=
  measured shareName share [(userName, user), (groupName, group), (ttlName, intText ttl)] timestamp

theorem shareUser_eq : InfluxDb.shareUser = shareName ++ ',' :: userName ++ ['='] := by
  decide +kernel

theorem groupTag_eq : InfluxDb.groupTag = ',' :: groupName ++ ['='] := by decide +kernel

theorem ttlTag_eq : InfluxDb.ttlTag = ',' :: ttlName ++ ['='] := by decide +kernel

theorem sharesLine_eq (share user group : Text) (ttl : Int)
    (representable : Representable timestamp) :
    InfluxDb.sharesLine share user group ttl timestamp =
      .ok (sharePoint share user group ttl timestamp).line := by
  simp only [InfluxDb.sharesLine, nanoseconds_representable representable, bind, Except.bind, pure,
    Except.pure,
    sharePoint, measured, Tagged.line, Tagged.series, pairText, shareUser_eq, groupTag_eq,
      ttlTag_eq, value_eq,
    List.intercalate, List.map_cons, List.map_nil, List.intersperse, List.flatten_cons,
      List.flatten_nil,
    List.append_assoc, List.cons_append, List.nil_append, List.append_nil]

theorem decimal_token (n : Nat) : Token (decimal n) := intText_token (Int.ofNat n)

theorem sharePoint_wellFormed {share : Text} (valued : Token share) (user group : Nat) (ttl : Int) :
    (sharePoint share (decimal user) (decimal group) ttl timestamp).WellFormed := by
  have names : Token shareName ∧ Token userName ∧ Token groupName ∧ Token ttlName := by
    decide +kernel
  obtain ⟨named, users, groups, ttls⟩ := names
  refine measured_wellFormed named valued ?_
  refine List.forall_mem_cons.mpr ⟨⟨users, decimal_token user⟩,
    List.forall_mem_cons.mpr ⟨⟨groups, decimal_token group⟩, ?_⟩⟩
  exact List.forall_mem_cons.mpr ⟨⟨ttls, intText_token ttl⟩, List.forall_mem_nil _⟩

end Lines

end OneFass.Database
