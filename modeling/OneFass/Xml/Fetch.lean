import OneFass.Xml.AcctPool

set_option autoImplicit false

namespace OneFass.Xml

open Runtime Client

def parsable (parse : Parser) : Outcome → Bool
  | .success (.array (.boolean true :: .string document :: _)) => (parse document).isSome
  | _ => false

def expectedCode (parse : Parser) (outcome : Outcome) : Int :=
  if parsable parse outcome then 0 else -1

def reported (parse : Parser) : Outcome → Bool
  | .transportError | .timeout => true
  | .fault _ => false
  | .success (.array (.boolean false :: .string _ :: _)) => true
  | outcome => parsable parse outcome

theorem readResponse_eq_ok {result : Value} {answer : Option Text} :
    readResponse result = .ok answer ↔
      ∃ flag message rest, result = .array (.boolean flag :: .string message :: rest) ∧
        answer = if flag then some message else none := by
  simp only [readResponse, bind_eq_ok, Value.asArray_eq_ok, Value.asBoolean_eq_ok,
    Value.asString_eq_ok, element_eq_ok, pure, Except.pure, Except.ok.injEq]
  constructor
  · rintro ⟨values, rfl, flag, first, success, rfl, payload, second, message, rfl, chosen⟩
    rcases values with _ | ⟨a, _ | ⟨b, rest⟩⟩
    · simp at first
    · simp at second
    · simp_all
  · rintro ⟨flag, message, rest, rfl, rfl⟩
    simp

def fetchCode (fetched : Except Fault (Option XmlNode)) : Except Fault Int :=
  (fun found => if found.isSome then 0 else -1) <$> fetched

theorem setUp_code (parse : Parser) (server : Server) (auth : Text) (search : Query)
    (objects : Objects) :
    (setUp parse server auth search objects).2 =
      fetchCode (fetchDocument parse server auth "one.vmpool.info".toList loadVmsParameters) := by
  simp only [setUp]
  rcases fetchDocument parse server auth _ _ with fault | _ | document <;> rfl

theorem acct_setUp_code (parse : Parser) (server : Server) (auth : Text) (uids : List Int)
    (time_start : Int) (objects : AcctObjects) :
    (AcctPool.setUp parse server auth uids time_start objects).2 =
      fetchCode (fetchDocument parse server auth "one.vmpool.accounting".toList
        (AcctPool.loadAcctParameters time_start)) := by
  simp only [AcctPool.setUp]
  rcases fetchDocument parse server auth _ _ with fault | _ | document <;> rfl

theorem fetchCode_openDocument (parse : Parser) (result : Value) (code : Int) :
    fetchCode (openDocument parse result) = .ok code ↔
      ∃ flag message rest, result = .array (.boolean flag :: .string message :: rest) ∧
        if flag then (parse message).isSome ∧ code = 0 else code = -1 := by
  simp only [fetchCode, openDocument, map_eq_ok, bind_eq_ok, readResponse_eq_ok]
  constructor
  · rintro ⟨found, ⟨answer, ⟨flag, message, rest, rfl, rfl⟩, continued⟩, rfl⟩
    refine ⟨flag, message, rest, rfl, ?_⟩
    cases flag with
    | false => simp_all [pure, Except.pure]
    | true =>
        cases tree : parse message <;> simp_all [xmlParse, pure, Except.pure, bind, Except.bind]
        simp [← continued]
  · rintro ⟨flag, message, rest, rfl, ends⟩
    cases flag with
    | false => exact ⟨none, ⟨none, ⟨false, message, rest, rfl, rfl⟩, rfl⟩, by simp_all⟩
    | true =>
        obtain ⟨tree, parsed⟩ := Option.isSome_iff_exists.mp ends.1
        refine ⟨some tree, ⟨some message, ⟨true, message, rest, rfl, rfl⟩, ?_⟩, by simp_all⟩
        simp [xmlParse, parsed, pure, Except.pure, bind, Except.bind]

-- the unassigned result of a server fault is read outside the catch clause
theorem fetchDocument_eq (parse : Parser) (server : Server) (auth method : Text)
    (parameters : List Value) :
    fetchDocument parse server auth method parameters =
      match server method (.string auth :: parameters) with
      | .success result => openDocument parse result
      | .fault _ => .error (.raised .girerr)
      | .transportError | .timeout => .ok none := by
  cases answered : server method (.string auth :: parameters) <;>
    simp [fetchDocument, tryCall, call, callAsync, answered, bind, Except.bind, openDocument,
      readResponse, Value.asArray, pure, Except.pure]

theorem fetchCode_reported (parse : Parser) (server : Server) (auth method : Text)
    (parameters : List Value) :
    fetchCode (fetchDocument parse server auth method parameters) =
        .ok (expectedCode parse (server method (.string auth :: parameters))) ↔
      reported parse (server method (.string auth :: parameters)) = true := by
  rw [fetchDocument_eq]
  cases server method (.string auth :: parameters) with
  | transportError => simp [fetchCode, expectedCode, parsable, reported, Functor.map, Except.map]
  | timeout => simp [fetchCode, expectedCode, parsable, reported, Functor.map, Except.map]
  | fault description => simp [fetchCode, reported, Functor.map, Except.map]
  | success result =>
      simp only [fetchCode_openDocument]
      constructor
      · rintro ⟨flag, message, rest, rfl, ends⟩
        cases flag <;> simp_all [reported, parsable]
      · intro survives
        unfold reported at survives
        split at survives <;> simp_all [expectedCode, parsable]
        split at survives <;> simp_all

theorem setUp_code_iff (parse : Parser) (server : Server) (auth : Text) (search : Query)
    (objects : Objects) :
    (setUp parse server auth search objects).2 = .ok 0 ↔
      parsable parse (server "one.vmpool.info".toList (.string auth :: loadVmsParameters)) =
        true := by
  rw [setUp_code, fetchDocument_eq]
  cases server "one.vmpool.info".toList (.string auth :: loadVmsParameters) with
  | transportError => simp [fetchCode, parsable, Functor.map, Except.map]
  | timeout => simp [fetchCode, parsable, Functor.map, Except.map]
  | fault description => simp [fetchCode, parsable, Functor.map, Except.map]
  | success result =>
      simp only [fetchCode_openDocument]
      constructor
      · rintro ⟨flag, message, rest, rfl, ends⟩
        cases flag <;> simp_all [parsable]
      · intro answered
        unfold parsable at answered
        split at answered <;> simp_all

theorem setUp_returns_iff (parse : Parser) (server : Server) (auth : Text) (search : Query)
    (objects : Objects) (uids : List Int) (time_start : Int) (acctObjects : AcctObjects) :
    let vms := server "one.vmpool.info".toList (.string auth :: loadVmsParameters)
    let acct := server "one.vmpool.accounting".toList
      (.string auth :: AcctPool.loadAcctParameters time_start)
    ((setUp parse server auth search objects).2 = .ok (expectedCode parse vms) ↔
        reported parse vms = true) ∧
      ((AcctPool.setUp parse server auth uids time_start acctObjects).2 =
        .ok (expectedCode parse acct) ↔ reported parse acct = true) := by
  intro vms acct
  rw [setUp_code, acct_setUp_code]
  exact ⟨fetchCode_reported parse server auth _ _, fetchCode_reported parse server auth _ _⟩

theorem setUp_raises_on_fault_and_truncation :
    let failing : Server := fun _ _ => .fault "not authorised".toList
    let truncated : Server := fun _ _ =>
      .success (.array [.boolean true, .string "<VM_POOL>".toList])
    let parse : Parser := fun _ => none
    (setUp parse failing [] (.pending none) OrderedMap.Map.empty).2 ≠
        .ok (expectedCode parse (failing [] [])) ∧
      (AcctPool.setUp parse failing [] [] 0 OrderedMap.Map.empty).2 ≠
        .ok (expectedCode parse (failing [] [])) ∧
      (setUp parse truncated [] (.pending none) OrderedMap.Map.empty).2 ≠
        .ok (expectedCode parse (truncated [] [])) ∧
      (AcctPool.setUp parse truncated [] [] 0 OrderedMap.Map.empty).2 ≠
        .ok (expectedCode parse (truncated [] [])) := by
  simp [setUp_code, acct_setUp_code, fetchCode_reported, reported, parsable]

end OneFass.Xml
