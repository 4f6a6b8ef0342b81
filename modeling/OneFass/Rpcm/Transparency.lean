import OneFass.Rpcm.OneProxy

set_option autoImplicit false

namespace OneFass.Rpcm

open Runtime Client

inductive Scalar where
  | string (value : Text)
  | int (value : Int)
  | boolean (value : Bool)

def Scalar.toValue : Scalar → Value
  | string value => .string value
  | int value => .int value
  | boolean value => .boolean value

def Scalar.isText : Scalar → Bool
  | string _ => true
  | _ => false

def Transparent (flag : Bool) (payload : Scalar) (reply : Value) : Prop :=
  if flag then ∃ rest, reply = .array (.boolean true :: payload.toValue :: rest)
  else ∃ rest, reply = .array (.boolean false :: rest)

theorem successArray_transparent (flag : Bool) (payload : Scalar) :
    Transparent flag payload (successArray payload.toValue) ↔ flag = true := by
  cases flag <;> simp [Transparent, successArray]

theorem failureArray_transparent (flag : Bool) (payload : Scalar) (code : ErrorCode) :
    Transparent flag payload (failureArray code) ↔ flag = false := by
  cases flag <;> simp [Transparent, failureArray]

theorem respondByType_scalar (payload : Scalar) (state : ReplyState) :
    finish (respondByType payload.toValue) state =
      (.ok (), { state with retval := successArray payload.toValue }) := by
  cases payload <;>
    simp [respondByType, Scalar.toValue, typeOf, Value.asString, Value.asInt, Value.asBoolean,
      successString, successInt, successBool]

section Answer

variable (flag : Bool) (payload : Scalar) (rest : List Value) (state : ReplyState)

def answerArray : List Value := .boolean flag :: payload.toValue :: rest

-- a refusal with a text goes on to the success branch
theorem readAnswer_ok (passes : flag = true ∨ payload.isText = true) :
    finish (readAnswer (.array (answerArray flag payload rest))) state =
      (.ok (), ⟨successArray payload.toValue, answerArray flag payload rest⟩) := by
  have first : element (answerArray flag payload rest) 0 = .ok (.boolean flag) := rfl
  have second : element (answerArray flag payload rest) 1 = .ok payload.toValue := rfl
  cases flag with
  | true => simp [readAnswer, first, second, Value.asArray, Value.asBoolean, respondByType_scalar]
  | false =>
      cases payload with
      | string message =>
          have respond := respondByType_scalar (.string message)
          simp only [Scalar.toValue] at respond second
          simp [readAnswer, first, second, Value.asArray, Value.asBoolean, Value.asString,
            Scalar.toValue, failureResponse, respond]
      | int value => simp [Scalar.isText] at passes
      | boolean value => simp [Scalar.isText] at passes

-- reading the error as a string raises
theorem readAnswer_raises (isText : payload.isText = false) :
    finish (readAnswer (.array (answerArray false payload rest))) state =
      (.error (.raised .girerr), { state with values := answerArray false payload rest }) := by
  have first : element (answerArray false payload rest) 0 = .ok (.boolean false) := rfl
  have second : element (answerArray false payload rest) 1 = .ok payload.toValue := rfl
  have unreadable : payload.toValue.asString = .error (.raised .girerr) := by
    cases payload <;> simp_all [Scalar.isText, Scalar.toValue, Value.asString]
  simp [readAnswer, first, second, unreadable, Value.asArray, Value.asBoolean]

theorem answerFailed_reply :
    finish (answerFailed (.raised .girerr)) { state with values := answerArray flag payload rest } =
      (.ok (), ⟨failureArray .internal, answerArray flag payload rest⟩) := by
  have second : element (answerArray flag payload rest) 1 = .ok payload.toValue := rfl
  have typed : ∃ type, typeOf payload.toValue = .ok type := by
    cases payload <;> simp [Scalar.toValue, typeOf]
  obtain ⟨type, typed⟩ := typed
  simp [answerFailed, second, typed, failureResponse]

end Answer

def reply (server : Server) (method : Text) (paramList : List Value) (state : ReplyState) : Value :=
  (finish (execute server method paramList) state).2.retval

theorem reply_eq (server : Server) (method session : Text) (more : List Value) (state : ReplyState)
    (flag : Bool) (payload : Scalar) (rest : List Value)
    (answer : server method (.string session :: more) =
      .success (.array (answerArray flag payload rest))) :
    reply server method (.string session :: more) state =
      if flag || payload.isText then successArray payload.toValue else failureArray .internal := by
  have forwarded : forward server method (.string session :: more) =
      .ok (.array (answerArray flag payload rest)) := by
    simp [forward, callAsync, answer]
  by_cases passes : flag = true ∨ payload.isText = true
  · simp [reply, execute, getString, forwarded, readAnswer_ok flag payload rest _ passes, passes]
  · simp only [not_or, Bool.not_eq_true] at passes
    obtain ⟨rfl, isText⟩ := passes
    have failed := answerFailed_reply false payload rest ⟨state.retval, []⟩
    simp [reply, execute, getString, forwarded, readAnswer_raises payload rest _ isText, failed,
      isText]

theorem execute_transparent_iff (server : Server) (method session : Text) (more : List Value)
    (state : ReplyState) (flag : Bool) (payload : Scalar) (rest : List Value)
    (answer : server method (.string session :: more) =
      .success (.array (.boolean flag :: payload.toValue :: rest))) :
    Transparent flag payload (reply server method (.string session :: more) state) ↔
      flag = true ∨ payload.isText = false := by
  rw [reply_eq server method session more state flag payload rest answer]
  cases flag with
  | true => simp [successArray_transparent]
  | false =>
      cases text : payload.isText with
      | true => simp [successArray_transparent]
      | false => simp [failureArray_transparent]

def refusal (message : Text) : Server :=
  fun _ _ => .success (.array [.boolean false, .string message])

theorem execute_transparent_on_int :
    Transparent true (.int 7) (reply (fun _ _ => .success (.array [.boolean true, .int 7, .int 0]))
      "one.vm.info".toList [.string "user:token".toList] ⟨.unassigned, []⟩) :=
  (execute_transparent_iff _ _ _ [] _ true (.int 7) [.int 0] rfl).mpr (Or.inl rfl)

theorem execute_reports_refusal_as_success :
    ¬ Transparent false (.string "no such VM".toList)
      (reply (refusal "no such VM".toList) "one.vm.info".toList [.string "user:token".toList]
        ⟨.unassigned, []⟩) := by
  rw [reply_eq (refusal _) _ _ [] _ false (.string "no such VM".toList) [] rfl]
  simp [Transparent, successArray, Scalar.isText]

end OneFass.Rpcm
