import OneFass.Rpcm.Transparency

set_option autoImplicit false

namespace OneFass.Rpcm

open Runtime Client

def WellFormed (outcome : Outcome) : Prop :=
  ∃ flag, ∃ payload : Scalar, ∃ rest,
    outcome = .success (.array (.boolean flag :: payload.toValue :: rest))

def HasPayload (outcome : Outcome) : Prop :=
  ∃ first second rest, outcome = .success (.array (first :: second :: rest))

def FailsCleanly (ended : Except Fault Unit × ReplyState) : Prop :=
  ended.1 = .ok () ∧ ∃ rest, ended.2.retval = .array (.boolean false :: rest)

inductive Reply where
  | success (payload : Scalar)
  | failure (code : ErrorCode)

namespace Reply

def toValue : Reply → Value
  | success payload => successArray payload.toValue
  | failure code => failureArray code

def isSuccess : Reply → Bool
  | success _ => true
  | failure _ => false

end Reply

theorem logResult_success (payload : Scalar) :
    logResult (successArray payload.toValue) = .ok () := by
  cases payload <;> rfl

theorem logResult_failure (code : ErrorCode) :
    logResult (failureArray code) = .error (.raised .girerr) := rfl

theorem logResult_reply (reply : Reply) :
    logResult reply.toValue = .ok () ↔ reply.isSuccess = true := by
  cases reply with
  | success payload => simp [Reply.toValue, Reply.isSuccess, logResult_success]
  | failure code => simp [Reply.toValue, Reply.isSuccess, logResult_failure]

section Answer

def answered : Outcome → Value
  | .success result => result
  | _ => .unassigned

theorem forward_eq (server : Server) (method : Text) (paramList : List Value) :
    forward server method paramList = .ok (answered (server method paramList)) := by
  cases outcome : server method paramList <;> simp [forward, callAsync, answered, outcome]

variable (retval : Value)

theorem element_beyond {values : List Value} {index : Nat} (short : values.length ≤ index) :
    element values index = .error (.undefined .indexOutOfBounds) := by
  simp [element, List.getElem?_eq_none short]

theorem answerFailed_short {values : List Value} (exception : Raised) (short : values.length ≤ 1) :
    (finish (answerFailed (.raised exception)) ⟨retval, values⟩).1 =
      .error (.undefined .indexOutOfBounds) := by
  simp [answerFailed, element_beyond short]

theorem answerFailed_long (exception : Raised) (first second : Value) (rest : List Value) :
    let ended := finish (answerFailed (.raised exception)) ⟨retval, first :: second :: rest⟩
    ended.1 = .error (.raised .girerr) ∨
      ended = (.ok (), ⟨failureArray .internal, first :: second :: rest⟩) := by
  have here : element (first :: second :: rest) 1 = .ok second := rfl
  cases second <;> simp [answerFailed, here, typeOf, failureResponse]

def attempt (result : Value) : Handler Unit := tryCatch (readAnswer result) answerFailed

theorem attempt_short {result : Value}
    (short : ∀ first second rest, result ≠ .array (first :: second :: rest)) :
    (finish (attempt result) ⟨retval, []⟩).1 = .error (.undefined .indexOutOfBounds) := by
  have unread (values : List Value) (few : values.length ≤ 1) :=
    @answerFailed_short retval values .girerr few
  by_cases isArray : ∃ elements, result = .array elements
  · obtain ⟨elements, rfl⟩ := isArray
    rcases elements with _ | ⟨first, _ | ⟨second, rest⟩⟩
    · simp [attempt, readAnswer, Value.asArray, element, answerFailed]
    · have one : element [first] 0 = .ok first := rfl
      have none : element [first] 1 = .error (.undefined .indexOutOfBounds) := rfl
      cases first with
      | boolean flag =>
          cases flag <;> simp [attempt, readAnswer, Value.asArray, Value.asBoolean, one, none,
            answerFailed]
      | _ => simp [attempt, readAnswer, Value.asArray, Value.asBoolean, one, unread]
    · exact absurd rfl (short first second rest)
  · have notArray : result.asArray = .error (.raised .girerr) := by
      cases result <;> simp_all [Value.asArray]
    simp [attempt, readAnswer, notArray, unread]

theorem attempt_long (first second : Value) (rest : List Value)
    (malformed : ¬ WellFormed (.success (.array (first :: second :: rest)))) :
    let ended := finish (attempt (.array (first :: second :: rest))) ⟨retval, []⟩
    ended.1 = .error (.raised .girerr) ∨
      ended = (.ok (), ⟨failureArray .internal, first :: second :: rest⟩) := by
  have one : element (first :: second :: rest) 0 = .ok first := rfl
  have two : element (first :: second :: rest) 1 = .ok second := rfl
  have failed := answerFailed_long retval .girerr first second rest
  cases first with
  | boolean flag =>
      cases flag with
      | true =>
          cases second with
          | string value => exact absurd ⟨true, .string value, rest, rfl⟩ malformed
          | int value => exact absurd ⟨true, .int value, rest, rfl⟩ malformed
          | boolean value => exact absurd ⟨true, .boolean value, rest, rfl⟩ malformed
          | unassigned =>
              simpa [attempt, readAnswer, Value.asArray, Value.asBoolean, one, two, respondByType,
                typeOf] using failed
          | _ =>
              right
              simp [attempt, readAnswer, Value.asArray, Value.asBoolean, one, two, respondByType,
                typeOf, failureResponse]
      | false =>
          cases second with
          | string value => exact absurd ⟨false, .string value, rest, rfl⟩ malformed
          | _ =>
              simpa [attempt, readAnswer, Value.asArray, Value.asBoolean, Value.asString, one,
                two] using failed
  | _ => simpa [attempt, readAnswer, Value.asArray, Value.asBoolean, one] using failed

end Answer

theorem execute_eq (server : Server) (method session : Text) (more : List Value)
    (state : ReplyState) :
    finish (execute server method (.string session :: more)) state =
      match finish (attempt (answered (server method (.string session :: more))))
          ⟨state.retval, []⟩ with
      | (.ok _, later) => (logResult later.retval, later)
      | (.error fault, later) => (.error fault, later) := by
  have named : getString (.string session :: more) 0 = .ok session := rfl
  simp only [execute, named, forward_eq, attempt, finish_bind, finish_check, finish_modify,
    finish_get, finish_tryCatch]
  rcases finish (readAnswer _) ⟨state.retval, []⟩ with ⟨fault | value, later⟩
  · simp only
    rcases finish (answerFailed fault) later with ⟨again | value, last⟩ <;> rfl
  · rfl

theorem execute_short (server : Server) (method session : Text) (more : List Value)
    (state : ReplyState) (short : ¬ HasPayload (server method (.string session :: more))) :
    (finish (execute server method (.string session :: more)) state).1 =
      .error (.undefined .indexOutOfBounds) := by
  rw [execute_eq]
  have unread := @attempt_short state.retval (answered (server method (.string session :: more))) ?_
  · split <;> simp_all
  · intro first second rest equal
    cases outcome : server method (.string session :: more) with
    | success result =>
        rw [outcome] at equal short
        exact short ⟨first, second, rest, congrArg Outcome.success equal⟩
    | _ => simp [outcome, answered] at equal

theorem execute_long (server : Server) (method session : Text) (more : List Value)
    (state : ReplyState) (present : HasPayload (server method (.string session :: more)))
    (malformed : ¬ WellFormed (server method (.string session :: more))) :
    (finish (execute server method (.string session :: more)) state).1 =
      .error (.raised .girerr) := by
  obtain ⟨first, second, rest, outcome⟩ := present
  rw [outcome] at malformed
  rw [execute_eq, outcome, answered]
  rcases attempt_long state.retval first second rest malformed with raises | replies
  · split <;> simp_all
  · simp [replies, logResult_failure]

theorem failing_call_unanswered (server : Server) (method session : Text) (more : List Value)
    (state : ReplyState) (failing : ¬ WellFormed (server method (.string session :: more))) :
    let ended := finish (execute server method (.string session :: more)) state
    ¬ FailsCleanly ended ∧
      (ended.1 = .error (.undefined .indexOutOfBounds) ↔
        ¬ HasPayload (server method (.string session :: more))) ∧
      ∀ reply : Reply, logResult reply.toValue = .ok () ↔ reply.isSuccess = true := by
  intro ended
  by_cases present : HasPayload (server method (.string session :: more))
  · have raises := execute_long server method session more state present failing
    exact ⟨fun clean => by simp [clean.1, ended] at raises, by simp [ended, raises, present],
      logResult_reply⟩
  · have unread := execute_short server method session more state present
    exact ⟨fun clean => by simp [clean.1, ended] at unread, by simp [ended, unread, present],
      logResult_reply⟩

theorem failing_call_unanswered_timeout :
    let ended := finish
      (execute (fun _ _ => .timeout) "one.vm.info".toList [.string "user:token".toList])
      ⟨.unassigned, []⟩
    ¬ FailsCleanly ended ∧ (ended.1 = .error (.undefined .indexOutOfBounds) ↔
      ¬ HasPayload .timeout) ∧
      ∀ reply : Reply, logResult reply.toValue = .ok () ↔ reply.isSuccess = true :=
  failing_call_unanswered (fun _ _ => .timeout) "one.vm.info".toList "user:token".toList []
    ⟨.unassigned, []⟩
    (by simp [WellFormed])

theorem timeout_reads_beyond_the_answer :
    ¬ WellFormed .timeout ∧
      (finish (execute (fun _ _ => .timeout) "one.vm.info".toList [.string "user:token".toList])
        ⟨.unassigned, []⟩).1 = .error (.undefined .indexOutOfBounds) ∧
      logResult (failureArray .internal) = .error (.raised .girerr) :=
  ⟨by simp [WellFormed], execute_short _ _ _ _ _ (by simp [HasPayload]), rfl⟩

end OneFass.Rpcm
