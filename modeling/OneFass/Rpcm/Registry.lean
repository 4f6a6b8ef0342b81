import OneFass.Rpcm.CallLog
import OneFass.Rpcm.Failures

set_option autoImplicit false

namespace OneFass.Rpcm

open Runtime Client

inductive Method where
  | systemVersion
  | reorderedQueue
  | oneProxy
  deriving DecidableEq

/-- What `register_xml_methods` puts behind a name. -/
def registry (method : Text) : Method :=
  if method = "fass.system.version".toList then .systemVersion
  else if method = "one.vmpool.info".toList then .reorderedQueue
  else .oneProxy

structure Caller where
  uid : Int
  gid : Int
  -- the name in the entry that `getpwuid_r` finds, or nothing for a null `pw`
  pw_name : Option Text
  req_id : Int

structure CallLog where
  format_str : Text
  -- `oss << value` for a `double`
  real : ℚ → Text

def nameOf (caller : Caller) : Except Fault Text :=
  match caller.pw_name with
  | some name => .ok name
  | none => .error (.undefined .nullPointer)

/-- `log_method_invoked`; an index that wraps starts over for ever. -/
def logMethodInvoked (call : Invocation) (format_str : Text) : Except Fault Text :=
  (logLoop call format_str (format_str.length + 2) 0 []).getD (.error (.undefined .overflow))

/-- `Request::execute`: the call is logged before it runs, and its result behind it. -/
def requestExecute (log : CallLog) (caller : Caller) (method_name : Text)
    (request_execute : Handler Unit) (paramList : List Value) : Handler Unit := do
  let uname ← check (nameOf caller)
  let session ← check (getString paramList 0)
  let att : RequestAttributes := ⟨caller.uid, caller.gid, uname, [], [], session, caller.req_id⟩
  let _ ← check (logMethodInvoked ⟨att, paramList, method_name, [], log.real⟩ log.format_str)
  request_execute
  let state ← get
  check (logResult state.retval)

-- `Fass::version`
def version : Text := "Fass 1.4".toList

def handler (log : CallLog) (caller : Caller) (queue : Text) (server : Server) (method : Text)
    (paramList : List Value) : Handler Unit :=
  match registry method with
  | .systemVersion =>
      requestExecute log caller "SystemVersion".toList (successString version) paramList
  | .reorderedQueue =>
      requestExecute log caller "ReorderedQueue".toList (successString queue) paramList
  | .oneProxy => execute server method paramList

def answer (log : CallLog) (caller : Caller) (queue : Text) (server : Server) (method : Text)
    (paramList : List Value) : Except Fault Unit × Value :=
  let ended := finish (handler log caller queue server method paramList) ⟨.unassigned, []⟩
  (ended.1, ended.2.retval)

def hasSession : List Value → Bool
  | .string _ :: _ => true
  | _ => false

theorem getString_session (paramList : List Value) :
    (∃ session, getString paramList 0 = .ok session) ↔ hasSession paramList = true := by
  cases paramList with
  | nil => simp [getString, hasSession]
  | cons first rest => cases first <;> simp [getString, hasSession]

structure Loggable (log : CallLog) (caller : Caller) : Prop where
  known : caller.pw_name ≠ none
  nonempty : log.format_str ≠ []
  short : log.format_str.length < 2 ^ 32

theorem logMethodInvoked_returns {format_str : Text} (call : Invocation)
    (nonempty : format_str ≠ []) (short : format_str.length < 2 ^ 32) :
    logMethodInvoked call format_str = .ok (expandOpen call format_str) := by
  have returned := logLoop_more (@logLoop_returns call format_str nonempty format_str
    (Or.inl short) 0 [] rfl (Nat.zero_le _)) 1
  rw [logMethodInvoked, returned]
  rfl

theorem requestExecute_string {log : CallLog} {caller : Caller} (loggable : Loggable log caller)
    (method_name text session : Text) (rest : List Value) (state : ReplyState) :
    finish (requestExecute log caller method_name (successString text)
      (.string session :: rest)) state =
      (.ok (), { state with retval := successArray (.string text) }) := by
  obtain ⟨name, known⟩ := Option.ne_none_iff_exists'.mp loggable.known
  have named : nameOf caller = .ok name := by rw [nameOf, known]
  have invoked (call : Invocation) := logMethodInvoked_returns call loggable.nonempty loggable.short
  have logged := logResult_success (.string text)
  simp only [Scalar.toValue] at logged
  simp [requestExecute, named, invoked, getString, successString, logged]

theorem answer_queue {log : CallLog} {caller : Caller} {method : Text}
    (loggable : Loggable log caller) (registered : registry method = .reorderedQueue)
    (queue session : Text) (rest : List Value) (server : Server) :
    answer log caller queue server method (.string session :: rest) =
      (.ok (), successArray (.string queue)) := by
  simp only [answer, handler, registered, requestExecute_string loggable]

end OneFass.Rpcm
