import OneFass.Client.XmlRpc

set_option autoImplicit false

namespace OneFass.Rpcm

open Runtime Client

structure ReplyState where
  retval : Value
  values : List Value

abbrev Handler := ExceptT Fault (StateM ReplyState)

def check {α : Type} (result : Except Fault α) : Handler α := ExceptT.mk (pure result)

def assign (reply : Value) : Handler Unit := modify fun state => { state with retval := reply }

def finish {α : Type} (handler : Handler α) (state : ReplyState) : Except Fault α × ReplyState :=
  Id.run (StateT.run (ExceptT.run handler) state)

section Finish

variable {α β : Type} (state : ReplyState)

@[simp] theorem finish_pure (value : α) : finish (pure value) state = (.ok value, state) := rfl

@[simp] theorem finish_check (result : Except Fault α) :
    finish (check result) state = (result, state) := rfl

@[simp] theorem finish_assign (reply : Value) :
    finish (assign reply) state = (.ok (), { state with retval := reply }) := rfl

@[simp] theorem finish_modify (f : ReplyState → ReplyState) :
    finish (modify f : Handler Unit) state = (.ok (), f state) := rfl

@[simp] theorem finish_get : finish (get : Handler ReplyState) state = (.ok state, state) := rfl

@[simp] theorem finish_throw (fault : Fault) :
    finish (throw fault : Handler α) state = (.error fault, state) := rfl

@[simp] theorem finish_bind (first : Handler α) (next : α → Handler β) :
    finish (first >>= next) state =
      match finish first state with
      | (.ok value, later) => finish (next value) later
      | (.error fault, later) => (.error fault, later) := by
  simp only [finish, ExceptT.run_bind, StateT.run_bind, Id.run]
  cases StateT.run (ExceptT.run first) state with
  | mk result later => cases result <;> rfl

@[simp] theorem finish_tryCatch (body : Handler α) (handle : Fault → Handler α) :
    finish (tryCatch body handle) state =
      match finish body state with
      | (.ok value, later) => (.ok value, later)
      | (.error fault, later) => finish (handle fault) later := by
  simp only [finish, Id.run]
  change StateT.run (ExceptT.tryCatch body handle) state = _
  simp only [ExceptT.tryCatch, ExceptT.run, ExceptT.mk, StateT.run_bind]
  cases StateT.run body state with
  | mk result later => cases result <;> rfl

end Finish

inductive ErrorCode where
  | success
  | xmlRpcApi
  | internal
  deriving DecidableEq

def ErrorCode.value : ErrorCode → Int
  | success => 0x0000
  | xmlRpcApi => 0x1000
  | internal => 0x2000

def successArray (payload : Value) : Value :=
  .array [.boolean true, payload, .int ErrorCode.success.value]

def successString (val : Text) : Handler Unit := assign (successArray (.string val))
def successInt (val : Int) : Handler Unit := assign (successArray (.int val))
def successBool (val : Bool) : Handler Unit := assign (successArray (.boolean val))

def failureArray (code : ErrorCode) : Value := .array [.boolean false, .int code.value]

def failureResponse (code : ErrorCode) : Handler Unit := assign (failureArray code)

inductive ValueType where
  | int
  | boolean
  | double
  | string
  | array
  | other
  deriving DecidableEq

-- v.type() raises on a value that was never assigned
def typeOf : Value → Except Fault ValueType
  | .unassigned => .error (.raised .girerr)
  | .int _ => .ok .int
  | .boolean _ => .ok .boolean
  | .double _ => .ok .double
  | .string _ => .ok .string
  | .array _ => .ok .array
  | .other => .ok .other

/-- `Request::log_result`, without the text it logs. -/
def logResult (retval : Value) : Except Fault Unit := do
  let vvalue ← retval.asArray
  let first ← element vvalue 0
  let success ← first.asBoolean
  if success then
    let _ ← mapAll typeOf ((vvalue.drop 1).take (vvalue.length - 2))
    return ()
  else
    let second ← element vvalue 1
    let _ ← second.asString
    return ()

end OneFass.Rpcm
