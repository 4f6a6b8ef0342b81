import OneFass.Rpcm.Request

set_option autoImplicit false

namespace OneFass.Rpcm

open Runtime Client

def getString (paramList : List Value) (index : Nat) : Except Fault Text :=
  match paramList[index]? with
  | some (.string value) => .ok value
  | _ => .error (.raised .girerr)

-- the `switch` on the type of the payload
def respondByType (payload : Value) : Handler Unit := do
  match ← check (typeOf payload) with
  | .string =>
      let val ← check payload.asString
      successString val
  | .int =>
      let val ← check payload.asInt
      successInt val
  | .boolean =>
      let val ← check payload.asBoolean
      successBool val
  | _ => failureResponse .internal

def readAnswer (result : Value) : Handler Unit := do
  let values ← check result.asArray
  modify fun state => { state with values := values }
  let flag ← check (element values 0)
  let success ← check flag.asBoolean
  -- one says failure
  if !success then
    let error ← check (element values 1)
    let _ ← check error.asString
    failureResponse .xmlRpcApi
  -- one says success
  let payload ← check (element values 1)
  respondByType payload

def answerFailed : Fault → Handler Unit
  -- catch (exception const&), whose log message looks at the answer again
  | .raised _ => do
      let state ← get
      let payload ← check (element state.values 1)
      let _ ← check (typeOf payload)
      failureResponse .internal
  | .undefined hazard => throw (.undefined hazard)

-- a failed call is only logged, and leaves the result unassigned
def forward (server : Server) (method : Text) (paramList : List Value) : Except Fault Value :=
  match callAsync (server method paramList) .unassigned with
  | .error (.raised _) => .ok .unassigned
  | other => other

/-- `RequestOneProxy::execute`, without its log of the call. -/
def execute (server : Server) (method : Text) (paramList : List Value) : Handler Unit := do
  let _ ← check (getString paramList 0)
  modify fun state => { state with values := [] }
  tryCatch (do
    let result ← check (forward server method paramList)
    readAnswer result) answerFailed
  let state ← get
  check (logResult state.retval)

end OneFass.Rpcm
