import OneFass.Shared.Runtime

set_option autoImplicit false

namespace OneFass.Client

open Runtime

inductive Value where
  | unassigned
  | int (value : Int)
  | boolean (value : Bool)
  | double (value : ℚ)
  | string (value : Text)
  | array (elements : List Value)
  | other

namespace Value

-- `xmlrpc_c::value_array(v).vectorValueValue()`
def asArray : Value → Except Fault (List Value)
  | array elements => .ok elements
  | _ => .error (.raised .girerr)

def asBoolean : Value → Except Fault Bool
  | boolean value => .ok value
  | _ => .error (.raised .girerr)

def asInt : Value → Except Fault Int
  | int value => .ok value
  | _ => .error (.raised .girerr)

def asString : Value → Except Fault Text
  | string value => .ok value
  | _ => .error (.raised .girerr)

theorem asArray_eq_ok {value : Value} {elements : List Value} :
    value.asArray = .ok elements ↔ value = array elements := by
  cases value <;> simp [asArray]

theorem asBoolean_eq_ok {value : Value} {flag : Bool} :
    value.asBoolean = .ok flag ↔ value = boolean flag := by
  cases value <;> simp [asBoolean]

theorem asString_eq_ok {value : Value} {chars : Text} :
    value.asString = .ok chars ↔ value = string chars := by
  cases value <;> simp [asString]

end Value

-- `values[index]` of a vector, which checks no bound
def element (values : List Value) (index : Nat) : Except Fault Value :=
  match values[index]? with
  | some value => .ok value
  | none => .error (.undefined .indexOutOfBounds)

theorem element_eq_ok {values : List Value} {index : Nat} {value : Value} :
    element values index = .ok value ↔ values[index]? = some value := by
  cases found : values[index]? <;> simp [element, found]

inductive Outcome where
  | success (result : Value)
  | fault (description : Text)
  | transportError
  | timeout

abbrev Server := Text → List Value → Outcome

/-- `XMLRPCClient::call_async`; a transport error and a timeout raise in `getFault`. -/
def callAsync (outcome : Outcome) (result : Value) : Except Fault Value :=
  match outcome with
  | .success value => .ok value
  -- girerr::error is constructed here, but not thrown
  | .fault _ => .ok result
  | .transportError => .error (.raised .girerr)
  | .timeout => .error (.raised .girerr)

/-- `XMLRPCClient::call`: the secret goes in front of the parameters. -/
def call (server : Server) (auth method : Text) (parameters : List Value) (result : Value) :
    Except Fault Value :=
  callAsync (server method (.string auth :: parameters)) result

-- the conversion of a 64-bit integer to `int`
def toInt32 (value : Int) : Int := value.bmod (2 ^ 32)

end OneFass.Client
