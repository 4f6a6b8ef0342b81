import OneFass.Pm.User
import OneFass.Xml.VMPool

set_option autoImplicit false

namespace OneFass.Xml

open Runtime Client OrderedMap Pm

structure AcctObject where
  oid : Int
  uid : Int
  vmid : Int
  static_vm : Int
  memory : Int
  cpu : ℚ
  start_time : Int
  stop_time : Int
  deriving DecidableEq

def AcctObject.ofNode (node : XmlNode) : AcctObject where
  oid := xpath readInt [.history, .oid] (-1) node
  uid := xpath readInt [.history, .vm, .uid] (-1) node
  vmid := xpath readInt [.history, .vm, .id] (-1) node
  static_vm := xpath readInt [.history, .vm, .userTemplate, .staticVm] 1 node
  memory := xpath readInt [.history, .vm, .template, .memory] 0 node
  cpu := xpath readFloat [.history, .vm, .template, .cpu] 0 node
  start_time := xpath readInt64 [.history, .stime] (-1) node
  stop_time := xpath readInt64 [.history, .etime] (-1) node

abbrev AcctObjects := Map intOrder (List AcctObject)

namespace AcctPool

def get (objects : AcctObjects) (uid : Int) : List AcctObject := (objects.find uid).getD []

-- One invalid node leaves the function before anything is stored.
def makeUserObject (objects : AcctObjects) (uid : Int) (nodes : List XmlNode) : AcctObjects :=
  if nodes.all validNode then objects.insert uid (nodes.map AcctObject.ofNode) else objects

def userNodes (document : XmlNode) (uid : Int) : List XmlNode :=
  (XmlNode.select [.historyRecords, .history] document).filter (equalsNumber [.vm, .uid] uid)

def addUser (document : XmlNode) (objects : AcctObjects) (uid : Int) : AcctObjects :=
  let nodes := userNodes document uid
  if nodes.isEmpty then objects else makeUserObject objects uid nodes

def loadAcctParameters (time_start : Int) : List Value :=
  [.int (-2), .int (toInt32 time_start), .int (-1)]

/-- `AcctPool::set_up`: the pool it leaves, and how it ends. -/
def setUp (parse : Parser) (server : Server) (auth : Text) (uids : List Int) (time_start : Int)
    (_ : AcctObjects) : AcctObjects × Except Fault Int :=
  let flushed := Map.empty
  match fetchDocument parse server auth "one.vmpool.accounting".toList
    (loadAcctParameters time_start) with
  | .error fault => (flushed, .error fault)
  | .ok none => (flushed, .ok (-1))
  | .ok (some document) => (uids.foldl (addUser document) flushed, .ok 0)

section EvalUsage

-- `double sum[4]`, of which an element has no value before it is first written
abbrev Sums := Fin 4 → Option ℚ

def load (sums : Sums) (k : Nat) : Except Fault ℚ :=
  if inside : k < 4 then
    match sums ⟨k, inside⟩ with
    | some value => .ok value
    | none => .error (.undefined .uninitialised)
  else .error (.undefined .indexOutOfBounds)

def store (sums : Sums) (k : Nat) (value : ℚ) : Except Fault Sums :=
  if inside : k < 4 then .ok (Function.update sums ⟨k, inside⟩ (some value))
  else .error (.undefined .indexOutOfBounds)

def add (sums : Sums) (k : Nat) (value : ℚ) : Except Fault Sums := do
  let old ← load sums k
  store sums k (old + value)

def initSums (n_periods : Nat) : Except Fault Sums :=
  (List.range n_periods).foldlM (fun sums k => store sums k 0) (fun _ => none)

-- the `stop_entry` and `start_entry` of the loop over periods
def stopEntry (record : AcctObject) (stop : Int) : Int :=
  if record.stop_time = 0 ∨ stop < record.stop_time then stop else record.stop_time

def startEntry (record : AcctObject) (time_start : Int) : Int :=
  if record.start_time < time_start then time_start else record.start_time

def addPeriod (record : AcctObject) (time_start time_stop period : Int) (sums : Sums × Sums)
    (k : Nat) :
    Except Fault (Sums × Sums) :=
  let stop_entry := stopEntry record (time_stop - k * period)
  let start_entry := startEntry record time_start
  if start_entry < stop_entry then do
    let cpu ← add sums.1 k (record.cpu * (stop_entry - start_entry : Int))
    let mem ← add sums.2 k (record.memory * (stop_entry - start_entry : Int))
    return (cpu, mem)
  else return sums

def addRecord (n_periods : Nat) (time_start time_stop period : Int) (sums : Sums × Sums)
    (record : AcctObject) : Except Fault (Sums × Sums) :=
  (List.range n_periods).foldlM (addPeriod record time_start time_stop period) sums

def setEntry (time_start time_stop : Int) (sums : Sums × Sums) (user : User) (k : Nat) :
    Except Fault User := do
  let cpu ← load sums.1 k
  let mem ← load sums.2 k
  return (user.setCpuUsage k ⟨truncate cpu, time_start, time_stop⟩).setMemoryUsage k
    ⟨truncate mem, time_start, time_stop⟩

def evalUser (objects : AcctObjects) (time_start time_stop period : Int) (n_periods : Nat)
    (user : User) :
    Except Fault User := do
  let acct_list := get objects user.userID.toNat
  let init_cpu ← initSums n_periods
  let init_mem ← initSums n_periods
  let sums ← acct_list.foldlM (addRecord n_periods time_start time_stop period) (init_cpu, init_mem)
  (List.range n_periods).foldlM (setEntry time_start time_stop sums) user.flushUsage

/-- `AcctPool::eval_usage`, without its return code, which is always 0. -/
def evalUsage (objects : AcctObjects) (user_list : List User)
    (time_start time_stop period num_periods : Int) :
    Except Fault (List User) :=
  mapAll (evalUser objects time_start time_stop period (num_periods + 1).toNat) user_list

end EvalUsage

end AcctPool

end OneFass.Xml
