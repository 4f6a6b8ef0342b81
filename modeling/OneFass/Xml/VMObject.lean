import OneFass.Xml.Node

set_option autoImplicit false

namespace OneFass.Xml

open Runtime

structure VMObject where
  xml : XmlNode
  oid : Int
  uid : Int
  gid : Int
  static_vm : Int
  memory : Int
  cpu : ℚ
  birth : Int
  start : Int
  deriving DecidableEq

def VMObject.ofNode (node : XmlNode) : VMObject where
  xml := node
  oid := xpath readInt [.vm, .id] (-1) node
  uid := xpath readInt [.vm, .uid] (-1) node
  gid := xpath readInt [.vm, .gid] (-1) node
  static_vm := xpath readInt [.vm, .userTemplate, .staticVm] 1 node
  memory := xpath readInt [.vm, .template, .memory] 0 node
  cpu := xpath readFloat [.vm, .template, .cpu] 0 node
  birth := xpath readInt64 [.vm, .stime] (-1) node
  start := xpath readInt64 [.vm, .historyRecords, .history, .stime] (-1) node

def vmOpen : Text := "<VM>".toList
def vmClose : Text := "</VM>".toList

/-- `VMObject::dump_node`: the document without its header and what follows the node. -/
def dumpNode (xml : XmlNode) : Except Fault Text :=
  let document := dump xml
  let body := eraseUpTo document (find document vmOpen)
  eraseFrom body (past (find body vmClose) 5)

def priorityWord : Text := "USER_PRIORITY".toList
def priorityOpen : Text := "<USER_PRIORITY>".toList
def priorityClose : Text := "</USER_PRIORITY>".toList
def templateOpen : Text := "<USER_TEMPLATE>".toList

def prioNode (prio : Text) : Text := priorityOpen ++ prio ++ priorityClose

-- the edit that `make_queue` makes to the text of a node
def setPriority (prio node : Text) : Except Fault Text :=
  if (find node priorityWord).isSome then
    match find node priorityOpen with
    -- erase(npos, ...) raises
    | none => .error (.raised .outOfRange)
    | some start => do
        let erased ← eraseSpan node start (past (find node priorityClose) 16)
        insertAt erased start (prioNode prio)
  else insertAt node (past (find node templateOpen) 15) (prioNode prio)

/-- What `make_queue` appends to the queue for one object. -/
def queueNode (prio : Text) (vm : VMObject) : Except Fault Text := do
  let node ← dumpNode vm.xml
  setPriority prio node

end OneFass.Xml
