import OneFass.Xml.VMPool

set_option autoImplicit false

namespace OneFass.Terminator

open Runtime Client Xml

structure Config where
  one_secret : Text
  -- the uid and the ttl of each user
  users : List (Int × Int)
  max_wait : Int
  action : Text

inductive Request where
  | terminate (oid : Int)
  | operate (action : Text) (oid : Int)
  deriving DecidableEq

namespace Request

def oid : Request → Int
  | terminate oid => oid
  | operate _ oid => oid

def method : Request → Text
  | terminate _ => "one.vm.recover".toList
  | operate _ _ => "one.vm.action".toList

def parameters : Request → List Value
  -- 3 asks for a deletion
  | terminate oid => [.int oid, .int 3]
  | operate action oid => [.string action, .int oid]

end Request

def kill : Text := "kill".toList
def suspend : Text := "suspend".toList
def poweroff : Text := "poweroff".toList
def reboot : Text := "reboot".toList

/-- The body of the loop in `kill_running`, when the clock shows `now`. -/
def runningRequest (action : Text) (ttl now : Int) (vm : VMObject) : Option Request :=
  let life := now - vm.start
  if vm.start = 0 then none
  else if life > ttl ∧ vm.static_vm = 0 ∧ action = kill then some (.terminate vm.oid)
  else if life > ttl ∧ vm.static_vm = 0 ∧ (action = suspend ∨ action = poweroff ∨
    action = reboot) then
    some (.operate action vm.oid)
  -- an unsupported action is only logged
  else none

/-- The body of the loop in `kill_pending`. -/
def pendingRequest (max_wait now : Int) (vm : VMObject) : Option Request :=
  let wait := now - vm.birth
  if wait > max_wait ∧ vm.static_vm = 0 then some (.terminate vm.oid) else none

structure Totals where
  cpu : ℚ
  memory : Int
  deriving DecidableEq

def Totals.zero : Totals := ⟨0, 0⟩

def Totals.add (totals : Totals) (vm : VMObject) : Totals :=
  ⟨totals.cpu + vm.cpu, totals.memory + vm.memory⟩

inductive Call where
  | killPending (uid : Int)
  | killRunning (uid ttl : Int)
  deriving DecidableEq

namespace Call

-- `get_pending(uid)` and `get_running(uid)`
def query : Call → Query
  | killPending uid => .pending (if uid = -1 then none else some uid)
  | killRunning uid _ => .running (some uid)

def request (config : Config) (now : Int) (vm : VMObject) : Call → Option Request
  | killPending _ => pendingRequest config.max_wait now vm
  | killRunning _ ttl => runningRequest config.action ttl now vm

def count (totals : Totals) (vm : VMObject) : Call → Totals
  | killPending _ => totals
  | killRunning _ _ => totals.add vm

theorem request_eq_some {config : Config} {now : Int} {vm : VMObject} {call : Call}
    {request : Request} (issued : call.request config now vm = some request) :
    request.oid = vm.oid ∧ vm.static_vm = 0 := by
  cases call with
  | killPending uid =>
      simp only [Call.request, pendingRequest] at issued
      split_ifs at issued with expired
      cases issued
      exact ⟨rfl, expired.2⟩
  | killRunning uid ttl =>
      simp only [Call.request, runningRequest] at issued
      split_ifs at issued with unknown killed operated
      · cases issued
        exact ⟨rfl, killed.2.1⟩
      · cases issued
        exact ⟨rfl, operated.2.1⟩

end Call

end OneFass.Terminator
