import OneFass.Shared.ExactPower
import OneFass.Shared.Runtime

set_option autoImplicit false

namespace OneFass.Pm

open OrderedMap ExactPower

structure Usage where
  usage : Int
  start_time : Int
  stop_time : Int
  deriving DecidableEq

structure User where
  userID : UInt16
  groupID : UInt16
  -- nothing while the member has no value yet
  share : Option (FloatValue ℚ)
  ttl : Int
  cpu_usage : Map intOrder Usage
  memory_usage : Map intOrder Usage

namespace User

-- `User user;` leaves its members without a value, of which only the share is ever read.
def unset : User := ⟨0, 0, none, 0, Map.empty, Map.empty⟩

def setCpuUsage (user : User) (period : Int) (usage : Usage) : User :=
  { user with cpu_usage := user.cpu_usage.insert period usage }

def setMemoryUsage (user : User) (period : Int) (usage : Usage) : User :=
  { user with memory_usage := user.memory_usage.insert period usage }

def flushUsage (user : User) : User :=
  { user with cpu_usage := Map.empty, memory_usage := Map.empty }

end User

end OneFass.Pm
