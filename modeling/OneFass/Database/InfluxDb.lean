import OneFass.Pm.User
import OneFass.Shared.Decimal

set_option autoImplicit false

namespace OneFass.Database

open Runtime OrderedMap Pm

def appendEntry (query : Text) (entry : Int × Usage) : Text :=
  if entry.1 ≠ 0 then query ++ ",value".toList ++ intText entry.1 ++ "=".toList ++
    intText entry.2.usage
  else query ++ "value".toList ++ intText entry.1 ++ "=".toList ++ intText entry.2.usage

-- one of the two loops of `write_usage`: the stream and the timestamp that it leaves
def appendUsage (query : Text) (timestamp : Int) : List (Int × Usage) → Text × Int
  | [] => (query, timestamp)
  | entry :: rest =>
      let timestamp := if timestamp = 0 then entry.2.stop_time else timestamp
      appendUsage (appendEntry query entry) timestamp rest

def nanoseconds (timestamp : Int) : Except Fault Int := checkInt64 (timestamp * 1000000000)

/-- `InfluxDb::write_usage`: the bodies of the two queries. -/
def writeUsage (user : User) : Except Fault (Text × Text) := do
  let uid := decimal user.userID.toNat
  let query : Text := "h_cpu,user=".toList ++ uid ++ " ".toList
  let (query, timestamp) := appendUsage query 0 user.cpu_usage.entries
  let ns ← nanoseconds timestamp
  let cpu := query ++ " ".toList ++ intText ns
  -- `query.str("")`
  let query : Text := [] ++ "h_memory,user=".toList ++ uid ++ " ".toList
  let (query, timestamp) := appendUsage query 0 user.memory_usage.entries
  let ns ← nanoseconds timestamp
  return (cpu, query ++ " ".toList ++ intText ns)

section Loop

variable {query : Text} {stop : Int} {entries : List (Int × Usage)}

-- once the timestamp is set it stays
theorem appendUsage_stamped (nonzero : stop ≠ 0)
    (stops : ∀ entry ∈ entries, entry.2.stop_time = stop) :
    ∀ timestamp, timestamp = 0 ∨ timestamp = stop →
      appendUsage query timestamp entries =
        (entries.foldl appendEntry query, if entries = [] then timestamp else stop) := by
  induction entries generalizing query with
  | nil => simp [appendUsage]
  | cons entry rest ih =>
      intro timestamp set
      have here := stops entry List.mem_cons_self
      have next : (if timestamp = 0 then entry.2.stop_time else timestamp) = stop := by
        rcases set with rfl | rfl <;> simp [here]
      rw [appendUsage, next, ih (fun other member =>
        stops other (List.mem_cons_of_mem _ member)) stop (Or.inr rfl)]
      simp

end Loop

end OneFass.Database
