import OneFass.Database.Requests
import OneFass.Pm.FailedFetch
import OneFass.Xml.FloatUsage

set_option autoImplicit false

namespace OneFass.Database

open Runtime Pm Xml AcctPool Http LineProtocol

-- `InfluxDb::write_usage`: the second query is made whatever the first one returned
def InfluxDb.writeUsage (db : InfluxDb) (user : User) (cpu memory : Connection) :
    Except Fault (Exchange × Exchange × Bool) := do
  let (cpuQuery, memoryQuery) ← Database.writeUsage user
  let first := db.query write' cpuQuery [] cpu
  let second := db.query write' memoryQuery (first.reply.retval.getD []) memory
  return (first, second, first.reply.returned && second.reply.returned)

end OneFass.Database

namespace OneFass.Pm.FloatHistory

open Runtime Client OrderedMap BinaryRounding Xml AcctPool FloatUsage Database Config

-- `historical_usage` up to its writes, in the arithmetic of `float`, `double` and `int64_t`
def historicalUsage (config : ManagerConfig) (parse : Parser) (server : Server) (timestamp : Int)
    (state : ManagerState) : Except Fault (AcctObjects × List User) := do
  let uids : List Int := state.user_list.map fun user => (user.userID.toNat : Int)
  let times ← windowTimes config timestamp
  let (acctpool, rc) := FloatUsage.setUp parse server config.one_secret uids times.1 state.acctpool
  -- a failed fetch is only logged
  let _ ← rc
  let user_list ← FloatUsage.evalUsage acctpool state.user_list times.1 timestamp times.2
    config.n_periods
  return (acctpool, user_list)

section History

variable {config : ManagerConfig} {parse : Parser} {server : Server} {timestamp : Int}
    {state : ManagerState}
  {times : Int × Int} {document : XmlNode}

end History

section Example

end Example

end OneFass.Pm.FloatHistory
