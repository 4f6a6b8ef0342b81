import OneFass.Pm.User

set_option autoImplicit false

namespace OneFass.Pm

open Runtime OrderedMap ExactPower

structure BasicPlugin where
  tot_cpu : Map intOrder Int
  tot_mem : Map intOrder Int

namespace BasicPlugin

-- one of the two inner loops: entries are counted by position, and `insert` keeps a present value
def addUsage (count : Nat) (totals : Map intOrder Int) : List (Int × Usage) → Map intOrder Int
  | [] => totals
  | entry :: rest =>
      let tmp :=
        match totals.find count with
        | none => entry.2.usage
        | some sum => sum + entry.2.usage
      addUsage (count + 1) (totals.insert count tmp) rest

def addUser (plugin : BasicPlugin) (user : User) : BasicPlugin where
  tot_cpu := addUsage 0 plugin.tot_cpu user.cpu_usage.entries
  tot_mem := addUsage 0 plugin.tot_mem user.memory_usage.entries

def evaluateTotalUsage (user_list : List User) : BasicPlugin :=
  user_list.foldl addUser ⟨Map.empty, Map.empty⟩

def lookup {V : Type} (map : Map intOrder V) (key : Int) : Except Fault V :=
  match map.find key with
  | some value => .ok value
  | none => .error (.undefined .missingEntry)

def decay : ℚ := 1 / 2

def halfLife (u0 u1 u2 u3 : Int) : ℚ :=
  (u0 - u1 : Int) + decay * (u1 - u2 : Int) + decay * decay * (u2 - u3 : Int)

def userUsage (user : User) : Except Fault ℚ := do
  let h0 ← lookup user.cpu_usage 0
  let h1 ← lookup user.cpu_usage 1
  let h2 ← lookup user.cpu_usage 2
  let h3 ← lookup user.cpu_usage 3
  return halfLife h0.usage h1.usage h2.usage h3.usage

def totalUsage (plugin : BasicPlugin) : Except Fault ℚ := do
  let t0 ← lookup plugin.tot_cpu 0
  let t1 ← lookup plugin.tot_cpu 1
  let t2 ← lookup plugin.tot_cpu 2
  let t3 ← lookup plugin.tot_cpu 3
  return halfLife t0 t1 t2 t3

def usageRatio (h_usage t_usage : ℚ) : ℚ := if t_usage = 0 then 0 else h_usage / t_usage

-- `ratio/(user->share)`, with `none` for the NaN
def divideByShare (ratio : ℚ) : Option (FloatValue ℚ) → Except Fault (Option ℚ)
  | none => .error (.undefined .uninitialised)
  | some .nan => .ok none
  | some (.infinite _) => .ok (some 0)
  | some (.finite share) =>
      if share = 0 then .error (.undefined .zeroDivisor) else .ok (some (ratio / share))

def fairShare (effort : Option ℚ) (oid : Int) : FloatValue Scaled :=
  match effort with
  | some e => .finite (((Scaled.pow2 (-e)).scale (1 / oid)).scale 1000000000000)
  | none => .nan

-- `update_prio`; the parameters that it only logs or ignores are left out
def updatePrio (plugin : BasicPlugin) (oid : Int) (user : User) (debug_flag : Int) :
    Except Fault (FloatValue Scaled) :=
  if debug_flag = 0 then .ok (.finite (Scaled.ofRat oid))
  else do
    let h_usage ← userUsage user
    let t_usage ← totalUsage plugin
    let effort ← divideByShare (usageRatio h_usage t_usage) user.share
    if oid = 0 then .error (.undefined .zeroDivisor) else .ok (fairShare effort oid)

section Lookups

theorem lookup_eq_ok {V : Type} {map : Map intOrder V} {key : Int} {value : V} :
    lookup map key = .ok value ↔ map.find key = some value := by
  cases found : map.find key <;> simp [lookup, found]

theorem userUsage_eq_ok {user : User} {h_usage : ℚ} :
    userUsage user = .ok h_usage ↔ ∃ h0 h1 h2 h3, user.cpu_usage.find 0 = some h0 ∧
      user.cpu_usage.find 1 = some h1 ∧ user.cpu_usage.find 2 = some h2 ∧
      user.cpu_usage.find 3 = some h3 ∧
      halfLife h0.usage h1.usage h2.usage h3.usage = h_usage := by
  simp only [userUsage, bind_eq_ok, lookup_eq_ok, pure, Except.pure, Except.ok.injEq]
  grind

theorem totalUsage_eq_ok {plugin : BasicPlugin} {t_usage : ℚ} :
    totalUsage plugin = .ok t_usage ↔ ∃ t0 t1 t2 t3, plugin.tot_cpu.find 0 = some t0 ∧
      plugin.tot_cpu.find 1 = some t1 ∧ plugin.tot_cpu.find 2 = some t2 ∧
      plugin.tot_cpu.find 3 = some t3 ∧
      halfLife t0 t1 t2 t3 = t_usage := by
  simp only [totalUsage, bind_eq_ok, lookup_eq_ok, pure, Except.pure, Except.ok.injEq]
  grind

theorem updatePrio_eq_ok {plugin : BasicPlugin} {oid : Int} {user : User} {debug_flag : Int}
    {prio : FloatValue Scaled} (fair : debug_flag ≠ 0) :
    updatePrio plugin oid user debug_flag = .ok prio ↔
      ∃ h_usage t_usage effort, userUsage user = .ok h_usage ∧ totalUsage plugin = .ok t_usage ∧
        divideByShare (usageRatio h_usage t_usage) user.share = .ok effort ∧ oid ≠ 0 ∧
        fairShare effort oid = prio := by
  simp only [updatePrio, fair, ↓reduceIte, bind_eq_ok]
  constructor
  · rintro ⟨h_usage, used, t_usage, total, effort, divided, ends⟩
    split_ifs at ends with zero
    exact ⟨h_usage, t_usage, effort, used, total, divided, zero, Except.ok.inj ends⟩
  · rintro ⟨h_usage, t_usage, effort, used, total, divided, nonzero, rfl⟩
    exact ⟨h_usage, used, t_usage, total, effort, divided, by simp [nonzero]⟩

end Lookups

end BasicPlugin

end OneFass.Pm
