import OneFass.Shared.FloatFormat
import OneFass.Xml.EvalUsage
import OneFass.Xml.Grouping

set_option autoImplicit false

namespace OneFass.Xml.FloatUsage

open Runtime Client OrderedMap Pm AcctPool BinaryRounding

-- an infinite product leaves a sum that has no conversion to `int64_t`
def checkFloat (value : ℚ) : Except Fault ℚ :=
  if |value| ≤ maxFloat then .ok value else .error (.undefined .overflow)

-- `cpu * seconds`
def cpuSeconds (record : AcctObject) (seconds : Int) : ℚ :=
  binary32.round (record.cpu * binary32.round seconds)

-- `memory * seconds`, as the sum converts it
def memorySeconds (record : AcctObject) (seconds : Int) : ℚ :=
  binary64.round (record.memory * seconds : Int)

def add (sums : Sums) (k : Nat) (value : ℚ) : Except Fault Sums := do
  let old ← load sums k
  store sums k (binary64.round (old + value))

def addPeriod (record : AcctObject) (time_start time_stop period : Int) (sums : Sums × Sums)
    (k : Nat) :
    Except Fault (Sums × Sums) := do
  let back ← checkInt64 (k * period)
  let stop ← checkInt64 (time_stop - back)
  let stop_entry := stopEntry record stop
  let start_entry := startEntry record time_start
  if start_entry < stop_entry then do
    let seconds ← checkInt64 (stop_entry - start_entry)
    let used ← checkFloat (cpuSeconds record seconds)
    let cpu ← add sums.1 k used
    let _ ← checkInt64 (record.memory * seconds)
    let mem ← add sums.2 k (memorySeconds record seconds)
    return (cpu, mem)
  else return sums

def addRecord (n_periods : Nat) (time_start time_stop period : Int) (sums : Sums × Sums)
    (record : AcctObject) : Except Fault (Sums × Sums) :=
  (List.range n_periods).foldlM (addPeriod record time_start time_stop period) sums

def setEntry (time_start time_stop : Int) (sums : Sums × Sums) (user : User) (k : Nat) :
    Except Fault User := do
  let cpu ← load sums.1 k
  let mem ← load sums.2 k
  let used ← checkInt64 (truncate cpu)
  let held ← checkInt64 (truncate mem)
  return (user.setCpuUsage k ⟨used, time_start, time_stop⟩).setMemoryUsage k ⟨held, time_start,
    time_stop⟩

def evalUser (objects : AcctObjects) (time_start time_stop period : Int) (n_periods : Nat)
    (user : User) :
    Except Fault User := do
  let acct_list := get objects user.userID.toNat
  let init_cpu ← initSums n_periods
  let init_mem ← initSums n_periods
  let sums ← acct_list.foldlM (addRecord n_periods time_start time_stop period) (init_cpu, init_mem)
  (List.range n_periods).foldlM (setEntry time_start time_stop sums) user.flushUsage

/-- `AcctPool::eval_usage` in the arithmetic of `float`, `double` and `int64_t`. -/
def evalUsage (objects : AcctObjects) (user_list : List User)
    (time_start time_stop period num_periods : Int) :
    Except Fault (List User) :=
  mapAll (evalUser objects time_start time_stop period (num_periods + 1).toNat) user_list

section Records

-- `xpath` reads the processors into a `float`
def inFloat (record : AcctObject) : AcctObject := { record with cpu := binary32.round record.cpu }

/-- `AcctPool::set_up`, with the processors of each record in a `float`. -/
def setUp (parse : Parser) (server : Server) (auth : Text) (uids : List Int) (time_start : Int)
    (earlier : AcctObjects) : AcctObjects × Except Fault Int :=
  let (objects, rc) := AcctPool.setUp parse server auth uids time_start earlier
  (objects.mapVal fun records => records.map inFloat, rc)

def userRecords (document : XmlNode) (uid : Int) : List AcctObject :=
  ((stored document uid).getD []).map inFloat

theorem get_mapVal (objects : AcctObjects) (uid : Int) :
    get (objects.mapVal fun records => records.map inFloat) uid =
      (get objects uid).map inFloat := by
  rw [AcctPool.get, AcctPool.get, Map.find_mapVal]
  cases objects.find uid <;> rfl

theorem setUp_fetched {parse : Parser} {server : Server} {auth : Text} {time_start : Int}
    {document : XmlNode}
    (fetched : fetchDocument parse server auth "one.vmpool.accounting".toList
      (loadAcctParameters time_start) =
      .ok (some document)) (uids : List Int) (earlier : AcctObjects) :
    ∃ objects, setUp parse server auth uids time_start earlier = (objects, .ok 0) ∧
      ∀ uid ∈ uids, get objects uid = userRecords document uid := by
  refine ⟨_, by rw [setUp, AcctPool.setUp_fetched fetched], fun uid member => ?_⟩
  rw [get_mapVal, get_addUsers, if_pos member, userRecords]

end Records

section Sums

def addTerm (term : AcctObject → Int → ℚ) (start stop : Int) (sum : ℚ) (record : AcctObject) : ℚ :=
  if 0 < secondsIn record start stop then
    binary64.round (sum + term record (secondsIn record start stop)) else sum

def accumulated (term : AcctObject → Int → ℚ) (records : List AcctObject) (start stop : Int) : ℚ :=
  records.foldl (addTerm term start stop) 0

structure Timely (time_start time_stop period : Int) (k : Nat) : Prop where
  back : fits64 (k * period)
  stop : fits64 (time_stop - k * period)
  span : time_stop - k * period - time_start < 2 ^ 63

structure Storable (records : List AcctObject) (start stop : Int) : Prop where
  products : ∀ record ∈ records, |cpuSeconds record (secondsIn record start stop)| ≤ maxFloat
  memories : ∀ record ∈ records, fits64 (record.memory * secondsIn record start stop)
  cpu : fits64 (truncate (accumulated cpuSeconds records start stop))
  memory : fits64 (truncate (accumulated memorySeconds records start stop))

variable {time_start time_stop period : Int} {n k : Nat} {cpu mem values : Nat → ℚ}

theorem add_known (value : ℚ) (less : k < n) (bound : n ≤ 4) :
    add (known n values) k value =
      .ok (known n (Function.update values k (binary64.round (values k + value)))) := by
  simp [add, load_known less bound, store_known _ less bound, bind, Except.bind]

theorem addPeriod_known {record : AcctObject} (less : k < n) (bound : n ≤ 4)
    (timely : Timely time_start time_stop period k)
    (product : |cpuSeconds record (secondsIn record time_start (time_stop - k * period))| ≤
      maxFloat)
    (memory : fits64 (record.memory * secondsIn record time_start (time_stop - k * period))) :
    addPeriod record time_start time_stop period (known n cpu, known n mem) k = .ok
      (known n (Function.update cpu k
        (addTerm cpuSeconds time_start (time_stop - k * period) (cpu k) record)),
       known n (Function.update mem k
         (addTerm memorySeconds time_start (time_stop - k * period) (mem k) record))) := by
  have seconds := stopEntry_sub_startEntry record time_start (time_stop - k * period)
  have back : checkInt64 (k * period) = .ok (k * period) := checkInt64_eq_ok.mpr ⟨timely.back, rfl⟩
  have stop : checkInt64 (time_stop - k * period) = .ok (time_stop - k * period) :=
    checkInt64_eq_ok.mpr ⟨timely.stop, rfl⟩
  simp only [addPeriod, back, stop, bind, Except.bind]
  split_ifs with inside
  · rw [max_eq_right (by omega)] at seconds
    have fits : fits64 (secondsIn record time_start (time_stop - k * period)) := by
      have bounded : secondsIn record time_start (time_stop - k * period) ≤
          max 0 (time_stop - k * period - time_start) := by
        simp only [secondsIn]
        split_ifs <;> omega
      have span := timely.span
      exact ⟨by omega, by omega⟩
    have positive : 0 < secondsIn record time_start (time_stop - k * period) := by omega
    have lasted : checkInt64 (secondsIn record time_start (time_stop - k * period)) = .ok _ :=
      checkInt64_eq_ok.mpr ⟨fits, rfl⟩
    have held : checkInt64 (record.memory * secondsIn record time_start (time_stop - k * period)) =
        .ok _ :=
      checkInt64_eq_ok.mpr ⟨memory, rfl⟩
    rw [← seconds]
    simp only [lasted, held, checkFloat, if_pos product, add_known _ less bound, addTerm,
      if_pos positive]
    rfl
  · rw [max_eq_left (by omega)] at seconds
    simp [addTerm, seconds, pure, Except.pure]

theorem addRecord_known {record : AcctObject} (bound : n ≤ 4)
    (timely : ∀ k < n, Timely time_start time_stop period k)
    (products : ∀ k < n, |cpuSeconds record
      (secondsIn record time_start (time_stop - (k : Nat) * period))| ≤ maxFloat)
    (memories : ∀ k < n, fits64 (record.memory * secondsIn record time_start
      (time_stop - (k : Nat) * period))) :
    addRecord n time_start time_stop period (known n cpu, known n mem) record = .ok
      (known n fun k => addTerm cpuSeconds time_start (time_stop - k * period) (cpu k) record,
       known n fun k => addTerm memorySeconds time_start (time_stop - k * period) (mem k) record) :=
  foldlM_known (addPeriod record time_start time_stop period)
    (fun k sum => addTerm cpuSeconds time_start (time_stop - k * period) sum record)
    (fun k sum => addTerm memorySeconds time_start (time_stop - k * period) sum record) cpu mem
    fun k less _ _ => addPeriod_known less bound (timely k less) (products k less) (memories k less)

theorem addRecords_known {records : List AcctObject} (bound : n ≤ 4)
    (timely : ∀ k < n, Timely time_start time_stop period k)
    (products : ∀ record ∈ records, ∀ k < n,
      |cpuSeconds record (secondsIn record time_start (time_stop - (k : Nat) * period))| ≤ maxFloat)
    (memories : ∀ record ∈ records, ∀ k < n,
      fits64 (record.memory * secondsIn record time_start (time_stop - (k : Nat) * period))) :
    records.foldlM (addRecord n time_start time_stop period) (known n cpu, known n mem) = .ok
      (known n fun k => records.foldl (addTerm cpuSeconds time_start (time_stop - k * period))
        (cpu k),
       known n fun k => records.foldl (addTerm memorySeconds time_start (time_stop - k * period))
       (mem k)) := by
  induction records generalizing cpu mem with
  | nil => rfl
  | cons record rest ih =>
      obtain ⟨product, products⟩ := List.forall_mem_cons.mp products
      obtain ⟨memory, memories⟩ := List.forall_mem_cons.mp memories
      rw [List.foldlM_cons, addRecord_known bound timely product memory]
      exact ih products memories

end Sums

section Entries

def storedEntry (term : AcctObject → Int → ℚ) (records : List AcctObject)
    (time_start time_stop period : Int) (k : Nat) : Usage :=
  ⟨truncate (accumulated term records time_start (time_stop - k * period)), time_start, time_stop⟩

def withStored (objects : AcctObjects) (time_start time_stop period : Int) (n : Nat) (user : User) :
    User :=
  let records := get objects user.userID.toNat
  { user with
    cpu_usage := usageMap n (storedEntry cpuSeconds records time_start time_stop period)
    memory_usage := usageMap n (storedEntry memorySeconds records time_start time_stop period) }

variable {time_start time_stop period : Int} {n : Nat}

theorem evalUser_eq (objects : AcctObjects) (user : User) (bound : n ≤ 4)
    (timely : ∀ k < n, Timely time_start time_stop period k)
    (storable : ∀ k < n, Storable (get objects user.userID.toNat) time_start
      (time_stop - (k : Nat) * period)) :
    evalUser objects time_start time_stop period n user =
      .ok (withStored objects time_start time_stop period n user) := by
  have summed := @addRecords_known time_start time_stop period n (fun _ => 0) (fun _ => 0)
    (get objects user.userID.toNat) bound timely (fun record member k less =>
      (storable k less).products record member)
    fun record member k less => (storable k less).memories record member
  simp only [evalUser, initSums_known bound, summed, bind, Except.bind]
  have rounds := foldlM_range_ok
    (setEntry time_start time_stop
      (known n fun k => accumulated cpuSeconds (get objects user.userID.toNat) time_start
        (time_stop - k * period),
       known n fun k => accumulated memorySeconds (get objects user.userID.toNat) time_start
         (time_stop - k * period)))
    (fun m => withStored objects time_start time_stop period m user) n ?_
  · exact rounds
  · intro m less
    have cpu := checkInt64_eq_ok.mpr ⟨(storable m less).cpu, rfl⟩
    have memory := checkInt64_eq_ok.mpr ⟨(storable m less).memory, rfl⟩
    simp only [setEntry, load_known less bound, cpu, memory, withStored, usageMap_succ, bind,
      Except.bind, pure, Except.pure]
    rfl

theorem evalUsage_stored (objects : AcctObjects) (user_list : List User) (num_periods : Int)
    (few : num_periods ≤ 3)
    (timely : ∀ k < (num_periods + 1).toNat, Timely time_start time_stop period k)
    (storable : ∀ user ∈ user_list, ∀ k < (num_periods + 1).toNat,
      Storable (get objects user.userID.toNat) time_start (time_stop - (k : Nat) * period)) :
    evalUsage objects user_list time_start time_stop period num_periods =
      .ok (user_list.map (withStored objects time_start time_stop period
        (num_periods + 1).toNat)) := by
  rw [evalUsage, mapAll_eq_ok, List.forall₂_map_right_iff, List.forall₂_same]
  intro user member
  exact evalUser_eq objects user (by omega) timely (storable user member)

theorem evalUsage_of_exact (objects : AcctObjects) (user_list : List User) (num_periods : Int)
    (few : num_periods ≤ 3)
    (timely : ∀ k < (num_periods + 1).toNat, Timely time_start time_stop period k)
    (storable : ∀ user ∈ user_list, ∀ k < (num_periods + 1).toNat,
      Storable (get objects user.userID.toNat) time_start (time_stop - (k : Nat) * period))
    (exact : ∀ user ∈ user_list, ∀ k < (num_periods + 1).toNat,
      let records := get objects user.userID.toNat
      accumulated cpuSeconds records time_start (time_stop - (k : Nat) * period) =
          consumed AcctObject.cpu records time_start (time_stop - (k : Nat) * period) ∧
        accumulated memorySeconds records time_start (time_stop - (k : Nat) * period) =
          consumed (fun record => record.memory) records time_start
            (time_stop - (k : Nat) * period)) :
    evalUsage objects user_list time_start time_stop period num_periods =
      AcctPool.evalUsage objects user_list time_start time_stop period num_periods := by
  rw [evalUsage_stored objects user_list num_periods few timely storable,
    evalUsage_eq objects user_list _ _ _ _ few]
  refine congrArg Except.ok (List.map_congr_left fun user member => ?_)
  have same (f g : Nat → Usage) (agree : ∀ k < (num_periods + 1).toNat, f k = g k) :
      usageMap (num_periods + 1).toNat f = usageMap (num_periods + 1).toNat g := by
    rw [usageMap, usageMap]
    congr 1
    exact List.map_congr_left fun k inside => by rw [agree k (List.mem_range.mp inside)]
  rw [withStored, withUsage]
  congr 1
  · apply same
    intro k less
    rw [storedEntry, usageEntry, (exact user member k less).1]
  · apply same
    intro k less
    rw [storedEntry, usageEntry, (exact user member k less).2]

end Entries

section Terms

variable {record : AcctObject}

theorem round_seconds {seconds : Int} (nonneg : 0 ≤ seconds) :
    ∃ m : Nat, binary32.round seconds = m := by
  obtain ⟨n, rfl⟩ := Int.eq_ofNat_of_zero_le nonneg
  exact_mod_cast binary32.round_natCast n

theorem units_seconds {seconds : Int} (nonneg : 0 ≤ seconds) : binary32.Units (seconds : ℚ) := by
  obtain ⟨n, rfl⟩ := Int.eq_ofNat_of_zero_le nonneg
  exact_mod_cast binary32.units_natCast n

theorem units_product (counted : binary32.Holds record.cpu) {seconds : Int} (nonneg : 0 ≤ seconds) :
    binary32.Units (record.cpu * binary32.round seconds) := by
  obtain ⟨m, rounded⟩ := round_seconds nonneg
  rw [rounded]
  exact counted.1.mul_nat m

theorem cpuSeconds_units (counted : binary32.Holds record.cpu) {seconds : Int}
    (nonneg : 0 ≤ seconds) :
    binary64.Units (cpuSeconds record seconds) :=
  (units_product counted nonneg).round.widen (by decide)

theorem cpuSeconds_mono (counted : binary32.Holds record.cpu) {fewer more : Int}
    (nonneg : 0 ≤ fewer) (le : fewer ≤ more) :
    cpuSeconds record fewer ≤ cpuSeconds record more := by
  have seconds : binary32.round fewer ≤ binary32.round more :=
    Format.round_mono (by decide) (units_seconds nonneg) (units_seconds (nonneg.trans le))
      (by exact_mod_cast le)
  exact Format.round_mono (by decide) (units_product counted nonneg)
    (units_product counted (nonneg.trans le))
    (mul_le_mul_of_nonneg_left seconds counted.1.nonneg)

theorem cpuSeconds_zero (record : AcctObject) : cpuSeconds record 0 = 0 := by
  have zero := binary32.holds_zero.2
  rw [cpuSeconds, Int.cast_zero, zero, mul_zero, zero]

theorem cpuSeconds_idle (idle : record.cpu = 0) (seconds : Int) :
    cpuSeconds record seconds = 0 := by
  rw [cpuSeconds, idle, zero_mul, binary32.holds_zero.2]

-- the seconds are rounded, and then the product
theorem cpuSeconds_close (counted : binary32.Holds record.cpu) {seconds : Int}
    (nonneg : 0 ≤ seconds) :
    Within ((1 - binary32.error) ^ 2) ((1 + binary32.error) ^ 2) (record.cpu * seconds)
    (cpuSeconds record seconds) := by
  have rounded := (Within.refl (seconds : ℚ)).round (units_seconds nonneg)
  have product := (rounded.scale counted.1.nonneg).round (units_product counted nonneg)
  simpa only [cpuSeconds, mul_one, ← pow_two] using product

end Terms

section Accumulated

variable {records : List AcctObject} {record : AcctObject} {sum other : ℚ} {start stop later : Int}

-- a term of 0 leaves a sum that `double` holds
theorem addTerm_eq (held : binary64.Holds sum) :
    addTerm cpuSeconds start stop sum record =
      binary64.round (sum + cpuSeconds record (secondsIn record start stop)) := by
  rw [addTerm]
  split_ifs with inside
  · rfl
  · have nonneg := secondsIn_nonneg record start stop
    have none : secondsIn record start stop = 0 := by omega
    rw [none, cpuSeconds_zero record, add_zero, held.2]

theorem units_added (counted : binary32.Holds record.cpu) (held : binary64.Holds sum) :
    binary64.Units (sum + cpuSeconds record (secondsIn record start stop)) :=
  held.1.add (cpuSeconds_units counted (secondsIn_nonneg _ _ _))

theorem addTerm_holds (counted : binary32.Holds record.cpu) (held : binary64.Holds sum) :
    binary64.Holds (addTerm cpuSeconds start stop sum record) := by
  rw [addTerm_eq held]
  exact (units_added counted held).holds (by decide)

theorem secondsIn_mono (record : AcctObject) (le : stop ≤ later) :
    secondsIn record start stop ≤ secondsIn record start later := by
  simp only [secondsIn]
  split_ifs <;> omega

theorem addTerm_mono (counted : binary32.Holds record.cpu) (held : binary64.Holds sum)
    (more : binary64.Holds other) (le : sum ≤ other) (earlier : stop ≤ later) :
    addTerm cpuSeconds start stop sum record ≤ addTerm cpuSeconds start later other record := by
  rw [addTerm_eq held, addTerm_eq more]
  refine Format.round_mono (by decide) (units_added counted held) (units_added counted more) ?_
  exact add_le_add le (cpuSeconds_mono counted (secondsIn_nonneg _ _ _)
    (secondsIn_mono record earlier))

theorem foldl_addTerm_mono (counted : ∀ record ∈ records, binary32.Holds record.cpu)
    (held : binary64.Holds sum) (more : binary64.Holds other) (le : sum ≤ other)
    (earlier : stop ≤ later) :
    records.foldl (addTerm cpuSeconds start stop) sum ≤
      records.foldl (addTerm cpuSeconds start later) other := by
  induction records generalizing sum other with
  | nil => exact le
  | cons record rest ih =>
      obtain ⟨first, others⟩ := List.forall_mem_cons.mp counted
      exact ih others (addTerm_holds first held) (addTerm_holds first more)
        (addTerm_mono first held more le earlier)

theorem accumulated_mono (counted : ∀ record ∈ records, binary32.Holds record.cpu)
    (earlier : stop ≤ later) :
    accumulated cpuSeconds records start stop ≤ accumulated cpuSeconds records start later :=
  foldl_addTerm_mono counted binary64.holds_zero binary64.holds_zero le_rfl earlier

theorem foldl_addTerm_nonneg (counted : ∀ record ∈ records, binary32.Holds record.cpu)
    (held : binary64.Holds sum) :
    0 ≤ records.foldl (addTerm cpuSeconds start stop) sum := by
  induction records generalizing sum with
  | nil => exact held.1.nonneg
  | cons record rest ih =>
      obtain ⟨first, others⟩ := List.forall_mem_cons.mp counted
      exact ih others (addTerm_holds first held)

theorem accumulated_nonneg (counted : ∀ record ∈ records, binary32.Holds record.cpu) :
    0 ≤ accumulated cpuSeconds records start stop :=
  foldl_addTerm_nonneg counted binary64.holds_zero

theorem foldl_addTerm_congr (counted : ∀ record ∈ records, binary32.Holds record.cpu)
    (held : binary64.Holds sum)
    (same : ∀ record ∈ records, record.cpu = 0 ∨
      secondsIn record start stop = secondsIn record start later) :
    records.foldl (addTerm cpuSeconds start stop) sum =
      records.foldl (addTerm cpuSeconds start later) sum := by
  induction records generalizing sum with
  | nil => rw [List.foldl_nil, List.foldl_nil]
  | cons record rest ih =>
      obtain ⟨first, others⟩ := List.forall_mem_cons.mp counted
      obtain ⟨here, there⟩ := List.forall_mem_cons.mp same
      have added : addTerm cpuSeconds start stop sum record =
          addTerm cpuSeconds start later sum record := by
        rw [addTerm_eq held, addTerm_eq held]
        rcases here with idle | seconds
        · rw [cpuSeconds_idle idle, cpuSeconds_idle idle]
        · rw [seconds]
      rw [List.foldl_cons, List.foldl_cons, added]
      exact ih others (addTerm_holds first held) there

def lowest (n : Nat) : ℚ := (1 - binary64.error) ^ n * (1 - binary32.error) ^ 2

def highest (n : Nat) : ℚ := (1 + binary64.error) ^ n * (1 + binary32.error) ^ 2

theorem lowest_succ (n : Nat) : lowest (n + 1) = (1 - binary64.error) * lowest n := by
  rw [lowest, lowest, pow_succ']
  ring

theorem highest_succ (n : Nat) : highest (n + 1) = (1 + binary64.error) * highest n := by
  rw [highest, highest, pow_succ']
  ring

theorem addTerm_close {n : Nat} {exact : ℚ} (counted : binary32.Holds record.cpu)
    (held : binary64.Holds sum) (within : Within (lowest n) (highest n) exact sum) :
    Within (lowest (n + 1)) (highest (n + 1)) (exact + record.cpu * secondsIn record start stop)
      (addTerm cpuSeconds start stop sum record) := by
  have seconds := secondsIn_nonneg record start stop
  have least : (1 - binary64.error) ^ n ≤ 1 :=
    pow_le_one₀ (sub_nonneg.mpr binary64.error_le_one) (sub_le_self _ binary64.error_nonneg)
  have most : 1 ≤ (1 + binary64.error) ^ n :=
    one_le_pow₀ (le_add_of_nonneg_right binary64.error_nonneg)
  have term : Within (lowest n) (highest n) (record.cpu * secondsIn record start stop)
      (cpuSeconds record (secondsIn record start stop)) := by
    refine (cpuSeconds_close counted seconds).weaken ?_ ?_ ?_
    · exact mul_nonneg counted.1.nonneg (by exact_mod_cast seconds)
    · exact mul_le_of_le_one_left (sq_nonneg _) least
    · exact le_mul_of_one_le_left (sq_nonneg _) most
  rw [addTerm_eq held, lowest_succ, highest_succ]
  exact (within.add term).round (units_added counted held)

theorem foldl_addTerm_close {n : Nat} {exact : ℚ}
    (counted : ∀ record ∈ records, binary32.Holds record.cpu) (held : binary64.Holds sum)
    (within : Within (lowest n) (highest n) exact sum) :
    Within (lowest (n + records.length)) (highest (n + records.length))
      (exact + consumed AcctObject.cpu records start stop)
      (records.foldl (addTerm cpuSeconds start stop) sum) := by
  induction records generalizing sum exact n with
  | nil => simpa [consumed] using within
  | cons record rest ih =>
      obtain ⟨first, others⟩ := List.forall_mem_cons.mp counted
      have later := ih others (@addTerm_holds record sum start stop first held)
        (addTerm_close first held within)
      simpa [consumed, add_assoc, Nat.add_comm 1] using later

theorem accumulated_close (counted : ∀ record ∈ records, binary32.Holds record.cpu)
    (start stop : Int) :
    Within (lowest records.length) (highest records.length)
    (consumed AcctObject.cpu records start stop)
      (accumulated cpuSeconds records start stop) := by
  have nothing : Within (lowest 0) (highest 0) 0 0 := by simp [Within]
  have summed := @foldl_addTerm_close records 0 start stop 0 0 counted binary64.holds_zero nothing
  simpa only [accumulated, Nat.zero_add, zero_add] using summed

end Accumulated

end OneFass.Xml.FloatUsage
