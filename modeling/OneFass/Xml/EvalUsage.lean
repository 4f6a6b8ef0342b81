import Mathlib.Tactic.Ring
import OneFass.Xml.AcctPool

set_option autoImplicit false

namespace OneFass.Xml.AcctPool

open Runtime OrderedMap Pm

-- a stop time of 0 has not come yet
def secondsIn (record : AcctObject) (start stop : Int) : Int :=
  max 0 ((if record.stop_time = 0 then stop else min record.stop_time stop) -
    max record.start_time start)

def consumed (weight : AcctObject → ℚ) (records : List AcctObject) (start stop : Int) : ℚ :=
  (records.map fun record => weight record * secondsIn record start stop).sum

theorem secondsIn_nonneg (record : AcctObject) (start stop : Int) :
    0 ≤ secondsIn record start stop :=
  le_max_left _ _

theorem consumed_nonneg {weight : AcctObject → ℚ} {records : List AcctObject} (start stop : Int)
    (nonneg : ∀ record ∈ records, 0 ≤ weight record) : 0 ≤ consumed weight records start stop := by
  apply List.sum_nonneg
  intro term member
  obtain ⟨record, inside, rfl⟩ := List.mem_map.mp member
  exact mul_nonneg (nonneg record inside) (Int.cast_nonneg (secondsIn_nonneg record start stop))

theorem secondsIn_split (record : AcctObject) {first middle last : Int} (left : first ≤ middle)
    (right : middle ≤ last) :
    secondsIn record first last = secondsIn record first middle + secondsIn record middle last := by
  simp only [secondsIn]
  split_ifs <;> omega

theorem consumed_split (weight : AcctObject → ℚ) (records : List AcctObject)
    {first middle last : Int} (left : first ≤ middle) (right : middle ≤ last) :
    consumed weight records first last =
      consumed weight records first middle + consumed weight records middle last := by
  induction records with
  | nil => simp [consumed]
  | cons record rest ih =>
      simp only [consumed, List.map_cons, List.sum_cons] at ih ⊢
      rw [ih, secondsIn_split record left right]
      push_cast
      ring

theorem stopEntry_sub_startEntry (record : AcctObject) (start stop : Int) :
    secondsIn record start stop = max 0 (stopEntry record stop - startEntry record start) := by
  simp only [secondsIn, stopEntry, startEntry]
  split_ifs <;> omega

section Sums

def known (n : Nat) (values : Nat → ℚ) : Sums :=
  fun i => if i.val < n then some (values i) else none

variable {n k : Nat} {values : Nat → ℚ}

theorem load_known (less : k < n) (bound : n ≤ 4) : load (known n values) k = .ok (values k) := by
  simp [load, known, less, less.trans_le bound]

theorem store_known (value : ℚ) (less : k < n) (bound : n ≤ 4) :
    store (known n values) k value = .ok (known n (Function.update values k value)) := by
  simp only [store, less.trans_le bound, ↓reduceDIte, Except.ok.injEq]
  ext1 i
  by_cases same : i.val = k
  · subst same
    simp [known, less]
  · have apart : i ≠ ⟨k, less.trans_le bound⟩ := fun equal => same (congrArg Fin.val equal)
    simp [known, Function.update_of_ne apart, Function.update_of_ne same]

theorem add_known (value : ℚ) (less : k < n) (bound : n ≤ 4) :
    add (known n values) k value = .ok (known n (Function.update values k (values k + value))) := by
  simp [add, load_known less bound, store_known _ less bound, bind, Except.bind]

theorem initSums_known (bound : n ≤ 4) : initSums n = .ok (known n fun _ => 0) := by
  have start : (fun _ => none : Sums) = known 0 fun _ => 0 := by
    ext1 i
    simp [known]
  rw [initSums, start]
  refine foldlM_range_ok _ (fun m => known m fun _ => 0) n ?_
  intro m less
  simp only [store, less.trans_le bound, ↓reduceDIte, Except.ok.injEq]
  ext1 i
  by_cases same : i.val = m
  · subst same
    simp [known]
  · have apart : i ≠ ⟨m, less.trans_le bound⟩ := fun equal => same (congrArg Fin.val equal)
    have next : i.val < m + 1 ↔ i.val < m := by omega
    simp [known, Function.update_of_ne apart, next]

theorem foldlM_known (body : Sums × Sums → Nat → Except Fault (Sums × Sums)) (f g : Nat → ℚ → ℚ)
    (cpu mem : Nat → ℚ)
    (round : ∀ k < n, ∀ cpu mem, body (known n cpu, known n mem) k =
      .ok (known n (Function.update cpu k (f k (cpu k))), known n
        (Function.update mem k (g k (mem k))))) :
    (List.range n).foldlM body (known n cpu, known n mem) =
      .ok (known n fun k => f k (cpu k), known n fun k => g k (mem k)) := by
  have extend (m : Nat) (values changed : Nat → ℚ) :
      Function.update (fun k => if k < m then changed k else values k) m (changed m) =
        fun k => if k < m + 1 then changed k else values k := by
    ext1 k
    by_cases same : k = m
    · simp [same]
    · have next : k < m + 1 ↔ k < m := by omega
      simp [Function.update_of_ne same, next]
  have whole (values changed : Nat → ℚ) :
      (known n fun k => if k < n then changed k else values k) = known n changed := by
    ext1 i
    by_cases inside : i.val < n <;> simp [known, inside]
  have rounds := foldlM_range_ok body
    (fun m => (known n fun k => if k < m then f k (cpu k) else cpu k, known n fun k => if k < m then
      g k (mem k) else mem k)) n ?_
  · simpa [whole] using rounds
  · intro m less
    have changed := round m less (fun k => if k < m then f k (cpu k) else cpu k)
      fun k => if k < m then g k (mem k) else mem k
    rw [changed]
    simp only [lt_irrefl, ↓reduceIte]
    rw [← extend m cpu fun k => f k (cpu k), ← extend m mem fun k => g k (mem k)]

end Sums

section Records

variable (time_start time_stop period : Int) {n : Nat} {cpu mem : Nat → ℚ}

theorem addPeriod_known (record : AcctObject) {k : Nat} (less : k < n) (bound : n ≤ 4) :
    addPeriod record time_start time_stop period (known n cpu, known n mem) k = .ok
      (known n (Function.update cpu k
        (cpu k + record.cpu * secondsIn record time_start (time_stop - k * period))),
       known n (Function.update mem k
        (mem k + record.memory * secondsIn record time_start (time_stop - k * period)))) := by
  have seconds := stopEntry_sub_startEntry record time_start (time_stop - k * period)
  simp only [addPeriod]
  split_ifs with inside
  · rw [max_eq_right (by omega)] at seconds
    simp [add_known _ less bound, seconds, bind, Except.bind, pure, Except.pure]
  · rw [max_eq_left (by omega)] at seconds
    simp [seconds, pure, Except.pure]

theorem addRecord_known (record : AcctObject) (bound : n ≤ 4) :
    addRecord n time_start time_stop period (known n cpu, known n mem) record = .ok
      (known n fun k => cpu k + record.cpu * secondsIn record time_start (time_stop - k * period),
       known n fun k => mem k + record.memory * secondsIn record time_start
       (time_stop - k * period)) :=
  foldlM_known (addPeriod record time_start time_stop period)
    (fun k sum => sum + record.cpu * secondsIn record time_start (time_stop - k * period))
    (fun k sum => sum + record.memory * secondsIn record time_start
      (time_stop - k * period)) cpu mem
    fun _ less _ _ => addPeriod_known time_start time_stop period record less bound

theorem addRecords_known (records : List AcctObject) (bound : n ≤ 4) :
    records.foldlM (addRecord n time_start time_stop period) (known n cpu, known n mem) = .ok
      (known n fun k => cpu k + consumed AcctObject.cpu records time_start (time_stop - k * period),
       known n fun k => mem k +
        consumed (fun record => record.memory) records time_start (time_stop - k * period)) := by
  induction records generalizing cpu mem with
  | nil => simp [consumed, pure, Except.pure]
  | cons record rest ih =>
      rw [List.foldlM_cons, addRecord_known time_start time_stop period record bound]
      simp only [bind, Except.bind, ih, consumed, List.map_cons, List.sum_cons, add_assoc]

end Records

section Entries

def usageMap (n : Nat) (usage : Nat → Usage) : Map intOrder Usage :=
  Map.empty.insertAll ((List.range n).map fun (k : Nat) => ((k : Int), usage k))

theorem usageMap_succ (n : Nat) (usage : Nat → Usage) :
    usageMap (n + 1) usage = (usageMap n usage).insert n (usage n) := by
  simp [usageMap, List.range_succ, Map.insertAll_append]

theorem entries_usageMap (n : Nat) (usage : Nat → Usage) :
    (usageMap n usage).entries = (List.range n).map fun (k : Nat) => ((k : Int), usage k) := by
  have sorted : ((List.range n).map fun (k : Nat) => ((k : Int), usage k)).Pairwise
      fun a b => intOrder.lt a.1 b.1 = true := by
    rw [List.pairwise_map]
    simpa [intOrder] using List.pairwise_lt_range
  rw [usageMap, Map.entries_insertAll _ _ (by simpa using sorted)]
  simp

theorem find_usageMap {n k : Nat} (usage : Nat → Usage) (less : k < n) :
    (usageMap n usage).find k = some (usage k) := by
  rw [Map.find_eq_some_iff intOrder_total, entries_usageMap, List.mem_map]
  exact ⟨k, List.mem_range.mpr less, rfl⟩

end Entries

def usageEntry (weight : AcctObject → ℚ) (records : List AcctObject)
    (time_start time_stop period : Int) (k : Nat) : Usage :=
  ⟨truncate (consumed weight records time_start (time_stop - k * period)), time_start, time_stop⟩

def withUsage (objects : AcctObjects) (time_start time_stop period : Int) (n : Nat) (user : User) :
    User :=
  let records := get objects user.userID.toNat
  { user with
    cpu_usage := usageMap n (usageEntry AcctObject.cpu records time_start time_stop period)
    memory_usage := usageMap n
      (usageEntry (fun record => record.memory) records time_start time_stop period) }

theorem evalUser_eq (objects : AcctObjects) (time_start time_stop period : Int) (n : Nat)
    (user : User) (bound : n ≤ 4) :
    evalUser objects time_start time_stop period n user =
      .ok (withUsage objects time_start time_stop period n user) := by
  have summed := @addRecords_known time_start time_stop period n (fun _ => 0) (fun _ => 0)
    (get objects user.userID.toNat) bound
  simp only [evalUser, initSums_known bound, summed, bind, Except.bind, zero_add]
  have rounds := foldlM_range_ok
    (setEntry time_start time_stop
      (known n fun k => consumed AcctObject.cpu (get objects user.userID.toNat) time_start
        (time_stop - k * period),
       known n fun k => consumed (fun record => record.memory)
         (get objects user.userID.toNat) time_start
        (time_stop - k * period)))
    (fun m => withUsage objects time_start time_stop period m user) n ?_
  · exact rounds
  · intro m less
    simp only [setEntry, load_known less bound, withUsage, usageMap_succ, bind, Except.bind, pure,
      Except.pure]
    rfl

theorem evalUsage_eq (objects : AcctObjects) (user_list : List User)
    (time_start time_stop period : Int) (num_periods : Int) (bound : num_periods ≤ 3) :
    evalUsage objects user_list time_start time_stop period num_periods =
      .ok (user_list.map
        (withUsage objects time_start time_stop period (num_periods + 1).toNat)) := by
  rw [evalUsage, mapAll_eq_ok, List.forall₂_map_right_iff, List.forall₂_same]
  intro user _
  exact evalUser_eq objects time_start time_stop period _ user (by omega)

end OneFass.Xml.AcctPool
