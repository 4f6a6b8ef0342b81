import OneFass.Database.InfluxDb
import OneFass.Pm.Periods
import OneFass.Shared.FloatText
import OneFass.Shared.LineProtocol

set_option autoImplicit false

namespace OneFass.Database

open Runtime OrderedMap Pm Xml AcctPool LineProtocol

structure UsageLine where
  measurement : Text
  user : Int
  usage : List (Int × Int)
  time : Int
  deriving DecidableEq

def readEntry (field : Pair) : Option (Int × Int) :=
  if field.1.take 5 = "value".toList then do
    let period ← integerText (field.1.drop 5)
    let usage ← integerText field.2
    return (period, usage)
  else none

def readUsage (line : Text) : Option UsageLine := do
  let point ← readPoint line
  if point.tag.1 = "user".toList then
    let user ← integerText point.tag.2
    let usage ← point.fields.mapM readEntry
    let time ← integerText point.time
    return ⟨point.measurement, user, usage, time⟩
  else none

section Entries

def entryField (entry : Int × Usage) : Pair :=
  ("value".toList ++ intText entry.1, intText entry.2.usage)

theorem entryField_eq (entry : Int × Usage) :
    entryField entry = ("value".toList ++ intText entry.1, intText entry.2.usage) := rfl

theorem intText_token (value : Int) : Token (intText value) := by
  refine ⟨intText_ne_nil value, ?_⟩
  intro c separator
  simp only [separators, List.mem_cons, List.not_mem_nil, or_false] at separator
  rcases separator with rfl | rfl | rfl | rfl <;> exact not_mem_intText (by decide) (by decide)

theorem floatText_token (value : ℚ) : Token (floatText value) := by
  refine ⟨floatText_ne_nil value, ?_⟩
  intro c separator
  simp only [separators, List.mem_cons, List.not_mem_nil, or_false] at separator
  rcases separator with rfl | rfl | rfl | rfl <;> exact not_mem_floatText (by decide)

theorem entryField_token (entry : Int × Usage) : TokenPair (entryField entry) := by
  refine ⟨⟨by simp [entryField_eq], ?_⟩, intText_token _⟩
  intro c separator
  have number := (intText_token entry.1).2 c separator
  have word : c ∉ "value".toList := by
    simp only [separators, List.mem_cons, List.not_mem_nil, or_false] at separator
    rcases separator with rfl | rfl | rfl | rfl <;> decide
  exact fun member => (List.mem_append.mp member).elim word number

theorem readEntry_entryField (entry : Int × Usage) :
    readEntry (entryField entry) = some (entry.1, entry.2.usage) := by
  have key : (entryField entry).1.take 5 = "value".toList := rfl
  have number : (entryField entry).1.drop 5 = intText entry.1 := rfl
  have value : (entryField entry).2 = intText entry.2.usage := rfl
  simp [readEntry, key, number, value, integerText_intText]

theorem mapM_readEntry (entries : List (Int × Usage)) :
    entries.mapM (readEntry ∘ entryField) =
      some (entries.map fun entry => (entry.1, entry.2.usage)) := by
  induction entries with
  | nil => rfl
  | cons entry rest ih => simp [List.mapM_cons, readEntry_entryField, ih]

theorem foldl_nonzero {query : Text} {entries : List (Int × Usage)}
    (nonzero : ∀ entry ∈ entries, entry.1 ≠ 0) :
    entries.foldl appendEntry query = query ++ entries.flatMap fun entry =>
    ',' :: pairText (entryField entry) := by
  induction entries generalizing query with
  | nil => simp
  | cons entry rest ih =>
      rw [List.foldl_cons, ih fun other member => nonzero other (List.mem_cons_of_mem _ member)]
      simp [appendEntry, nonzero entry List.mem_cons_self, entryField_eq, pairText]

theorem intercalate_cons (first : Text) (rest : List Text) :
    [','].intercalate (first :: rest) = first ++ rest.flatMap (',' :: ·) := by
  induction rest generalizing first with
  | nil => simp [List.intercalate]
  | cons second tail ih =>
      have others := ih second
      simp only [List.intercalate, List.intersperse, List.flatten_cons,
        List.flatMap_cons] at others ⊢
      rw [others]
      simp

-- only the first key is 0, so only the first field goes without a separator
theorem foldl_appendEntry {query : Text} {first : Int × Usage} {rest : List (Int × Usage)}
    (zero : first.1 = 0) (nonzero : ∀ entry ∈ rest, entry.1 ≠ 0) :
    (first :: rest).foldl appendEntry query =
      query ++ [','].intercalate (((first :: rest).map entryField).map pairText) := by
  rw [List.foldl_cons, foldl_nonzero nonzero, List.map_cons, List.map_cons, intercalate_cons]
  simp [appendEntry, zero, entryField_eq, pairText, List.flatMap_map]

end Entries

structure Recorded (measurement : Text) (user : User) (usage : Map intOrder Usage) (time_stop : Int)
    (body : Text) :
    Prop where
  line : ∃ point : Point, point.WellFormed ∧ body = point.line
  read : readUsage body = some ⟨measurement, user.userID.toNat, usage.entries.map fun entry =>
    (entry.1, entry.2.usage), time_stop * 1000000000⟩

section Line

variable {measurement : Text} {user : User} {usage : Map intOrder Usage} {time_stop : Int}

def usagePoint (measurement : Text) (user : User) (usage : Map intOrder Usage) (time_stop : Int) :
    Point :=
  ⟨measurement, ("user".toList, decimal user.userID.toNat), usage.entries.map entryField,
    intText (time_stop * 1000000000)⟩

theorem usagePoint_wellFormed (named : Token measurement) (nonempty : usage.entries ≠ []) :
    (usagePoint measurement user usage time_stop).WellFormed := by
  have word : Token "user".toList := by decide
  have number : Token (decimal user.userID.toNat) := intText_token (user.userID.toNat : Int)
  refine ⟨named, ⟨word, number⟩, ⟨by simp [usagePoint, nonempty], ?_⟩, intText_token _⟩
  intro field member
  obtain ⟨entry, _, rfl⟩ := List.mem_map.mp member
  exact entryField_token entry

theorem readUsage_usagePoint (named : Token measurement) (nonempty : usage.entries ≠ []) :
    readUsage (usagePoint measurement user usage time_stop).line =
      some ⟨measurement, user.userID.toNat, usage.entries.map fun entry => (entry.1, entry.2.usage),
        time_stop * 1000000000⟩ := by
  rw [readUsage, readPoint_line (usagePoint_wellFormed named nonempty)]
  simp [usagePoint, integerText_decimal, integerText_intText, mapM_readEntry]

theorem recorded_of_entries {first : Int × Usage} {rest : List (Int × Usage)}
    (named : Token measurement) (entries : usage.entries = first :: rest) (zero : first.1 = 0)
    (nonzero : ∀ entry ∈ rest, entry.1 ≠ 0) :
    Recorded measurement user usage time_stop
      (usage.entries.foldl appendEntry
        (measurement ++ ",user=".toList ++ decimal user.userID.toNat ++ " ".toList) ++
        " ".toList ++ intText (time_stop * 1000000000)) := by
  have joined := @foldl_appendEntry
    (measurement ++ ",user=".toList ++ decimal user.userID.toNat ++ " ".toList) _ _
    zero nonzero
  rw [← entries] at joined
  have body : usage.entries.foldl appendEntry
    (measurement ++ ",user=".toList ++ decimal user.userID.toNat ++ " ".toList) ++
      " ".toList ++ intText (time_stop * 1000000000) =
        (usagePoint measurement user usage time_stop).line := by
    rw [joined]
    simp [usagePoint, Point.line, pairText]
  have nonempty : usage.entries ≠ [] := by simp [entries]
  rw [body]
  exact ⟨⟨_, usagePoint_wellFormed named nonempty, rfl⟩, readUsage_usagePoint named nonempty⟩

end Line

section Usage

variable {n : Nat} {usage : Nat → Usage}

theorem keys_usageMap : (usageMap n usage).keys =
    (List.range n).map fun (k : Nat) => (k : Int) := by
  simp [Map.keys, entries_usageMap]

theorem usageMap_cons : (usageMap (n + 1) usage).entries =
    (0, usage 0) :: (List.range n).map fun (k : Nat) => (((k + 1 : Nat) : Int), usage (k + 1)) := by
  rw [entries_usageMap, List.range_succ_eq_map, List.map_cons, List.map_map]
  rfl

theorem appendUsage_usageMap {query : Text} {stop : Int} (nonzero : stop ≠ 0)
    (stops : ∀ k, (usage k).stop_time = stop) :
    appendUsage query 0 (usageMap (n + 1) usage).entries =
      ((usageMap (n + 1) usage).entries.foldl appendEntry query, stop) := by
  rw [appendUsage_stamped nonzero ?_ 0 (Or.inl rfl)]
  · simp [usageMap_cons]
  · intro entry member
    rw [entries_usageMap] at member
    obtain ⟨k, _, rfl⟩ := List.mem_map.mp member
    exact stops k

theorem recorded_usageMap {measurement : Text} {user : User} {time_stop : Int}
    (named : Token measurement) :
    Recorded measurement user (usageMap (n + 1) usage) time_stop
      ((usageMap (n + 1) usage).entries.foldl appendEntry
          (measurement ++ ",user=".toList ++ decimal user.userID.toNat ++ " ".toList) ++
        " ".toList ++ intText (time_stop * 1000000000)) := by
  refine recorded_of_entries named usageMap_cons rfl ?_
  intro entry member
  obtain ⟨k, _, rfl⟩ := List.mem_map.mp member
  omega

theorem nanoseconds_ok {stop : Int} (positive : 1 ≤ stop) (early : stop ≤ 9223372036) :
    nanoseconds stop = .ok (stop * 1000000000) := by
  have inside : fits64 (stop * 1000000000) := ⟨by omega, by omega⟩
  exact checkInt64_eq_ok.mpr ⟨inside, rfl⟩

end Usage

theorem usage_read_back (objects : AcctObjects) (user_list users : List User)
    (time_start time_stop period num_periods : Int)
    (evaluated : evalUsage objects user_list time_start time_stop period num_periods = .ok users)
    (periods : 0 ≤ num_periods) (positive : 1 ≤ time_stop) (early : time_stop ≤ 9223372036) :
    ∀ user ∈ users, ∃ cpu memory, writeUsage user = .ok (cpu, memory) ∧
      Recorded "h_cpu".toList user user.cpu_usage time_stop cpu ∧
      Recorded "h_memory".toList user user.memory_usage time_stop memory ∧
      user.cpu_usage.keys = (List.range (num_periods + 1).toNat).map (fun (k : Nat) => (k : Int)) ∧
      user.memory_usage.keys = (List.range (num_periods + 1).toNat).map (fun (k : Nat) =>
        (k : Int)) ∧
      ∀ cpu_usage bodies, writeUsage { user with cpu_usage } = .ok bodies → bodies.2 = memory := by
  rw [evalUsage_ok evaluated]
  intro user member
  obtain ⟨old, _, rfl⟩ := List.mem_map.mp member
  obtain ⟨n, count⟩ : ∃ n, (num_periods + 1).toNat = n + 1 := ⟨num_periods.toNat, by omega⟩
  rw [count]
  have stamp := nanoseconds_ok positive early
  have loop (query : Text) (weight : AcctObject → ℚ) (records : List AcctObject) :=
    @appendUsage_usageMap n (usageEntry weight records time_start time_stop period) query time_stop
      (by omega)
      fun _ => rfl
  refine ⟨_, _, ?_, recorded_usageMap (by decide), recorded_usageMap (by decide), keys_usageMap,
    keys_usageMap, ?_⟩
  · simp only [writeUsage, withUsage, loop, stamp, bind, Except.bind, pure, Except.pure,
      List.nil_append]
    rfl
  · intro cpu_usage bodies written
    simp only [writeUsage, withUsage, loop, stamp, bind_eq_ok, pure, Except.pure, Except.ok.injEq,
      List.nil_append]
      at written
    obtain ⟨_, _, _, rfl, rfl⟩ := written
    rfl

section Example

def running : AcctObject := ⟨3, 1, 5, 1, 100, 1 / 2, 20, 0⟩

def oneRecord : AcctObjects := Map.empty.insert 1 [running]

theorem usage_read_back_running : ∃ user cpu memory,
    evalUsage oneRecord [sample 1 0] 20 80 20 3 = .ok [user] ∧ writeUsage user = .ok (cpu, memory) ∧
      readUsage cpu = some ⟨"h_cpu".toList, 1, [(0, 30), (1, 20), (2, 10), (3, 0)], 80000000000⟩ ∧
      readUsage memory = some ⟨"h_memory".toList, 1, [(0, 6000), (1, 4000), (2, 2000), (3, 0)],
        80000000000⟩ := by
  have evaluated := evalUsage_eq oneRecord [sample 1 0] 20 80 20 3 (le_refl 3)
  obtain ⟨cpu, memory, written, cpuLine, memoryLine, _⟩ :=
    usage_read_back oneRecord [sample 1 0] _ 20 80 20 3 evaluated (by decide) (by decide)
      (by decide) _
      List.mem_cons_self
  refine ⟨_, cpu, memory, evaluated, written, ?_, ?_⟩
  · rw [cpuLine.read]
    decide +kernel
  · rw [memoryLine.read]
    decide +kernel

end Example

end OneFass.Database
