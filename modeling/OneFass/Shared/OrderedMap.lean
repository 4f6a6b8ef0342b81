import Mathlib.Data.List.Basic
import Mathlib.Data.List.Pairwise
import Mathlib.Data.List.Perm.Basic
import Mathlib.Data.List.Perm.Subperm

set_option autoImplicit false

namespace OrderedMap

structure KeyOrder (K : Type) where
  lt : K → K → Bool
  irrefl : ∀ key, lt key key = false
  trans : ∀ a b c, lt a b = true → lt b c = true → lt a c = true

def KeyOrder.Total {K : Type} (order : KeyOrder K) : Prop :=
  ∀ a b, order.lt a b = false → order.lt b a = false → a = b

def KeyOrder.Apart {K : Type} (order : KeyOrder K) (a b : K) : Prop :=
  order.lt a b = true ∨ order.lt b a = true

variable {K V : Type} {order : KeyOrder K}

theorem KeyOrder.Apart.symm {a b : K} (apart : order.Apart a b) : order.Apart b a :=
  Or.symm apart

theorem KeyOrder.asymm (a b : K) (before : order.lt a b = true) : order.lt b a = false := by
  cases after : order.lt b a with
  | false => rfl
  | true => simpa [order.irrefl] using order.trans a b a before after

theorem KeyOrder.Total.apart (total : order.Total) {a b : K} (different : a ≠ b) :
    order.Apart a b := by
  by_contra same
  simp only [KeyOrder.Apart, not_or, Bool.not_eq_true] at same
  exact different (total a b same.1 same.2)

def insertEntry (order : KeyOrder K) (key : K) (value : V) : List (K × V) → List (K × V)
  | [] => [(key, value)]
  | entry :: rest =>
      if order.lt key entry.1 then (key, value) :: entry :: rest
      else if order.lt entry.1 key then entry :: insertEntry order key value rest
      else entry :: rest

theorem mem_of_mem_insertEntry {key : K} {value : V} {entries : List (K × V)} {entry : K × V}
    (member : entry ∈ insertEntry order key value entries) :
    entry = (key, value) ∨ entry ∈ entries := by
  induction entries with
  | nil => exact Or.inl (by simpa [insertEntry] using member)
  | cons head rest ih =>
      simp only [insertEntry] at member
      split_ifs at member <;> grind

theorem mem_insertEntry_of_mem {key : K} {value : V} {entries : List (K × V)} {entry : K × V}
    (member : entry ∈ entries) : entry ∈ insertEntry order key value entries := by
  induction entries with
  | nil => simp at member
  | cons head rest ih =>
      simp only [insertEntry]
      split_ifs <;> grind

theorem insertEntry_sorted (key : K) (value : V) (entries : List (K × V))
    (sorted : entries.Pairwise fun a b => order.lt a.1 b.1 = true) :
    (insertEntry order key value entries).Pairwise fun a b => order.lt a.1 b.1 = true := by
  induction entries with
  | nil => simp [insertEntry]
  | cons head rest ih =>
      have tailSorted := sorted.of_cons
      have below : ∀ entry ∈ rest, order.lt head.1 entry.1 = true :=
        (List.pairwise_cons.mp sorted).1
      simp only [insertEntry]
      split_ifs with first second
      · refine List.pairwise_cons.mpr ⟨?_, sorted⟩
        intro entry member
        rcases List.mem_cons.mp member with rfl | later
        · exact first
        · exact order.trans _ _ _ first (below entry later)
      · refine List.pairwise_cons.mpr ⟨?_, ih tailSorted⟩
        intro entry member
        rcases mem_of_mem_insertEntry member with rfl | later
        · exact second
        · exact below entry later
      · exact sorted

theorem insertEntry_perm (key : K) (value : V) (entries : List (K × V))
    (apart : ∀ entry ∈ entries, order.Apart key entry.1) :
    (insertEntry order key value entries).Perm ((key, value) :: entries) := by
  induction entries with
  | nil => rfl
  | cons head rest ih =>
      simp only [insertEntry]
      split_ifs with first second
      · rfl
      · have inner := ih fun entry member => apart entry (List.mem_cons_of_mem _ member)
        exact (inner.cons head).trans (List.Perm.swap _ _ _)
      · exact absurd (apart head List.mem_cons_self) (by simp [KeyOrder.Apart, first, second])

theorem insertEntry_subperm (key : K) (value : V) (entries : List (K × V)) :
    (insertEntry order key value entries).Subperm ((key, value) :: entries) := by
  induction entries with
  | nil => exact List.Subperm.refl _
  | cons head rest ih =>
      simp only [insertEntry]
      split_ifs with first second
      · exact List.Subperm.refl _
      · exact ((List.subperm_cons head).mpr ih).trans (List.Perm.swap _ _ _).subperm
      · exact (List.sublist_cons_self _ _).subperm

theorem insertEntry_last (key : K) (value : V) (entries : List (K × V))
    (last : ∀ entry ∈ entries, order.lt entry.1 key = true) :
    insertEntry order key value entries = entries ++ [(key, value)] := by
  induction entries with
  | nil => rfl
  | cons head rest ih =>
      have before := last head List.mem_cons_self
      have inner := ih fun entry member => last entry (List.mem_cons_of_mem _ member)
      simp [insertEntry, before, order.asymm _ _ before, inner]

theorem insertEntry_covers (key : K) (value : V) (entries : List (K × V)) :
    ∃ entry ∈ insertEntry order key value entries, ¬ order.Apart key entry.1 := by
  induction entries with
  | nil => simp [insertEntry, KeyOrder.Apart, order.irrefl]
  | cons head rest ih =>
      simp only [insertEntry]
      split_ifs with first second
      · exact ⟨(key, value), List.mem_cons_self, by simp [KeyOrder.Apart, order.irrefl]⟩
      · obtain ⟨entry, member, near⟩ := ih
        exact ⟨entry, List.mem_cons_of_mem _ member, near⟩
      · exact ⟨head, List.mem_cons_self, by simp [KeyOrder.Apart, first, second]⟩

structure Map {K : Type} (order : KeyOrder K) (V : Type) where
  entries : List (K × V)
  sorted : entries.Pairwise fun a b => order.lt a.1 b.1 = true

namespace Map

@[ext] theorem ext {left right : Map order V} (same : left.entries = right.entries) :
    left = right := by
  cases left; cases right; simp_all

def empty : Map order V := ⟨[], List.Pairwise.nil⟩

@[simp] theorem entries_empty : (empty : Map order V).entries = [] := rfl

def insert (map : Map order V) (key : K) (value : V) : Map order V :=
  ⟨insertEntry order key value map.entries, insertEntry_sorted key value map.entries map.sorted⟩

def find (map : Map order V) (key : K) : Option V :=
  (map.entries.find? fun entry => !order.lt entry.1 key && !order.lt key entry.1).map Prod.snd

def keys (map : Map order V) : List K := map.entries.map Prod.fst

@[simp] theorem find_empty (key : K) : (empty : Map order V).find key = none := rfl

def mapVal {W : Type} (f : V → W) (map : Map order V) : Map order W :=
  ⟨map.entries.map fun entry => (entry.1, f entry.2), List.pairwise_map.mpr map.sorted⟩

theorem find_mapVal {W : Type} (f : V → W) (map : Map order V) (key : K) :
    (map.mapVal f).find key = (map.find key).map f := by
  simp [find, mapVal, List.find?_map, Function.comp_def]

theorem entries_apart (map : Map order V) :
    map.entries.Pairwise fun a b => order.Apart a.1 b.1 :=
  map.sorted.imp Or.inl

theorem mem_of_mem_insert {map : Map order V} {key : K} {value : V} {entry : K × V}
    (member : entry ∈ (map.insert key value).entries) :
    entry = (key, value) ∨ entry ∈ map.entries :=
  mem_of_mem_insertEntry member

theorem mem_insert_of_mem {map : Map order V} {key : K} {value : V} {entry : K × V}
    (member : entry ∈ map.entries) : entry ∈ (map.insert key value).entries :=
  mem_insertEntry_of_mem member

theorem lt_of_sublist {map : Map order V} {a b : K × V} (listed : [a, b].Sublist map.entries) :
    order.lt a.1 b.1 = true := by
  have sorted := map.sorted.sublist listed
  simpa using sorted

theorem sublist_of_lt {map : Map order V} {a b : K × V} (memberA : a ∈ map.entries)
    (memberB : b ∈ map.entries) (before : order.lt a.1 b.1 = true) :
    [a, b].Sublist map.entries := by
  obtain ⟨entries, sorted⟩ := map
  induction entries with
  | nil => simp at memberA
  | cons head rest ih =>
      have below := (List.pairwise_cons.mp sorted).1
      rcases List.mem_cons.mp memberB with rfl | laterB
      · rcases List.mem_cons.mp memberA with rfl | laterA
        · simp [order.irrefl] at before
        · simp [order.asymm _ _ (below a laterA)] at before
      · rcases List.mem_cons.mp memberA with rfl | laterA
        · exact (List.singleton_sublist.mpr laterB).cons_cons a
        · exact (ih sorted.of_cons laterA laterB).cons head

section Total

variable (total : order.Total)
include total

theorem find_eq_some_iff (map : Map order V) (key : K) (value : V) :
    map.find key = some value ↔ (key, value) ∈ map.entries := by
  obtain ⟨entries, sorted⟩ := map
  simp only [find]
  induction entries with
  | nil => simp
  | cons head rest ih =>
      have rule := ih sorted.of_cons
      have below := (List.pairwise_cons.mp sorted).1
      by_cases same : head.1 = key
      · subst same
        have absent : (head.1, value) ∉ rest := by
          intro member
          simpa [order.irrefl] using below _ member
        simp [order.irrefl, absent, Prod.ext_iff, eq_comm]
      · have apart : (!order.lt head.1 key && !order.lt key head.1) = false := by
          rcases total.apart same with before | after <;> simp [*]
        have different : (key, value) ≠ head := by
          rintro rfl
          exact same rfl
        simp [apart, rule, different]

theorem find_eq_none_iff (map : Map order V) (key : K) :
    map.find key = none ↔ ∀ value, (key, value) ∉ map.entries := by
  rw [Option.eq_none_iff_forall_ne_some]
  simp [find_eq_some_iff total]

theorem find_isSome_iff (map : Map order V) (key : K) :
    (map.find key).isSome ↔ key ∈ map.keys := by
  rw [Option.isSome_iff_exists]
  simp [find_eq_some_iff total, keys]

omit total in
theorem mem_insert_self (map : Map order V) (key : K) (value : V)
    (apart : ∀ entry ∈ map.entries, order.Apart key entry.1) :
    (key, value) ∈ (map.insert key value).entries :=
  (insertEntry_perm key value map.entries apart).symm.subset List.mem_cons_self

omit total in
theorem insert_of_mem (map : Map order V) (key : K) (old value : V)
    (present : (key, old) ∈ map.entries) : map.insert key value = map := by
  ext1
  obtain ⟨entries, sorted⟩ := map
  simp only [insert]
  induction entries with
  | nil => simp at present
  | cons head rest ih =>
      have below := (List.pairwise_cons.mp sorted).1
      rcases List.mem_cons.mp present with rfl | later
      · simp [insertEntry, order.irrefl]
      · have before := below _ later
        simp [insertEntry, before, order.asymm _ _ before, ih sorted.of_cons later]

theorem find_insert [DecidableEq K] (map : Map order V) (key : K) (value : V) (other : K) :
    (map.insert key value).find other =
      if other = key then some ((map.find key).getD value) else map.find other := by
  cases found : map.find key with
  | some old =>
      have present := (find_eq_some_iff total _ _ _).mp found
      rw [insert_of_mem map key old value present]
      split_ifs with same
      · rw [same, found, Option.getD_some]
      · rfl
  | none =>
      have missing := (find_eq_none_iff total _ _).mp found
      have apart : ∀ entry ∈ map.entries, order.Apart key entry.1 := by
        intro entry member
        refine total.apart ?_
        rintro rfl
        exact missing _ member
      split_ifs with same
      · rw [same, Option.getD_none]
        exact (find_eq_some_iff total _ _ _).mpr (mem_insert_self map key value apart)
      · refine Option.ext fun found => ?_
        rw [find_eq_some_iff total, find_eq_some_iff total]
        constructor
        · intro member
          rcases mem_of_mem_insert member with equal | old
          · exact absurd (congrArg Prod.fst equal) same
          · exact old
        · exact mem_insert_of_mem

end Total

def insertAll (map : Map order V) (pairs : List (K × V)) : Map order V :=
  pairs.foldl (fun acc pair => acc.insert pair.1 pair.2) map

@[simp] theorem insertAll_nil (map : Map order V) : map.insertAll [] = map := rfl

@[simp] theorem insertAll_cons (map : Map order V) (pair : K × V) (rest : List (K × V)) :
    map.insertAll (pair :: rest) = (map.insert pair.1 pair.2).insertAll rest := rfl

theorem insertAll_append (map : Map order V) (left right : List (K × V)) :
    map.insertAll (left ++ right) = (map.insertAll left).insertAll right := by
  simp [insertAll]

theorem insertAll_subperm (map : Map order V) (pairs : List (K × V)) :
    (map.insertAll pairs).entries.Subperm (map.entries ++ pairs) := by
  induction pairs generalizing map with
  | nil => simp [List.Subperm.refl]
  | cons pair rest ih =>
      have grown : (map.insert pair.1 pair.2).entries.Subperm (pair :: map.entries) :=
        insertEntry_subperm pair.1 pair.2 map.entries
      have extended := (ih (map.insert pair.1 pair.2)).trans
        (List.Subperm.append grown (List.Subperm.refl rest))
      exact extended.trans (List.perm_middle.symm).subperm

theorem mem_insertAll_of_mem {map : Map order V} {pairs : List (K × V)} {entry : K × V}
    (member : entry ∈ map.entries) : entry ∈ (map.insertAll pairs).entries := by
  induction pairs generalizing map with
  | nil => exact member
  | cons pair rest ih => exact ih (mem_insert_of_mem member)

theorem insertAll_covers (map : Map order V) {pairs : List (K × V)} {pair : K × V}
    (member : pair ∈ pairs) :
    ∃ entry ∈ (map.insertAll pairs).entries, ¬ order.Apart pair.1 entry.1 := by
  induction pairs generalizing map with
  | nil => simp at member
  | cons first rest ih =>
      rcases List.mem_cons.mp member with rfl | later
      · obtain ⟨entry, inside, near⟩ := insertEntry_covers pair.1 pair.2 map.entries
        exact ⟨entry, @mem_insertAll_of_mem _ _ _ (map.insert pair.1 pair.2) rest _ inside, near⟩
      · exact ih _ later

theorem insertAll_perm (map : Map order V) (pairs : List (K × V))
    (apart : (map.entries ++ pairs).Pairwise fun a b => order.Apart a.1 b.1) :
    (map.insertAll pairs).entries.Perm (map.entries ++ pairs) := by
  induction pairs generalizing map with
  | nil => simp
  | cons pair rest ih =>
      have reordered : (pair :: map.entries ++ rest).Pairwise fun a b => order.Apart a.1 b.1 :=
        (List.perm_middle.pairwise_iff KeyOrder.Apart.symm).mp apart
      have fresh : ∀ entry ∈ map.entries, order.Apart pair.1 entry.1 := fun entry member =>
        (List.pairwise_cons.mp reordered).1 entry (List.mem_append_left _ member)
      have inserted : (map.insert pair.1 pair.2).entries.Perm (pair :: map.entries) :=
        insertEntry_perm pair.1 pair.2 map.entries fresh
      have next := ih (map.insert pair.1 pair.2)
        (((inserted.append_right rest).pairwise_iff KeyOrder.Apart.symm).mpr reordered)
      exact (next.trans (inserted.append_right rest)).trans List.perm_middle.symm

section Fresh

variable (pairs : List (K × V))

theorem insertAll_empty_subperm : ((empty : Map order V).insertAll pairs).entries.Subperm pairs := by
  have kept := insertAll_subperm (empty : Map order V) pairs
  rwa [entries_empty, List.nil_append] at kept

theorem insertAll_empty_perm (apart : pairs.Pairwise fun a b => order.Apart a.1 b.1) :
    ((empty : Map order V).insertAll pairs).entries.Perm pairs := by
  have perm := insertAll_perm (empty : Map order V) pairs
  rw [entries_empty, List.nil_append] at perm
  exact perm apart

end Fresh

theorem entries_insertAll (map : Map order V) (pairs : List (K × V))
    (sorted : (map.entries ++ pairs).Pairwise fun a b => order.lt a.1 b.1 = true) :
    (map.insertAll pairs).entries = map.entries ++ pairs := by
  induction pairs generalizing map with
  | nil => simp
  | cons pair rest ih =>
      have last : ∀ entry ∈ map.entries, order.lt entry.1 pair.1 = true := fun entry member =>
        (List.pairwise_append.mp sorted).2.2 entry member pair List.mem_cons_self
      have appended : (map.insert pair.1 pair.2).entries = map.entries ++ [pair] :=
        insertEntry_last pair.1 pair.2 map.entries last
      rw [insertAll_cons, ih _ (by simpa [appended] using sorted), appended]
      simp

end Map

def intOrder : KeyOrder Int where
  lt a b := decide (a < b)
  irrefl := by simp
  trans a b c := by simp only [decide_eq_true_eq]; omega

theorem intOrder_total : intOrder.Total := by
  intro a b
  simp only [intOrder, decide_eq_false_iff_not]
  omega

end OrderedMap
