import OneFass.Shared.Handles
import OneFass.Shared.OrderedMap
import Mathlib.Algebra.GroupWithZero.Nat
import Mathlib.Data.Finset.SDiff
import Mathlib.Data.Finset.Card

set_option autoImplicit false

namespace OrderedMap

structure OwnedMap {K : Type} (order : KeyOrder K) where
  handles : Handles
  objects : Map order (List Nat)

inductive Fill (K : Type) where
  | put (key : K) (count : Nat)
  -- objects that are made and never stored
  | abandon (count : Nat)

namespace OwnedMap

variable {K : Type} {order : KeyOrder K}

def empty : OwnedMap order := ⟨Handles.empty, Map.empty⟩

def stored (map : OwnedMap order) : List Nat := map.objects.entries.flatMap Prod.snd

def flush (map : OwnedMap order) : OwnedMap order := ⟨map.handles.releaseMany map.stored, Map.empty⟩

def fill (map : OwnedMap order) : Fill K → OwnedMap order
  | .put key count =>
      let (made, handles) := Handles.allocateMany count map.handles
      ⟨handles, map.objects.insert key made⟩
  | .abandon count => { map with handles := (Handles.allocateMany count map.handles).2 }

def refill (map : OwnedMap order) (fills : List (Fill K)) : OwnedMap order :=
  fills.foldl fill map.flush

def lost [DecidableEq K] : List K → List (Fill K) → Nat
  | _, [] => 0
  | taken, .put key count :: rest =>
      if key ∈ taken then count + lost taken rest else lost (key :: taken) rest
  | taken, .abandon count :: rest => count + lost taken rest

def Keeps (map : OwnedMap order) (missing : Nat) : Prop :=
  map.handles.Clean ∧ ∃ leaked : List Nat, leaked.length = missing ∧
    map.handles.Owns (map.stored ++ leaked)

variable {map : OwnedMap order} {missing : Nat}

theorem keeps_empty : (empty : OwnedMap order).Keeps 0 :=
  ⟨Handles.clean_empty, [], rfl, Handles.owns_empty⟩

theorem keeps_flush (keeps : map.Keeps missing) : map.flush.Keeps missing := by
  obtain ⟨clean, leaked, counted, owns⟩ := keeps
  obtain ⟨left, still⟩ := owns.releaseMany clean
  exact ⟨still, leaked, counted, left⟩

theorem keeps_abandon (keeps : map.Keeps missing) (count : Nat) :
    (map.fill (.abandon count)).Keeps (missing + count) := by
  obtain ⟨clean, leaked, counted, owns⟩ := keeps
  refine ⟨(Handles.clean_allocateMany count).mpr clean,
    (Handles.allocateMany count map.handles).1 ++ leaked, ?_, ?_⟩
  · rw [List.length_append, Handles.length_allocateMany, counted, Nat.add_comm]
  · refine (owns.allocateMany count).perm ?_
    rw [← List.append_assoc, ← List.append_assoc]
    exact List.perm_append_comm.append_right leaked

theorem keeps_put (keeps : map.Keeps missing) (key : K) (count : Nat)
    (apart : ∀ entry ∈ map.objects.entries, order.Apart key entry.1) :
    (map.fill (.put key count)).Keeps missing := by
  obtain ⟨clean, leaked, counted, owns⟩ := keeps
  refine ⟨(Handles.clean_allocateMany count).mpr clean, leaked, counted, ?_⟩
  refine (owns.allocateMany count).perm ?_
  have inserted := insertEntry_perm key
    (Handles.allocateMany count map.handles).1 map.objects.entries apart
  rw [← List.append_assoc]
  exact ((inserted.flatMap_right Prod.snd).symm).append_right leaked

theorem keeps_put_taken (keeps : map.Keeps missing) {key : K} {old : List Nat} (count : Nat)
    (present : (key, old) ∈ map.objects.entries) :
    (map.fill (.put key count)).Keeps (missing + count) := by
  have same : map.fill (.put key count) = map.fill (.abandon count) := by
    simp only [fill, Map.insert_of_mem _ _ _ _ present]
  rw [same]
  exact keeps_abandon keeps count

section Total

variable [DecidableEq K] (total : order.Total)

include total in
theorem keeps_fills {taken : List K} (keys : ∀ key, key ∈ taken ↔ key ∈ map.objects.keys)
    (fills : List (Fill K)) (keeps : map.Keeps missing) :
    (fills.foldl fill map).Keeps (missing + lost taken fills) := by
  induction fills generalizing map taken missing with
  | nil => exact keeps
  | cons first rest ih =>
      cases first with
      | abandon count =>
          rw [lost, ← Nat.add_assoc]
          exact @ih (map.fill (.abandon count)) _ taken keys (keeps_abandon keeps count)
      | put key count =>
          by_cases here : key ∈ taken
          · obtain ⟨⟨_, old⟩, present, rfl⟩ := List.mem_map.mp ((keys key).mp here)
            rw [lost, if_pos here, ← Nat.add_assoc]
            refine @ih (map.fill (.put _ count)) _ taken ?_ (keeps_put_taken keeps count present)
            simpa only [fill, Map.insert_of_mem _ _ _ _ present] using keys
          · have apart : ∀ entry ∈ map.objects.entries, order.Apart key entry.1 := by
              intro entry member
              refine total.apart fun same => here ((keys key).mpr ?_)
              exact List.mem_map.mpr ⟨entry, member, same.symm⟩
            rw [lost, if_neg here]
            refine @ih (map.fill (.put key count)) _ (key :: taken) ?_
              (keeps_put keeps key count apart)
            intro other
            have inserted := insertEntry_perm key
              (Handles.allocateMany count map.handles).1 map.objects.entries apart
            have entered := (inserted.map Prod.fst).mem_iff (a := other)
            rw [List.mem_cons, keys]
            exact (entered.trans (by rw [List.map_cons, List.mem_cons]; rfl)).symm

include total in
theorem keeps_refill (fills : List (Fill K)) (keeps : map.Keeps missing) :
    (map.refill fills).Keeps (missing + lost [] fills) :=
  keeps_fills total (fun key => by simp [flush, Map.keys]) fills (keeps_flush keeps)

include total in
theorem keeps_refills (refills : List (List (Fill K))) (keeps : map.Keeps missing) :
    (refills.foldl refill map).Keeps (missing + (refills.map (lost [])).sum) := by
  induction refills generalizing map missing with
  | nil => exact keeps
  | cons first rest ih =>
      rw [List.map_cons, List.sum_cons, ← Nat.add_assoc]
      exact ih (keeps_refill total first keeps)

end Total

section Lossless

variable [DecidableEq K]

def Fill.key? : Fill K → Option K
  | .put key _ => some key
  | .abandon _ => none

def Fill.count : Fill K → Nat
  | .put _ count | .abandon count => count

theorem lost_eq_zero_iff {fills : List (Fill K)}
    (filled : ∀ key count, Fill.put key count ∈ fills → count ≠ 0) (taken : List K) :
    lost taken fills = 0 ↔
      (∀ count, Fill.abandon count ∈ fills → count = 0) ∧ (fills.filterMap Fill.key?).Nodup ∧
        ∀ key ∈ fills.filterMap Fill.key?, key ∉ taken := by
  induction fills generalizing taken with
  | nil => simp [lost]
  | cons first rest ih =>
      have later := fun taken => ih (fun key count member =>
        filled key count (List.mem_cons_of_mem _ member)) taken
      cases first with
      | abandon count =>
          have skipped : (Fill.abandon count :: rest).filterMap Fill.key? =
              rest.filterMap Fill.key? := rfl
          rw [lost, Nat.add_eq_zero_iff, later taken, skipped]
          constructor
          · intro ⟨nothing, unmade, distinct, apart⟩
            refine ⟨?_, distinct, apart⟩
            intro other member
            cases member with
            | head => exact nothing
            | tail _ member => exact unmade other member
          · intro ⟨unmade, distinct, apart⟩
            exact ⟨unmade count List.mem_cons_self, fun other member =>
              unmade other (List.mem_cons_of_mem _ member), distinct, apart⟩
      | put key count =>
          have made := filled key count List.mem_cons_self
          have entered : (Fill.put key count :: rest).filterMap Fill.key? =
              key :: rest.filterMap Fill.key? := rfl
          have others : ∀ other, Fill.abandon other ∈ Fill.put key count :: rest ↔
              Fill.abandon other ∈ rest := by simp
          by_cases here : key ∈ taken
          · rw [lost, if_pos here, entered]
            constructor
            · intro nothing
              omega
            · intro ⟨_, _, apart⟩
              exact absurd here (apart key List.mem_cons_self)
          · rw [lost, if_neg here, later (key :: taken), entered]
            simp only [others, List.nodup_cons, List.mem_cons, not_or]
            constructor
            · intro ⟨unmade, distinct, apart⟩
              refine ⟨unmade, ⟨fun again => (apart key again).1 rfl, distinct⟩, ?_⟩
              intro other member
              rcases member with rfl | member
              · exact here
              · exact (apart other member).2
            · intro ⟨unmade, ⟨once, distinct⟩, apart⟩
              refine ⟨unmade, distinct, fun other member => ⟨?_, apart other (Or.inr member)⟩⟩
              intro same
              exact once (same ▸ member)

theorem lost_units (keys taken : List K) :
    lost taken (keys.map (Fill.put · 1)) + (keys.toFinset \ taken.toFinset).card = keys.length := by
  induction keys generalizing taken with
  | nil => simp [lost]
  | cons key rest ih =>
      rw [List.map_cons, List.length_cons, List.toFinset_cons]
      by_cases here : key ∈ taken
      · rw [lost, if_pos here, Finset.insert_sdiff_of_mem _ (List.mem_toFinset.mpr here)]
        have counted := ih taken
        omega
      · have entered : insert key rest.toFinset \ taken.toFinset =
            insert key (rest.toFinset \ (key :: taken).toFinset) := by
          ext other
          by_cases same : other = key <;> simp [same, here]
        rw [lost, if_neg here, entered, Finset.card_insert_of_notMem (by simp)]
        have counted := ih (key :: taken)
        omega

end Lossless

section Released

theorem released_of_keeps (keeps : map.Keeps missing) :
    ∃ leaked : List Nat, leaked.length = missing ∧ map.handles.Owns (map.stored ++ leaked) ∧
      map.flush.handles.Owns leaked ∧ map.flush.handles.Clean := by
  obtain ⟨clean, leaked, counted, owns⟩ := keeps
  obtain ⟨left, still⟩ := owns.releaseMany clean
  exact ⟨leaked, counted, owns, left, still⟩

theorem nothing_left_iff (keeps : map.Keeps missing) : map.flush.handles.Owns [] ↔ missing = 0 := by
  obtain ⟨leaked, counted, _, left, _⟩ := released_of_keeps keeps
  rw [← counted, List.length_eq_zero_iff]
  constructor
  · intro none
    exact List.eq_nil_iff_forall_not_mem.mpr fun handle member =>
      Handles.owns_nil_iff.mp none handle ((left.live handle).mpr member)
  · intro none
    exact none ▸ left

end Released

section Contents

variable {V W : Type}

theorem insertEntry_map (f : V → W) (key : K) (value : V) (entries : List (K × V)) :
    (insertEntry order key value entries).map (Prod.map id f) =
      insertEntry order key (f value) (entries.map (Prod.map id f)) := by
  induction entries with
  | nil => rfl
  | cons head rest ih =>
      simp only [insertEntry, List.map_cons, Prod.map_fst, id_eq]
      split_ifs
      · rfl
      · rw [List.map_cons, ih]
      · rfl

def Mirrors (size : V → Nat) (map : OwnedMap order) (objects : Map order V) : Prop :=
  map.objects.entries.map (Prod.map id List.length) = objects.entries.map (Prod.map id size)

variable {size : V → Nat} {objects : Map order V}

theorem mirrors_flush : Mirrors size map.flush Map.empty := rfl

theorem Mirrors.put (mirrors : Mirrors size map objects) (key : K) (value : V) :
    Mirrors size (map.fill (.put key (size value))) (objects.insert key value) := by
  unfold Mirrors at mirrors ⊢
  have made := Handles.length_allocateMany (size value) map.handles
  simp only [fill, Map.insert, insertEntry_map, made, mirrors]

theorem Mirrors.abandon (mirrors : Mirrors size map objects) (count : Nat) :
    Mirrors size (map.fill (.abandon count)) objects := mirrors

end Contents

end OwnedMap

end OrderedMap
