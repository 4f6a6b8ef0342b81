import Mathlib.Data.List.Basic

set_option autoImplicit false

namespace LineProtocol

abbrev Pair := List Char × List Char

structure Point where
  measurement : List Char
  tag : Pair
  fields : List Pair
  time : List Char

def pairText (pair : Pair) : List Char := pair.1 ++ '=' :: pair.2

def Point.line (point : Point) : List Char :=
  (point.measurement ++ ',' :: pairText point.tag) ++ ' ' ::
    ([','].intercalate (point.fields.map pairText) ++ ' ' :: point.time)

def readPair (text : List Char) : Option Pair :=
  match text.splitOn '=' with
  | [key, value] => if key = [] ∨ value = [] then none else some (key, value)
  | _ => none

def readPoint (line : List Char) : Option Point :=
  match line.splitOn ' ' with
  | [series, fields, time] =>
      match series.splitOn ',' with
      | [measurement, tag] => do
          let tag ← readPair tag
          let fields ← (fields.splitOn ',').mapM readPair
          if measurement = [] ∨ time = [] then none else return ⟨measurement, tag, fields, time⟩
      | _ => none
  | _ => none

def separators : List Char := [' ', ',', '=', '\n']

def Token (text : List Char) : Prop := text ≠ [] ∧ ∀ c ∈ separators, c ∉ text

instance (text : List Char) : Decidable (Token text) :=
  decidable_of_iff (text ≠ [] ∧ separators.all (fun c => decide (c ∉ text)) = true)
    (by simp [Token])

def TokenPair (pair : Pair) : Prop := Token pair.1 ∧ Token pair.2

structure Point.WellFormed (point : Point) : Prop where
  measurement : Token point.measurement
  tag : TokenPair point.tag
  fields : point.fields ≠ [] ∧ ∀ field ∈ point.fields, TokenPair field
  time : Token point.time

theorem readPair_pairText {pair : Pair} (tokens : TokenPair pair) :
    readPair (pairText pair) = some pair := by
  obtain ⟨⟨nonempty, key⟩, ⟨filled, value⟩⟩ := tokens
  rw [readPair, pairText, List.splitOn_append_cons_self_of_not_mem (key '=' (by decide)),
    List.splitOn_eq_singleton (value '=' (by decide))]
  simp [nonempty, filled]

theorem not_mem_pairText {pair : Pair} (tokens : TokenPair pair) {c : Char}
    (separator : c ∈ separators) (different : c ≠ '=') : c ∉ pairText pair := by
  have key := tokens.1.2 c separator
  have value := tokens.2.2 c separator
  simp [pairText, key, value, different]

theorem mapM_readPair {fields : List Pair} (tokens : ∀ field ∈ fields, TokenPair field) :
    (fields.map pairText).mapM readPair = some fields := by
  induction fields with
  | nil => rfl
  | cons field rest ih =>
      have first := readPair_pairText (tokens field List.mem_cons_self)
      have others := ih fun other member => tokens other (List.mem_cons_of_mem _ member)
      simp [List.mapM_cons, first, others]

theorem not_mem_joined {fields : List Pair} (tokens : ∀ field ∈ fields, TokenPair field) :
    ' ' ∉ [','].intercalate (fields.map pairText) := by
  induction fields with
  | nil => simp
  | cons field rest ih =>
      have first := not_mem_pairText (tokens field List.mem_cons_self)
        (by decide : ' ' ∈ separators) (by decide)
      have others := ih fun other member => tokens other (List.mem_cons_of_mem _ member)
      cases rest with
      | nil => simpa [List.intercalate] using first
      | cons next tail =>
          simp only [List.intercalate, List.map_cons, List.intersperse, List.flatten_cons,
            List.mem_append] at others ⊢
          simp_all

theorem readPoint_line {point : Point} (wellFormed : point.WellFormed) :
    readPoint point.line = some point := by
  obtain ⟨named, tag, ⟨listed, tokens⟩, timed⟩ := wellFormed
  have spaced := not_mem_pairText tag (by decide : ' ' ∈ separators) (by decide)
  have joined := not_mem_pairText tag (by decide : ',' ∈ separators) (by decide)
  have series : ' ' ∉ point.measurement ++ ',' :: pairText point.tag := by
    have name := named.2 ' ' (by decide)
    simp [name, spaced]
  have split : ([','].intercalate (point.fields.map pairText)).splitOn ',' =
      point.fields.map pairText := by
    refine List.splitOn_intercalate ',' ?_ (by simpa using listed)
    intro text member
    obtain ⟨field, inside, rfl⟩ := List.mem_map.mp member
    exact not_mem_pairText (tokens field inside) (by decide) (by decide)
  rw [readPoint, Point.line, List.splitOn_append_cons_self_of_not_mem series,
    List.splitOn_append_cons_self_of_not_mem (not_mem_joined tokens),
    List.splitOn_eq_singleton (timed.2 ' ' (by decide))]
  simp only
  rw [List.splitOn_append_cons_self_of_not_mem (named.2 ',' (by decide)),
    List.splitOn_eq_singleton joined]
  simp [readPair_pairText tag, split, mapM_readPair tokens, named.1, timed.1]

section Tagged

structure Tagged where
  measurement : List Char
  tags : List Pair
  fields : List Pair
  time : List Char
  deriving DecidableEq

def Tagged.series (point : Tagged) : List Char :=
  [','].intercalate (point.measurement :: point.tags.map pairText)

def Tagged.line (point : Tagged) : List Char :=
  point.series ++ ' ' :: ([','].intercalate (point.fields.map pairText) ++ ' ' :: point.time)

def readTagged (line : List Char) : Option Tagged :=
  match line.splitOn ' ' with
  | [series, fields, time] =>
      match series.splitOn ',' with
      | measurement :: tags => do
          let tags ← tags.mapM readPair
          let fields ← (fields.splitOn ',').mapM readPair
          if measurement = [] ∨ time = [] then none else return ⟨measurement, tags, fields, time⟩
      | [] => none
  | _ => none

structure Tagged.WellFormed (point : Tagged) : Prop where
  measurement : Token point.measurement
  tags : ∀ tag ∈ point.tags, TokenPair tag
  fields : point.fields ≠ [] ∧ ∀ field ∈ point.fields, TokenPair field
  time : Token point.time

theorem splitOn_pairs {pairs : List Pair} (listed : pairs ≠ [])
    (tokens : ∀ pair ∈ pairs, TokenPair pair) :
    ([','].intercalate (pairs.map pairText)).splitOn ',' = pairs.map pairText := by
  refine List.splitOn_intercalate ',' ?_ (by simpa using listed)
  intro text member
  obtain ⟨pair, inside, rfl⟩ := List.mem_map.mp member
  exact not_mem_pairText (tokens pair inside) (by decide) (by decide)

variable {point : Tagged}

theorem splitOn_series (wellFormed : point.WellFormed) :
    point.series.splitOn ',' = point.measurement :: point.tags.map pairText := by
  refine List.splitOn_intercalate ',' ?_ (List.cons_ne_nil _ _)
  intro text member
  rcases List.mem_cons.mp member with rfl | tagged
  · exact wellFormed.measurement.2 ',' (by decide)
  · obtain ⟨tag, inside, rfl⟩ := List.mem_map.mp tagged
    exact not_mem_pairText (wellFormed.tags tag inside) (by decide) (by decide)

theorem not_mem_series (wellFormed : point.WellFormed) : ' ' ∉ point.series := by
  have named := wellFormed.measurement.2 ' ' (by decide)
  have joined := not_mem_joined wellFormed.tags
  cases tags : point.tags with
  | nil => simpa [Tagged.series, tags, List.intercalate] using named
  | cons tag rest =>
      rw [tags] at joined
      simp only [Tagged.series, tags, List.intercalate, List.map_cons, List.intersperse,
        List.flatten_cons, List.mem_append] at joined ⊢
      simp_all

theorem readTagged_line (wellFormed : point.WellFormed) : readTagged point.line = some point := by
  obtain ⟨listed, tokens⟩ := wellFormed.fields
  have timed := wellFormed.time
  rw [readTagged, Tagged.line, List.splitOn_append_cons_self_of_not_mem (not_mem_series wellFormed),
    List.splitOn_append_cons_self_of_not_mem (not_mem_joined tokens),
      List.splitOn_eq_singleton (timed.2 ' ' (by decide))]
  simp only [splitOn_series wellFormed, splitOn_pairs listed tokens, mapM_readPair tokens,
    mapM_readPair wellFormed.tags]
  simp [wellFormed.measurement.1, timed.1]

end Tagged

end LineProtocol
