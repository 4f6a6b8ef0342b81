import OneFass.Shared.LexicalCast

set_option autoImplicit false

namespace OneFass.Config

open Runtime

structure Section where
  name : Text
  properties : List (Text × Text)

namespace Section

def property (entry : Section) (key : Text) : Option Text := entry.properties.lookup key

end Section

structure Settings where
  sections : List Section
  -- the reader refuses a second section of the same name
  distinct : (sections.map Section.name).Nodup

-- `pt.get<std::string>(path)`: a longer path leads nowhere in a tree of two levels
def Settings.get (settings : Settings) (path : Text) : Option Text :=
  match path.splitOn '.' with
  | [name, key] =>
      (settings.sections.find? fun entry => entry.name = name).bind fun entry => entry.property key
  | _ => none

def uidKey : Text := "uid".toList
def gidKey : Text := "gid".toList
def shareKey : Text := "share".toList
def ttlKey : Text := "ttl".toList

def props : List Text := [uidKey, gidKey, shareKey, ttlKey]

def appendProperty (settings : Settings) (user value prop : Text) : Option Text :=
  (settings.get (user ++ '.' :: prop)).map fun found => value ++ found ++ [':']

def loadUser (settings : Settings) (user : Text) : Option Text :=
  (props.foldlM (appendProperty settings user) (user ++ [':'])).map List.dropLast

/-- `load_shares`, with nothing where it returns `false`. -/
def loadShares (settings : Settings) : Option (List Text) :=
  settings.sections.mapM fun entry => loadUser settings entry.name

section Split

variable {c : Char}

theorem length_splitOn (text : Text) : (text.splitOn c).length = text.count c + 1 := by
  induction text with
  | nil => rfl
  | cons first rest ih =>
      rw [List.splitOn_cons_eq_if_modifyHead, List.count_cons]
      split_ifs <;> simp [ih]

theorem mapM_eq_some {α β : Type} {f : α → Option β} {inputs : List α} {outputs : List β} :
    inputs.mapM f = some outputs ↔
    List.Forall₂ (fun input output => f input = some output) inputs outputs := by
  induction inputs generalizing outputs with
  | nil => simp [eq_comm]
  | cons input rest ih =>
      simp only [List.mapM_cons, Option.bind_eq_bind, Option.bind_eq_some_iff, ih, Option.pure_def,
        Option.some.injEq, List.forall₂_cons_left_iff]
      grind

end Split

structure Stated (entry : Section) where
  uid : Text
  gid : Text
  share : Text
  ttl : Text
  uid_eq : entry.property uidKey = some uid
  gid_eq : entry.property gidKey = some gid
  share_eq : entry.property shareKey = some share
  ttl_eq : entry.property ttlKey = some ttl

namespace Stated

variable {entry : Section}

def fields (stated : Stated entry) : List Text :=
  [entry.name, stated.uid, stated.gid, stated.share, stated.ttl]

def record (stated : Stated entry) : Text := [':'].intercalate stated.fields

def Unambiguous (stated : Stated entry) : Prop := ∀ field ∈ stated.fields, ':' ∉ field

theorem joined (stated : Stated entry) :
    entry.name ++ [':'] ++ stated.uid ++ [':'] ++ stated.gid ++ [':'] ++ stated.share ++ [':'] ++
    stated.ttl ++ [':'] =
      stated.record ++ [':'] := by
  simp [record, fields, List.intercalate, List.intersperse]

theorem splitOn_record {stated : Stated entry} (unambiguous : stated.Unambiguous) :
    stated.record.splitOn ':' = stated.fields :=
  List.splitOn_intercalate ':' unambiguous (by simp [fields])

theorem count_record (stated : Stated entry) :
    stated.record.count ':' = (stated.fields.map (List.count ':')).sum + 4 := by
  simp [record, fields, List.intercalate, List.intersperse, List.count_append]
  omega

theorem five_fields_iff (stated : Stated entry) :
    (stated.record.splitOn ':').length = 5 ↔ stated.Unambiguous := by
  rw [length_splitOn, count_record, Unambiguous]
  simp only [← List.count_eq_zero]
  simp [fields]

end Stated

section Load

variable {settings : Settings} {entry : Section}

theorem find_section (member : entry ∈ settings.sections) :
    settings.sections.find? (fun other => other.name = entry.name) = some entry := by
  obtain ⟨sections, distinct⟩ := settings
  induction sections with
  | nil => simp at member
  | cons first rest ih =>
      simp only [List.map_cons, List.nodup_cons] at distinct
      rcases List.mem_cons.mp member with rfl | later
      · simp
      · have different : first.name ≠ entry.name := fun same =>
          distinct.1 (same ▸ List.mem_map_of_mem later)
        rw [List.find?_cons_of_neg (by simpa using different)]
        exact ih distinct.2 later

theorem get_of_dotted (dotted : '.' ∈ entry.name) (key : Text) :
    settings.get (entry.name ++ '.' :: key) = none := by
  have longer : 2 < ((entry.name ++ '.' :: key).splitOn '.').length := by
    rw [length_splitOn, List.count_append, List.count_cons_self]
    have positive := List.count_pos_iff.mpr dotted
    omega
  rw [Settings.get]
  split
  · simp_all
  · rfl

theorem get_property (member : entry ∈ settings.sections) (simple : '.' ∉ entry.name) (key : Text)
    (plain : '.' ∉ key) : settings.get (entry.name ++ '.' :: key) = entry.property key := by
  rw [Settings.get, List.splitOn_append_cons_self_of_not_mem simple,
    List.splitOn_eq_singleton plain]
  simp [find_section member]

theorem props_plain : ∀ key ∈ props, '.' ∉ key := by decide +kernel

theorem loadUser_eq_some (member : entry ∈ settings.sections) (record : Text) :
    loadUser settings entry.name = some record ↔
      '.' ∉ entry.name ∧ ∃ stated : Stated entry, stated.record = record := by
  simp only [loadUser, props, List.foldlM_cons, List.foldlM_nil, appendProperty]
  by_cases dotted : '.' ∈ entry.name
  · simp [get_of_dotted dotted uidKey, dotted]
  · rw [get_property member dotted uidKey (props_plain _ (by simp [props])),
      get_property member dotted gidKey (props_plain _ (by simp [props])),
      get_property member dotted shareKey (props_plain _ (by simp [props])),
      get_property member dotted ttlKey (props_plain _ (by simp [props]))]
    constructor
    · intro loaded
      simp only [Option.map_eq_some_iff, Option.bind_eq_bind, Option.bind_eq_some_iff,
        Option.pure_def, Option.some.injEq] at loaded
      obtain ⟨_, ⟨_, ⟨uid, uid_eq, rfl⟩, _, ⟨gid, gid_eq, rfl⟩, _, ⟨share, share_eq, rfl⟩, _,
        ⟨ttl, ttl_eq, rfl⟩, rfl⟩, rfl⟩ := loaded
      let stated : Stated entry := ⟨uid, gid, share, ttl, uid_eq, gid_eq, share_eq, ttl_eq⟩
      refine ⟨dotted, stated, ?_⟩
      rw [stated.joined, List.dropLast_concat]
    · rintro ⟨_, stated, rfl⟩
      simp only [stated.uid_eq, stated.gid_eq, stated.share_eq, stated.ttl_eq, Option.map_some,
        Option.bind_eq_bind, Option.bind_some, Option.pure_def]
      rw [stated.joined, List.dropLast_concat]

end Load

end OneFass.Config
