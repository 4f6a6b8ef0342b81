import OneFass.Config.Shares
import OneFass.Pm.User

set_option autoImplicit false

namespace OneFass.Config

open Runtime ExactPower Pm

section Readers

inductive Rejection where
  | badLexicalCast
  -- `throw;` with no exception to rethrow
  | terminate
  | undefined (hazard : Hazard)
  deriving DecidableEq

def cast {α : Type} : Option α → Except Rejection α
  | some value => .ok value
  | none => .error .badLexicalCast

-- `tokens[3]` of the first loop in `calculate_initial_shares`
def initialShare (record : Text) : Except Rejection Int :=
  match (record.splitOn ':')[3]? with
  | some token => cast (lexicalInt16 token)
  | none => .error (.undefined .indexOutOfBounds)

def divide : FloatValue ℚ → Int → FloatValue ℚ
  | .nan, _ => .nan
  | .infinite negative, sum => .infinite (negative != decide (sum < 0))
  | .finite share, sum =>
      if sum ≠ 0 then .finite (share / sum)
      else if share = 0 then .nan
      else .infinite (share < 0)

def makeUser (user_group_share : Text) (sum : Int) : Except Rejection User :=
  match user_group_share.splitOn ':' with
  | [_, uidToken, gidToken, shareToken, ttlToken] => do
      let uid ← cast (lexicalInt16 uidToken)
      let gid ← cast (lexicalInt16 gidToken)
      let share ← cast (lexicalFloat shareToken)
      let ttl ← cast (lexicalInt64 ttlToken)
      -- both ids become `unsigned short`
      return { User.unset with
        userID := UInt16.ofInt uid, groupID := UInt16.ofInt gid,
        share := some (divide share sum), ttl := ttl }
  | _ => .error .terminate

def addShare (sum : Int) (record : Text) : Except Rejection Int := do
  let share ← initialShare record
  if -2 ^ 31 ≤ sum + share ∧ sum + share < 2 ^ 31 then return sum + share
  else .error (.undefined .overflow)

/-- `calculate_initial_shares`, without the rows it writes to the database. -/
def calculateInitialShares (shares : List Text) : Except Rejection (List User) := do
  let sum ← shares.foldlM addShare 0
  shares.mapM fun record => makeUser record sum

/-- The uid and the ttl that `tm_loop` takes from a record. -/
def tmUser (record : Text) : Except Rejection (Int × Int) :=
  match record.splitOn ':' with
  | [_, uidToken, _, _, ttlToken] => do
      let uid ← cast (lexicalInt16 uidToken)
      let ttl ← cast (lexicalInt64 ttlToken)
      return (uid, ttl)
  | _ => .error .terminate

end Readers

section Conversions

theorem bind_accepts {α β : Type} {first : Except Rejection α} {next : α → Except Rejection β}
    {result : β} :
    (first >>= next) = .ok result ↔ ∃ value, first = .ok value ∧ next value = .ok result := by
  cases first <;> simp [bind, Except.bind]

theorem cast_eq_ok {α : Type} {option : Option α} {value : α} :
    cast option = .ok value ↔ option = some value := by
  cases option <;> simp [cast]

theorem toNat_ofInt_eq_iff {id : Int} (low : -2 ^ 15 ≤ id) (high : id ≤ 2 ^ 15 - 1) :
    ((UInt16.ofInt id).toNat : Int) = id ↔ 0 ≤ id := by
  have converted : ((UInt16.ofInt id).toNat : Int) = id % 2 ^ 16 := by
    rw [UInt16.ofInt, UInt16.toNat_ofNat']
    omega
  rw [converted]
  omega

theorem integerText_of_lexical {lowest highest value : Int} {text : Text}
    (read : lexicalInteger lowest highest text = some value) : integerText text = some value :=
  (lexicalInteger_eq_some.mp read).1

end Conversions

namespace Section

def integer (entry : Section) (key : Text) : Option Int := (entry.property key).bind integerText

def float (entry : Section) (key : Text) : Option (FloatValue ℚ) :=
  (entry.property key).bind lexicalFloat

def Unambiguous (entry : Section) : Prop :=
  ':' ∉ entry.name ∧ ∀ key ∈ props, ∀ text, entry.property key = some text → ':' ∉ text

def Convertible (entry : Section) (uid gid : Int) : Prop :=
  (entry.property uidKey).bind lexicalInt16 = some uid ∧
    (entry.property gidKey).bind lexicalInt16 = some gid ∧
    (∃ share, entry.float shareKey = some share) ∧
      ∃ ttl, (entry.property ttlKey).bind lexicalInt64 = some ttl

end Section

structure Agrees (entry : Section) (record : Text) : Prop where
  fields : (record.splitOn ':').length = 5
  share : ∀ share, initialShare record = .ok share → entry.float shareKey = some (.finite share)
  user : ∀ sum user, makeUser record sum = .ok user →
    entry.integer uidKey = some (user.userID.toNat : Int) ∧
    entry.integer gidKey = some (user.groupID.toNat : Int) ∧
    (∃ share, entry.float shareKey = some share ∧ user.share = some (divide share sum)) ∧
    entry.integer ttlKey = some user.ttl
  terminator : ∀ uid ttl, tmUser record = .ok (uid, ttl) →
    entry.integer uidKey = some uid ∧ entry.integer ttlKey = some ttl
  same : ∀ sum user uid ttl, makeUser record sum = .ok user → tmUser record = .ok (uid, ttl) →
    (user.userID.toNat : Int) = uid

namespace Stated

variable {entry : Section} {stated : Stated entry}

theorem unambiguous_iff : stated.Unambiguous ↔ entry.Unambiguous := by
  simp [Stated.Unambiguous, Section.Unambiguous, fields, props, stated.uid_eq, stated.gid_eq,
    stated.share_eq, stated.ttl_eq]

theorem initialShare_eq_ok (unambiguous : stated.Unambiguous) {share : Int} :
    initialShare stated.record = .ok share ↔ lexicalInt16 stated.share = some share := by
  simp [initialShare, splitOn_record unambiguous, fields, cast_eq_ok]

theorem makeUser_eq_ok (unambiguous : stated.Unambiguous) {sum : Int} {user : User} :
    makeUser stated.record sum = .ok user ↔
    ∃ uid gid share ttl, lexicalInt16 stated.uid = some uid ∧
      lexicalInt16 stated.gid = some gid ∧ lexicalFloat stated.share = some share ∧
      lexicalInt64 stated.ttl = some ttl ∧
      user = { User.unset with
        userID := UInt16.ofInt uid, groupID := UInt16.ofInt gid,
        share := some (divide share sum), ttl := ttl } := by
  simp only [makeUser, splitOn_record unambiguous, fields, bind_accepts, cast_eq_ok, pure,
    Except.pure, Except.ok.injEq]
  constructor
  · rintro ⟨uid, first, gid, second, share, third, ttl, fourth, rfl⟩
    exact ⟨uid, gid, share, ttl, first, second, third, fourth, rfl⟩
  · rintro ⟨uid, gid, share, ttl, first, second, third, fourth, rfl⟩
    exact ⟨uid, first, gid, second, share, third, ttl, fourth, rfl⟩

theorem tmUser_eq_ok (unambiguous : stated.Unambiguous) {uid ttl : Int} :
    tmUser stated.record = .ok (uid, ttl) ↔ lexicalInt16 stated.uid = some uid ∧
    lexicalInt64 stated.ttl = some ttl := by
  simp only [tmUser, splitOn_record unambiguous, fields, bind_accepts, cast_eq_ok, pure,
    Except.pure, Except.ok.injEq, Prod.mk.injEq]
  constructor
  · rintro ⟨_, first, _, second, rfl, rfl⟩
    exact ⟨first, second⟩
  · rintro ⟨first, second⟩
    exact ⟨uid, first, ttl, second, rfl, rfl⟩

theorem convertible_iff {uid gid : Int} :
    entry.Convertible uid gid ↔ lexicalInt16 stated.uid = some uid ∧
    lexicalInt16 stated.gid = some gid ∧
      (∃ share, lexicalFloat stated.share = some share) ∧
      ∃ ttl, lexicalInt64 stated.ttl = some ttl := by
  simp [Section.Convertible, Section.float, stated.uid_eq, stated.gid_eq, stated.share_eq,
    stated.ttl_eq]

theorem integer_uid : entry.integer uidKey = integerText stated.uid := by
  simp [Section.integer, stated.uid_eq]

theorem integer_gid : entry.integer gidKey = integerText stated.gid := by
  simp [Section.integer, stated.gid_eq]

theorem integer_ttl : entry.integer ttlKey = integerText stated.ttl := by
  simp [Section.integer, stated.ttl_eq]

theorem float_share : entry.float shareKey = lexicalFloat stated.share := by
  simp [Section.float, stated.share_eq]

theorem int16_nonneg {text : Text} {id : Int} (read : lexicalInt16 text = some id)
    (kept : integerText text = some ((UInt16.ofInt id).toNat : Int)) : 0 ≤ id := by
  obtain ⟨denoted, low, high⟩ := lexicalInteger_eq_some.mp read
  exact (toNat_ofInt_eq_iff low high).mp (Option.some.inj (kept.symm.trans denoted))

theorem int16_kept {text : Text} {id : Int} (read : lexicalInt16 text = some id) (nonneg : 0 ≤ id) :
    ((UInt16.ofInt id).toNat : Int) = id := by
  obtain ⟨_, low, high⟩ := lexicalInteger_eq_some.mp read
  exact (toNat_ofInt_eq_iff low high).mpr nonneg

theorem nonneg_of_agrees (agrees : Agrees entry stated.record) {uid gid : Int}
    (convertible : entry.Convertible uid gid) : 0 ≤ uid ∧ 0 ≤ gid := by
  have unambiguous := stated.five_fields_iff.mp agrees.fields
  obtain ⟨first, second, ⟨share, third⟩, ttl, fourth⟩ := (stated.convertible_iff).mp convertible
  obtain ⟨own, group, _, _⟩ := agrees.user 1 _
    ((makeUser_eq_ok unambiguous).mpr ⟨uid, gid, share, ttl, first, second, third, fourth, rfl⟩)
  rw [stated.integer_uid] at own
  rw [stated.integer_gid] at group
  exact ⟨int16_nonneg first own, int16_nonneg second group⟩

theorem agrees_of_nonneg (unambiguous : stated.Unambiguous)
    (nonneg : ∀ uid gid, entry.Convertible uid gid → 0 ≤ uid ∧ 0 ≤ gid) :
    Agrees entry stated.record := by
  constructor
  · exact stated.five_fields_iff.mpr unambiguous
  · intro share read
    rw [stated.float_share]
    exact lexicalFloat_of_int16 ((initialShare_eq_ok unambiguous).mp read)
  · intro sum user made
    obtain ⟨uid, gid, share, ttl, first, second, third, fourth, rfl⟩ :=
      (makeUser_eq_ok unambiguous).mp made
    obtain ⟨own, group⟩ := nonneg uid gid
      ((stated.convertible_iff).mpr ⟨first, second, ⟨share, third⟩, ttl, fourth⟩)
    rw [stated.integer_uid, stated.integer_gid, stated.integer_ttl, stated.float_share,
      int16_kept first own, int16_kept second group]
    exact ⟨integerText_of_lexical first, integerText_of_lexical second, ⟨share, third, rfl⟩,
      integerText_of_lexical fourth⟩
  · intro uid ttl read
    obtain ⟨first, second⟩ := (tmUser_eq_ok unambiguous).mp read
    rw [stated.integer_uid, stated.integer_ttl]
    exact ⟨integerText_of_lexical first, integerText_of_lexical second⟩
  · intro sum user uid ttl made read
    obtain ⟨own, gid, share, life, first, second, third, fourth, rfl⟩ :=
      (makeUser_eq_ok unambiguous).mp made
    obtain ⟨again, _⟩ := (tmUser_eq_ok unambiguous).mp read
    have equal : own = uid := Option.some.inj (first.symm.trans again)
    have positive := (nonneg own gid
      ((stated.convertible_iff).mpr ⟨first, second, ⟨share, third⟩, life, fourth⟩)).1
    rw [← equal]
    exact int16_kept first positive

theorem agrees_iff (stated : Stated entry) :
    Agrees entry stated.record ↔
      entry.Unambiguous ∧ ∀ uid gid, entry.Convertible uid gid → 0 ≤ uid ∧ 0 ≤ gid := by
  constructor
  · intro agrees
    exact ⟨unambiguous_iff.mp (stated.five_fields_iff.mp agrees.fields), fun _ _ =>
      nonneg_of_agrees agrees⟩
  · rintro ⟨unambiguous, nonneg⟩
    exact agrees_of_nonneg (unambiguous_iff.mpr unambiguous) nonneg

end Stated

theorem forall₂_iff_forall {α β : Type} {built good : α → β → Prop} {condition : α → Prop}
    {inputs : List α} {outputs : List β} (pairs : List.Forall₂ built inputs outputs)
    (each : ∀ input ∈ inputs, ∀ output, built input output →
      (good input output ↔ condition input)) :
    List.Forall₂ good inputs outputs ↔ ∀ input ∈ inputs, condition input := by
  induction pairs with
  | nil => simp
  | cons first rest ih =>
      have others := ih fun input member => each input (List.mem_cons_of_mem _ member)
      rw [List.forall₂_cons, others, List.forall_mem_cons, each _ List.mem_cons_self _ first]

theorem records_agree_iff (settings : Settings) (records : List Text)
    (loaded : loadShares settings = some records) :
    List.Forall₂ Agrees settings.sections records ↔
      ∀ entry ∈ settings.sections, entry.Unambiguous ∧
        ∀ uid gid, entry.Convertible uid gid → 0 ≤ uid ∧ 0 ≤ gid := by
  apply forall₂_iff_forall (mapM_eq_some.mp loaded)
  intro entry member record built
  obtain ⟨_, stated, rfl⟩ := (loadUser_eq_some member record).mp built
  exact stated.agrees_iff

theorem calculateInitialShares_ok {shares : List Text} {users : List User}
    (accepted : calculateInitialShares shares = .ok users) :
    ∃ sum, shares.foldlM addShare 0 = .ok sum ∧
      List.Forall₂ (fun record user => makeUser record sum = .ok user) shares users := by
  obtain ⟨sum, summed, made⟩ := bind_accepts.mp accepted
  refine ⟨sum, summed, ?_⟩
  clear accepted summed
  induction shares generalizing users with
  | nil => simp_all [pure, Except.pure]
  | cons record rest ih =>
      simp only [List.mapM_cons, bind_accepts, pure, Except.pure, Except.ok.injEq] at made
      obtain ⟨user, first, others, later, rfl⟩ := made
      exact .cons first (ih later)

theorem user_list_agrees {sections : List Section} {records : List Text} {users : List User}
    (agree : List.Forall₂ Agrees sections records)
    (accepted : calculateInitialShares records = .ok users) :
    List.Forall₂ (fun entry user => entry.integer uidKey = some (user.userID.toNat : Int) ∧
      entry.integer gidKey = some (user.groupID.toNat : Int) ∧ entry.integer ttlKey = some user.ttl)
      sections users := by
  obtain ⟨sum, summed, made⟩ := calculateInitialShares_ok accepted
  clear accepted summed
  induction agree generalizing users with
  | nil =>
      cases made
      exact .nil
  | cons first rest ih =>
      cases made with
      | cons here others =>
          obtain ⟨own, group, _, life⟩ := first.user sum _ here
          exact .cons ⟨own, group, life⟩ (ih others)

section Example

def sectionOf (name uid : Text) : Section :=
  ⟨name, [(uidKey, uid), (gidKey, "1".toList), (shareKey, "70".toList), (ttlKey, "1000".toList)]⟩

def settingsOf (name uid : Text) : Settings := ⟨[sectionOf name uid], by simp⟩

theorem records_agree_iff_goofy :
    List.Forall₂ Agrees (settingsOf "goofy".toList "2".toList).sections
        ["goofy:2:1:70:1000".toList] ↔
      ∀ entry ∈ (settingsOf "goofy".toList "2".toList).sections, entry.Unambiguous ∧
        ∀ uid gid, entry.Convertible uid gid → 0 ≤ uid ∧ 0 ≤ gid :=
  records_agree_iff _ _ (by decide +kernel)

theorem records_disagree :
    let colon := "cms:admin:2:1:70:1000".toList
    let negative := "goofy:-1:1:70:1000".toList
    (loadShares (settingsOf "cms:admin".toList "2".toList) = some [colon] ∧
      (colon.splitOn ':').length = 6 ∧ initialShare colon = .ok 1) ∧
    loadShares (settingsOf "goofy".toList "-1".toList) = some [negative] ∧
      User.userID <$> makeUser negative 70 = .ok 65535 ∧ tmUser negative = .ok (-1, 1000) :=
  ⟨⟨by decide +kernel, by decide +kernel, by decide +kernel⟩, by decide +kernel, by decide +kernel,
    by decide +kernel⟩

end Example

end OneFass.Config
