import OneFass.Config.InitialShares
import OneFass.Database.Requests

set_option autoImplicit false

namespace OneFass.Config

open Runtime ExactPower Pm Database LineProtocol

def ofFault : Fault → Rejection
  | .undefined hazard => .undefined hazard
  | .raised _ => .terminate

section Writing

variable (db : InfluxDb) (format : FloatValue ℚ → Text) (timestamp : Int)

def writeShare (user : User) (connection : Connection) : Except Rejection Exchange :=
  match user.share with
  | none => .error (.undefined .uninitialised)
  | some share =>
      (db.writeInitialShares (format share) (decimal user.userID.toNat)
        (decimal user.groupID.toNat) user.ttl timestamp connection).mapError ofFault

-- the second loop; `connection` tells what becomes of each row's connection
def writeShares (sum : Int) :
    (Nat → Connection) → List Text → List Text × Except Rejection (List User)
  | _, [] => ([], .ok [])
  | connection, record :: rest =>
      match makeUser record sum with
      | .error rejection => ([], .error rejection)
      | .ok user =>
          match writeShare db format timestamp user (connection 0) with
          | .error rejection => ([], .error rejection)
          | .ok exchange =>
              let (received, users) := writeShares sum (fun k => connection (k + 1)) rest
              (exchange.received :: received, (user :: ·) <$> users)

/-- `calculate_initial_shares` with what the server receives. -/
def recordShares (connection : Nat → Connection) (shares : List Text) :
    List Text × Except Rejection (List User) :=
  match shares.foldlM addShare 0 with
  | .error rejection => ([], .error rejection)
  | .ok sum => writeShares db format timestamp sum connection shares

end Writing

section Rows

variable {db : InfluxDb} {format : FloatValue ℚ → Text} {timestamp : Int}

def pointOf (format : FloatValue ℚ → Text) (timestamp : Int) (user : User) (share : FloatValue ℚ) :
    Tagged :=
  sharePoint (format share) (decimal user.userID.toNat)
    (decimal user.groupID.toNat) user.ttl timestamp

structure Rows (db : InfluxDb) (format : FloatValue ℚ → Text) (timestamp : Int)
    (connection : Nat → Connection) (received : List Text) (users : List User) : Prop where
  length : received.length = users.length
  delivered : ∀ (k : Nat) (text : Text) (user : User), received[k]? = some text →
    users[k]? = some user →
    (connection k).completes = true →
      ∃ share, user.share = some share ∧ Delivers db text (pointOf format timestamp user share)

theorem rows_nil (connection : Nat → Connection) : Rows db format timestamp connection [] [] :=
  ⟨rfl, by simp⟩

theorem rows_cons {connection : Nat → Connection} {text : Text} {user : User} {received : List Text}
    {users : List User}
    (first : (connection 0).completes = true →
      ∃ share, user.share = some share ∧ Delivers db text (pointOf format timestamp user share))
    (others : Rows db format timestamp (fun k => connection (k + 1)) received users) :
    Rows db format timestamp connection (text :: received) (user :: users) where
  length := congrArg (· + 1) others.length
  delivered := by
    intro k other owner found made completes
    cases k with
    | zero =>
        cases found
        cases made
        exact first completes
    | succ k => exact others.delivered k other owner found made completes

theorem share_of_makeUser {record : Text} {sum : Int} {user : User}
    (made : makeUser record sum = .ok user) :
    ∃ share, user.share = some share := by
  simp only [makeUser] at made
  split at made
  · simp only [bind_accepts, pure, Except.pure, Except.ok.injEq] at made
    obtain ⟨_, _, _, _, share, _, _, _, rfl⟩ := made
    exact ⟨_, rfl⟩
  · cases made

variable (addressable : db.Addressable) (printed : ∀ share, Token (format share))
    (representable : Representable timestamp)

include representable in
theorem writeShare_eq {user : User} {share : FloatValue ℚ} (set : user.share = some share)
    (connection : Connection) :
    writeShare db format timestamp user connection =
      .ok (db.query InfluxDb.write' (pointOf format timestamp user share).line [] connection) := by
  simp only [writeShare, set, InfluxDb.writeInitialShares, sharesLine_eq _ _ _ _ representable]
  rfl

include addressable printed in
theorem query_delivers (user : User) (share : FloatValue ℚ) {connection : Connection}
    (completes : connection.completes = true) :
    Delivers db (db.query InfluxDb.write'
      (pointOf format timestamp user share).line [] connection).received
      (pointOf format timestamp user share) := by
  cases connection with
  | answered socket =>
      exact delivers_requestText addressable (sharePoint_wellFormed (printed share) _ _ _)
  | refused => cases completes
  | broken bytes => cases completes

structure RowsUntil (db : InfluxDb) (format : FloatValue ℚ → Text) (timestamp : Int)
    (connection : Nat → Connection) (sum : Int) (shares received : List Text) (users : List User) :
    Prop where
  rows : Rows db format timestamp connection received users
  made : List.Forall₂ (fun record user => makeUser record sum = .ok user)
    (shares.take users.length) users
  stopped : users.length = shares.length ∨ ∃ record rejection, shares[users.length]? = some record ∧
    makeUser record sum = .error rejection

theorem RowsUntil.all {connection : Nat → Connection} {sum : Int} {shares received : List Text}
    {users : List User}
    (until' : RowsUntil db format timestamp connection sum shares received users)
    (accepted : ∀ record ∈ shares, ∃ user, makeUser record sum = .ok user) :
    users.length = shares.length := by
  rcases until'.stopped with all | ⟨record, rejection, found, refused⟩
  · exact all
  · obtain ⟨user, made⟩ := accepted record (List.mem_of_getElem? found)
    rw [refused] at made
    cases made

include addressable printed representable in
theorem writeShares_rows (sum : Int) (connection : Nat → Connection) (shares : List Text) :
    (writeShares db format timestamp sum connection shares).2 =
      shares.mapM (fun record => makeUser record sum) ∧
      ∃ users, RowsUntil db format timestamp connection sum shares
        (writeShares db format timestamp sum connection shares).1 users := by
  induction shares generalizing connection with
  | nil => exact ⟨rfl, [], rows_nil connection, .nil, Or.inl rfl⟩
  | cons record rest ih =>
      rw [List.mapM_cons]
      cases made : makeUser record sum with
      | error rejection =>
          simp only [writeShares, made]
          exact ⟨rfl, [], rows_nil connection, .nil, Or.inr ⟨record, rejection, rfl, made⟩⟩
      | ok user =>
          obtain ⟨share, set⟩ := share_of_makeUser made
          obtain ⟨same, users, rows, built, stopped⟩ := ih (fun k => connection (k + 1))
          simp only [writeShares, made, writeShare_eq representable set]
          refine ⟨?_, user :: users,
            rows_cons (fun completes => ⟨share, set, query_delivers addressable printed user share
            completes⟩) rows, .cons made built, ?_⟩
          · rw [same]
            cases rest.mapM fun record => makeUser record sum <;> rfl
          · rcases stopped with all | ⟨failing, rejection, found, refused⟩
            · exact Or.inl (congrArg (· + 1) all)
            · exact Or.inr ⟨failing, rejection, found, refused⟩

end Rows

theorem initial_shares_recorded (db : InfluxDb) (addressable : db.Addressable)
    (format : FloatValue ℚ → Text) (printed : ∀ share, Token (format share)) (timestamp : Int)
    (representable : Representable timestamp) (connection : Nat → Connection) (shares : List Text) :
    (recordShares db format timestamp connection shares).2 = calculateInitialShares shares ∧
      (∀ sum, shares.foldlM addShare 0 = .ok sum → ∃ users,
        RowsUntil db format timestamp connection sum shares
        (recordShares db format timestamp connection shares).1 users) ∧
      ∀ users, calculateInitialShares shares = .ok users →
        Rows db format timestamp connection
        (recordShares db format timestamp connection shares).1 users := by
  cases summed : shares.foldlM addShare 0 with
  | error rejection =>
      simp only [recordShares, calculateInitialShares, summed]
      exact ⟨rfl, by rintro _ ⟨⟩, by rintro _ ⟨⟩⟩
  | ok sum =>
      have result := writeShares_rows addressable printed representable sum connection shares
      obtain ⟨same, users, until'⟩ := result
      simp only [recordShares, summed]
      refine ⟨by rw [same, calculateInitialShares, summed]; rfl, ?_, ?_⟩
      · rintro _ ⟨⟩
        exact ⟨users, until'⟩
      · intro made completed
        obtain ⟨other, again, built⟩ := calculateInitialShares_ok completed
        rw [summed] at again
        cases again
        have all := until'.all fun record member => by
          obtain ⟨k, inside, rfl⟩ := List.mem_iff_getElem.mp member
          have paired := List.forall₂_iff_get.mp built
          exact ⟨_, paired.2 k inside (paired.1 ▸ inside)⟩
        have first := until'.made
        rw [all, List.take_length] at first
        have unique : Relator.RightUnique fun record user => makeUser record sum = .ok user :=
          fun _ _ _ one other => Except.ok.inj (one.symm.trans other)
        rw [← unique.forall₂ first built]
        exact until'.rows

section Example

def shareText : FloatValue ℚ → Text
  | .finite share => floatText share
  | .infinite negative => if negative then "-inf".toList else "inf".toList
  | .nan => "nan".toList

theorem shareText_token (share : FloatValue ℚ) : Token (shareText share) := by
  cases share with
  | finite share => exact floatText_token share
  | nan => decide +kernel
  | infinite negative => cases negative <;> decide +kernel

theorem initial_shares_recorded_unequal : ∃ users,
    calculateInitialShares unequalShares = .ok users ∧
    Rows fassdb shareText 1500000000 (fun k => if k = 0 then .refused else .answered [])
      (recordShares fassdb shareText 1500000000 (fun k => if k = 0 then
        .refused else .answered []) unequalShares).1 users := by
  have accepted : (calculateInitialShares unequalShares).isOk = true := by decide +kernel
  cases made : calculateInitialShares unequalShares with
  | error rejection => simp [made, Except.isOk, Except.toBool] at accepted
  | ok users =>
      exact ⟨users, rfl, (initial_shares_recorded fassdb fassdb_addressable shareText
        shareText_token 1500000000 ⟨by decide, by decide⟩ _ unequalShares).2.2 users made⟩

end Example

end OneFass.Config
