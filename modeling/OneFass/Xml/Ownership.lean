import OneFass.Shared.OwnedMap
import OneFass.Xml.Grouping

set_option autoImplicit false

namespace OneFass.Xml

open Runtime Client OrderedMap OwnedMap

abbrev Owned := OwnedMap intOrder

namespace VMPool

def addObjectOwned (pool : Owned) (node : XmlNode) : Owned :=
  if validNode node then pool.fill (.put (VMObject.ofNode node).oid 1) else pool

def setUpOwned (parse : Parser) (server : Server) (auth : Text) (search : Query) (pool : Owned) :
    Owned × Except Fault Int :=
  let flushed := pool.flush
  match fetchDocument parse server auth "one.vmpool.info".toList loadVmsParameters with
  | .error fault => (flushed, .error fault)
  | .ok none => (flushed, .ok (-1))
  | .ok (some document) => ((search.getNodes document).foldl addObjectOwned flushed, .ok 0)

def selectedIds (parse : Parser) (server : Server) (auth : Text) (search : Query) : List Int :=
  match fetchDocument parse server auth "one.vmpool.info".toList loadVmsParameters with
  | .ok (some document) =>
      ((search.getNodes document).filter validNode).map fun node => (VMObject.ofNode node).oid
  | _ => []

theorem addObjectsOwned_eq (nodes : List XmlNode) (pool : Owned) : nodes.foldl addObjectOwned pool =
    (((nodes.filter validNode).map fun node => (VMObject.ofNode node).oid).map
      (Fill.put · 1)).foldl fill pool := by
  induction nodes generalizing pool with
  | nil => rfl
  | cons node rest ih =>
      rw [List.foldl_cons, ih, addObjectOwned]
      by_cases valid : validNode node = true
      · rw [if_pos valid, List.filter_cons_of_pos valid]
        rfl
      · rw [if_neg valid, List.filter_cons_of_neg valid]

theorem mirrors_addObjects (nodes : List XmlNode) {pool : Owned} {objects : Objects}
    (mirrors : Mirrors (fun _ => 1) pool objects) :
    Mirrors (fun _ => 1) (nodes.foldl addObjectOwned pool) (addObjects objects nodes) := by
  induction nodes generalizing pool objects with
  | nil => exact mirrors
  | cons node rest ih =>
      refine ih ?_
      unfold addObjectOwned Xml.addObject
      split_ifs
      · exact mirrors.put _ (VMObject.ofNode node)
      · exact mirrors

variable (parse : Parser) (server : Server) (auth : Text) (search : Query) (pool : Owned)

theorem setUpOwned_refill : (setUpOwned parse server auth search pool).1 =
    pool.refill ((selectedIds parse server auth search).map (Fill.put · 1)) := by
  unfold setUpOwned selectedIds
  rcases fetchDocument parse server auth "one.vmpool.info".toList loadVmsParameters with fault | _
    | document
  · rfl
  · rfl
  · exact addObjectsOwned_eq _ _

theorem setUpOwned_mirrors (objects : Objects) :
    Mirrors (fun _ => 1) (setUpOwned parse server auth search pool).1
    (Xml.setUp parse server auth search objects).1 ∧
      (setUpOwned parse server auth search pool).2 =
        (Xml.setUp parse server auth search objects).2 := by
  unfold setUpOwned Xml.setUp
  rcases fetchDocument parse server auth "one.vmpool.info".toList loadVmsParameters with fault | _
    | document
  · exact ⟨mirrors_flush, rfl⟩
  · exact ⟨mirrors_flush, rfl⟩
  · exact ⟨mirrors_addObjects _ mirrors_flush, rfl⟩

def setUps (auth : Text) (fetches : List (Server × Query)) : Owned :=
  fetches.foldl (fun pool fetch => (setUpOwned parse fetch.1 auth fetch.2 pool).1) OwnedMap.empty

def repeated (ids : List Int) : Nat := ids.length - ids.toFinset.card

theorem lost_ids (ids : List Int) : lost [] (ids.map (Fill.put · 1)) = repeated ids := by
  have counted := lost_units ids []
  rw [List.toFinset_nil, Finset.sdiff_empty] at counted
  unfold repeated
  omega

theorem setUps_keeps (fetches : List (Server × Query)) : (setUps parse auth fetches).Keeps
    (fetches.map fun fetch => repeated (selectedIds parse fetch.1 auth fetch.2)).sum := by
  have kept := keeps_refills intOrder_total
    (fetches.map fun fetch => (selectedIds parse fetch.1 auth fetch.2).map (Fill.put · 1))
      (@keeps_empty Int intOrder)
  rw [List.foldl_map, List.map_map, Nat.zero_add] at kept
  simpa only [setUps, setUpOwned_refill, Function.comp_def, lost_ids] using kept

theorem objects_owned (fetches : List (Server × Query)) :
    (∀ next : Server × Query, ∀ objects,
      Mirrors (fun _ => 1) (setUpOwned parse next.1 auth next.2 (setUps parse auth fetches)).1
        (Xml.setUp parse next.1 auth next.2 objects).1) ∧
      (setUps parse auth fetches).flush.handles.Clean ∧
      ∃ leaked : List Nat,
        leaked.length = (fetches.map fun fetch =>
          repeated (selectedIds parse fetch.1 auth fetch.2)).sum ∧
          (setUps parse auth fetches).handles.Owns ((setUps parse auth fetches).stored ++ leaked) ∧
          (setUps parse auth fetches).flush.handles.Owns leaked := by
  obtain ⟨leaked, counted, owns, left, clean⟩ := released_of_keeps (setUps_keeps parse auth fetches)
  refine ⟨?_, clean, leaked, counted, owns, left⟩
  intro next objects
  exact (setUpOwned_mirrors parse next.1 auth next.2 _ objects).1

end VMPool

namespace AcctPool

-- the objects made before an invalid node are in a list that the function drops
def makeUserObjectOwned (pool : Owned) (uid : Int) (nodes : List XmlNode) : Owned :=
  if nodes.all validNode then pool.fill (.put uid nodes.length)
  else pool.fill (.abandon (nodes.takeWhile validNode).length)

def addUserOwned (document : XmlNode) (pool : Owned) (uid : Int) : Owned :=
  let nodes := userNodes document uid
  if nodes.isEmpty then pool else makeUserObjectOwned pool uid nodes

def setUpOwned (parse : Parser) (server : Server) (auth : Text) (uids : List Int) (time_start : Int)
    (pool : Owned) :
    Owned × Except Fault Int :=
  let flushed := pool.flush
  match fetchDocument parse server auth "one.vmpool.accounting".toList
    (loadAcctParameters time_start) with
  | .error fault => (flushed, .error fault)
  | .ok none => (flushed, .ok (-1))
  | .ok (some document) => (uids.foldl (addUserOwned document) flushed, .ok 0)

def userFill (document : XmlNode) (uid : Int) : Option (Fill Int) :=
  let nodes := userNodes document uid
  if nodes.isEmpty then none
  else if nodes.all validNode then some (.put uid nodes.length)
  else some (.abandon (nodes.takeWhile validNode).length)

structure Fetch where
  server : Server
  uids : List Int
  time_start : Int

def fetchedFills (parse : Parser) (auth : Text) (fetch : Fetch) : List (Fill Int) :=
  match fetchDocument parse fetch.server auth "one.vmpool.accounting".toList
    (loadAcctParameters fetch.time_start) with
  | .ok (some document) => fetch.uids.filterMap (userFill document)
  | _ => []

theorem addUsers_eq (document : XmlNode) (uids : List Int) (pool : Owned) :
    uids.foldl (addUserOwned document) pool =
      (uids.filterMap (userFill document)).foldl fill pool := by
  induction uids generalizing pool with
  | nil => rfl
  | cons uid rest ih =>
      rw [List.foldl_cons, ih, addUserOwned]
      by_cases empty : (userNodes document uid).isEmpty = true
      · rw [if_pos empty, List.filterMap_cons_none (by rw [userFill, if_pos empty])]
      · rw [if_neg empty, makeUserObjectOwned]
        split_ifs with valid
        · rw [List.filterMap_cons_some (by rw [userFill, if_neg empty, if_pos valid])]
          rfl
        · rw [List.filterMap_cons_some (by rw [userFill, if_neg empty, if_neg valid])]
          rfl

variable (parse : Parser) (auth : Text)

theorem setUpOwned_refill (fetch : Fetch) (pool : Owned) :
    (setUpOwned parse fetch.server auth fetch.uids fetch.time_start pool).1 =
      pool.refill (fetchedFills parse auth fetch) := by
  unfold setUpOwned fetchedFills
  rcases fetchDocument parse fetch.server auth "one.vmpool.accounting".toList
    (loadAcctParameters fetch.time_start)
    with fault | _ | document
  · rfl
  · rfl
  · exact addUsers_eq document fetch.uids pool.flush

theorem mirrors_addUsers (document : XmlNode) (uids : List Int) {pool : Owned}
    {objects : AcctObjects} (mirrors : Mirrors List.length pool objects) :
    Mirrors List.length (uids.foldl (addUserOwned document) pool)
    (uids.foldl (addUser document) objects) := by
  induction uids generalizing pool objects with
  | nil => exact mirrors
  | cons uid rest ih =>
      refine ih ?_
      simp only [addUserOwned, addUser]
      split_ifs with empty
      · exact mirrors
      · unfold makeUserObjectOwned makeUserObject
        split_ifs
        · rw [← List.length_map (f := AcctObject.ofNode)]
          exact mirrors.put uid ((userNodes document uid).map AcctObject.ofNode)
        · exact mirrors.abandon _

theorem setUpOwned_mirrors (fetch : Fetch) (pool : Owned) (objects : AcctObjects) :
    Mirrors List.length (setUpOwned parse fetch.server auth fetch.uids fetch.time_start pool).1
        (setUp parse fetch.server auth fetch.uids fetch.time_start objects).1 ∧
      (setUpOwned parse fetch.server auth fetch.uids fetch.time_start pool).2 =
        (setUp parse fetch.server auth fetch.uids fetch.time_start objects).2 := by
  unfold setUpOwned setUp
  rcases fetchDocument parse fetch.server auth "one.vmpool.accounting".toList
    (loadAcctParameters fetch.time_start)
    with fault | _ | document
  · exact ⟨mirrors_flush, rfl⟩
  · exact ⟨mirrors_flush, rfl⟩
  · exact ⟨mirrors_addUsers document fetch.uids mirrors_flush, rfl⟩

def setUps (fetches : List Fetch) : Owned :=
  fetches.foldl
    (fun pool fetch => (setUpOwned parse fetch.server auth fetch.uids fetch.time_start pool).1)
    OwnedMap.empty

theorem setUps_keeps (fetches : List Fetch) :
    (setUps parse auth fetches).Keeps (fetches.map fun fetch =>
      lost [] (fetchedFills parse auth fetch)).sum := by
  have kept := keeps_refills intOrder_total (fetches.map (fetchedFills parse auth))
    (@keeps_empty Int intOrder)
  rw [List.foldl_map, List.map_map, Nat.zero_add] at kept
  simpa only [setUps, setUpOwned_refill, Function.comp_def] using kept

def Lossless (document : XmlNode) (uids : List Int) : Prop :=
  (∀ uid ∈ uids, (userNodes document uid).all validNode = true ∨
    (userNodes document uid).takeWhile validNode = []) ∧
    (uids.filter fun uid => (stored document uid).isSome).Nodup

variable {document : XmlNode} {uids : List Int}

theorem keys_userFills : (uids.filterMap (userFill document)).filterMap Fill.key? =
    uids.filter fun uid => (stored document uid).isSome := by
  rw [List.filterMap_filterMap, ← List.filterMap_eq_filter]
  refine congrArg (List.filterMap · uids) (funext fun uid => ?_)
  unfold userFill stored
  by_cases empty : userNodes document uid = []
  · simp [empty, Option.guard]
  · by_cases valid : (userNodes document uid).all validNode =
      true <;> simp [empty, valid, Fill.key?, Option.guard]

theorem abandons_userFills : (∀ count, Fill.abandon count ∈ uids.filterMap (userFill document) →
    count = 0) ↔
    ∀ uid ∈ uids, (userNodes document uid).all validNode = true ∨
    (userNodes document uid).takeWhile validNode = [] := by
  constructor
  · intro nothing uid listed
    by_cases valid : (userNodes document uid).all validNode = true
    · exact Or.inl valid
    · have filled : (userNodes document uid).isEmpty ≠ true := by
        intro empty
        rw [List.isEmpty_iff.mp empty] at valid
        exact valid rfl
      refine Or.inr (List.length_eq_zero_iff.mp
        (nothing _ (List.mem_filterMap.mpr ⟨uid, listed, ?_⟩)))
      rw [userFill, if_neg filled, if_neg valid]
  · intro settled count made
    obtain ⟨uid, listed, fill⟩ := List.mem_filterMap.mp made
    simp only [userFill] at fill
    split_ifs at fill with empty valid
    · cases fill
    · obtain valid' | none := settled uid listed
      · exact absurd valid' valid
      · cases fill
        rw [none, List.length_nil]

theorem filled_userFills (uid : Int) (count : Nat)
    (made : Fill.put uid count ∈ uids.filterMap (userFill document)) :
    count ≠ 0 := by
  obtain ⟨other, _, fill⟩ := List.mem_filterMap.mp made
  simp only [userFill] at fill
  split_ifs at fill with empty valid
  · cases fill
    exact fun none => empty (List.isEmpty_iff.mpr (List.length_eq_zero_iff.mp none))
  · cases fill

theorem lost_userFills : lost [] (uids.filterMap (userFill document)) = 0 ↔
    Lossless document uids := by
  rw [lost_eq_zero_iff filled_userFills [], abandons_userFills, keys_userFills, Lossless]
  simp

theorem objects_released (fetches : List Fetch) :
    (∀ next : Fetch, ∀ objects,
      Mirrors List.length
        (setUpOwned parse next.server auth next.uids next.time_start (setUps parse auth fetches)).1
        (setUp parse next.server auth next.uids next.time_start objects).1) ∧
      (setUps parse auth fetches).flush.handles.Clean ∧
      ((∀ handle, (setUps parse auth fetches).flush.handles.status handle ≠ .live) ↔
        ∀ fetch ∈ fetches, ∀ document,
          fetchDocument parse fetch.server auth "one.vmpool.accounting".toList
          (loadAcctParameters fetch.time_start) =
            .ok (some document) → Lossless document fetch.uids) := by
  obtain ⟨_, _, _, _, clean⟩ := released_of_keeps (setUps_keeps parse auth fetches)
  refine ⟨fun next objects => (setUpOwned_mirrors parse auth next _ objects).1, clean, ?_⟩
  rw [← Handles.owns_nil_iff, nothing_left_iff (setUps_keeps parse auth fetches),
    List.sum_eq_zero_iff, List.forall_mem_map]
  refine forall₂_congr fun fetch _ => ?_
  unfold fetchedFills
  rcases fetchDocument parse fetch.server auth "one.vmpool.accounting".toList
    (loadAcctParameters fetch.time_start)
    with fault | _ | document
  · simp [lost]
  · simp [lost]
  · simp only [lost_userFills, Except.ok.injEq, Option.some.injEq, forall_eq']

-- the record that is made before the invalid one is never deleted
example : ¬ Lossless oddHistory [5, 6] := by
  unfold Lossless
  decide +kernel

end AcctPool

end OneFass.Xml
