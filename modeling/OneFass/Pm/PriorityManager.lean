import OneFass.Pm.BasicPlugin
import OneFass.Xml.VMPool

set_option autoImplicit false

namespace OneFass.Pm

open Runtime OrderedMap ExactPower Xml

-- the last listed user with the id, or else a `User` that nothing was assigned to
def owner (user_list : List User) (uid : Int) : User :=
  user_list.foldl
    (fun user listed => if (listed.userID.toNat : Int) = uid then listed else user) User.unset

section Prioritize

def machines (objects : Objects) : List VMObject := objects.entries.map Prod.snd

def prioritize (update : VMObject → Except Fault (FloatValue Scaled)) (priorities : Priorities)
    (vm : VMObject) :
    Except Fault Priorities := do
  let vm_prio ← update vm
  return priorities.insert vm_prio vm.oid

def prioritizeAll (update : VMObject → Except Fault (FloatValue Scaled)) (objects : Objects)
    (priorities : Priorities) : Except Fault Priorities :=
  (machines objects).foldlM (prioritize update) priorities

-- the priority is a `double` that `narrow` makes a `float`
def updateWith (narrow : FloatValue Scaled → FloatValue Scaled) (plugin : BasicPlugin)
    (user_list : List User) (plugin_debug : Int) (vm : VMObject) :
    Except Fault (FloatValue Scaled) :=
  narrow <$> plugin.updatePrio vm.oid (owner user_list vm.uid) plugin_debug

def doPrioritize (narrow : FloatValue Scaled → FloatValue Scaled) (user_list : List User)
    (plugin_debug : Int) (objects : Objects) (priorities : Priorities) : Except Fault Priorities :=
  let plugin := BasicPlugin.evaluateTotalUsage user_list
  prioritizeAll (updateWith narrow plugin user_list plugin_debug) objects priorities

def entryFor (prio : VMObject → FloatValue Scaled) (vm : VMObject) : FloatValue Scaled × Int :=
  (prio vm, vm.oid)

def rated (update : VMObject → Except Fault (FloatValue Scaled)) (vm : VMObject) :
    FloatValue Scaled :=
  match update vm with
  | .ok prio => prio
  | .error _ => .nan

theorem prioritizeAll_eq_ok {update : VMObject → Except Fault (FloatValue Scaled)}
    {objects : Objects} {priorities result : Priorities} :
    prioritizeAll update objects priorities = .ok result ↔
      (∀ vm ∈ machines objects, ∃ prio, update vm = .ok prio) ∧
        result = priorities.insertAll ((machines objects).map (entryFor (rated update))) := by
  rw [prioritizeAll]
  induction machines objects generalizing priorities with
  | nil => simp [pure, Except.pure, eq_comm]
  | cons vm rest ih =>
      simp only [List.foldlM_cons, prioritize, bind_eq_ok, pure, Except.pure, Except.ok.injEq, ih,
        List.forall_mem_cons, List.map_cons, Map.insertAll_cons]
      constructor
      · rintro ⟨_, ⟨prio, updated, rfl⟩, defined, rfl⟩
        exact ⟨⟨⟨prio, updated⟩, defined⟩, by simp [entryFor, rated, updated]⟩
      · rintro ⟨⟨⟨prio, updated⟩, defined⟩, rfl⟩
        exact ⟨_, ⟨prio, updated, rfl⟩, defined, by simp [entryFor, rated, updated]⟩

theorem prioritizeAll_of_updates {update : VMObject → Except Fault (FloatValue Scaled)}
    {prio : VMObject → FloatValue Scaled} {objects : Objects}
    (updated : ∀ vm ∈ machines objects, update vm = .ok (prio vm)) (priorities : Priorities) :
    prioritizeAll update objects priorities =
      .ok (priorities.insertAll ((machines objects).map (entryFor prio))) := by
  refine prioritizeAll_eq_ok.mpr ⟨fun vm member => ⟨_, updated vm member⟩, ?_⟩
  congr 1
  apply List.map_congr_left
  intro vm member
  simp [entryFor, rated, updated vm member]

theorem updateWith_eq_ok {narrow : FloatValue Scaled → FloatValue Scaled} {plugin : BasicPlugin}
    {user_list : List User} {plugin_debug : Int} {vm : VMObject} {prio : FloatValue Scaled} :
    updateWith narrow plugin user_list plugin_debug vm = .ok prio ↔
      ∃ vm_prio, plugin.updatePrio vm.oid (owner user_list vm.uid) plugin_debug = .ok vm_prio ∧
        narrow vm_prio = prio := map_eq_ok

end Prioritize

section Owner

def LastListed (user_list : List User) (uid : Int) (user : User) : Prop :=
  ∃ before after, user_list = before ++ user :: after ∧ (user.userID.toNat : Int) = uid ∧
    ∀ later ∈ after, (later.userID.toNat : Int) ≠ uid

variable {user_list : List User} {uid : Int} {user : User}

theorem owner_append_singleton (earlier : List User) (last : User) (uid : Int) :
    owner (earlier ++ [last]) uid =
      if (last.userID.toNat : Int) = uid then last else owner earlier uid := by
  simp [owner]

theorem owner_eq_unset (absent : ∀ user ∈ user_list, (user.userID.toNat : Int) ≠ uid) :
    owner user_list uid = User.unset := by
  induction user_list using List.reverseRecOn with
  | nil => rfl
  | append_singleton earlier last ih =>
      rw [owner_append_singleton, if_neg (absent last (by simp))]
      exact ih fun user member => absent user (by simp [member])

theorem owner_of_lastListed (listed : LastListed user_list uid user) :
    owner user_list uid = user := by
  obtain ⟨before, after, rfl, matching, absent⟩ := listed
  induction after using List.reverseRecOn with
  | nil => rw [owner_append_singleton, if_pos matching]
  | append_singleton earlier last ih =>
      have moved : before ++ user :: (earlier ++ [last]) = before ++ user :: earlier ++ [last] := by
        simp
      rw [moved, owner_append_singleton, if_neg (absent last (by simp))]
      exact ih fun later member => absent later (by simp [member])

theorem exists_lastListed (member : user ∈ user_list) (matching : (user.userID.toNat : Int) = uid) :
    ∃ last, LastListed user_list uid last := by
  induction user_list using List.reverseRecOn with
  | nil => simp at member
  | append_singleton earlier last ih =>
      by_cases same : (last.userID.toNat : Int) = uid
      · exact ⟨last, earlier, [], rfl, same, by simp⟩
      · rcases List.mem_append.mp member with before | here
        · obtain ⟨found, front, back, rfl, own, absent⟩ := ih before
          refine ⟨found, front, back ++ [last], by simp, own, ?_⟩
          intro later inside
          rcases List.mem_append.mp inside with old | new
          · exact absent later old
          · rw [List.mem_singleton.mp new]
            exact same
        · rw [List.mem_singleton.mp here] at matching
          exact absurd matching same

theorem LastListed.mem (listed : LastListed user_list uid user) : user ∈ user_list := by
  obtain ⟨before, after, rfl, _⟩ := listed
  simp

theorem LastListed.matching (listed : LastListed user_list uid user) :
    (user.userID.toNat : Int) = uid := by
  obtain ⟨before, after, _, own, _⟩ := listed
  exact own

theorem LastListed.cons (listed : LastListed user_list uid user) (first : User) :
    LastListed (first :: user_list) uid user := by
  obtain ⟨before, after, rfl, own, absent⟩ := listed
  exact ⟨first :: before, after, rfl, own, absent⟩

theorem lastListed_or_absent (user_list : List User) (uid : Int) :
    (∃ user, LastListed user_list uid user) ∨
      ∀ user ∈ user_list, (user.userID.toNat : Int) ≠ uid := by
  by_cases listed : ∃ user ∈ user_list, (user.userID.toNat : Int) = uid
  · obtain ⟨user, member, matching⟩ := listed
    exact Or.inl (exists_lastListed member matching)
  · exact Or.inr fun user member matching => listed ⟨user, member, matching⟩

end Owner

end OneFass.Pm
