import OneFass.Pm.Normalisation
import OneFass.Xml.EvalUsage

set_option autoImplicit false

namespace OneFass.Pm

open Runtime OrderedMap ExactPower Xml BasicPlugin AcctPool

theorem divideByShare_defined (ratio : ℚ) (share : Option (FloatValue ℚ)) :
    (∃ effort, divideByShare ratio share = .ok effort) ↔ shareKind share ≠ .undefined := by
  rcases share with _ | _ | negative | share
  · simp [divideByShare, shareKind]
  · simp [divideByShare, shareKind]
  · simp [divideByShare, shareKind]
  · by_cases zero : share = 0 <;> simp [divideByShare, shareKind, zero]

theorem updatePrio_defined {n : Nat} {users : List User} {oid uid plugin_debug : Int}
    (fair : plugin_debug ≠ 0) (enough : 3 ≤ n)
    (carries : ∀ user ∈ users, Carries n user.cpu_usage) :
    (∃ prio, updatePrio (evaluateTotalUsage users) oid (owner users uid) plugin_debug = .ok prio) ↔
      oid ≠ 0 ∧ ∃ user, LastListed users uid user ∧ shareKind user.share ≠ .undefined := by
  constructor
  · rintro ⟨prio, updated⟩
    obtain ⟨h_usage, t_usage, effort, used, _, divided, nonzero, _⟩ :=
      (updatePrio_eq_ok fair).mp updated
    rcases lastListed_or_absent users uid with ⟨user, listed⟩ | absent
    · rw [owner_of_lastListed listed] at divided
      exact ⟨nonzero, user, listed, (divideByShare_defined _ _).mp ⟨effort, divided⟩⟩
    · rw [owner_eq_unset absent] at used
      exact absurd used (userUsage_unset h_usage)
  · rintro ⟨nonzero, user, listed, usable⟩
    have used := userUsage_carries (carries user listed.mem) enough
    cases users with
    | nil => exact absurd listed.mem (by simp)
    | cons first tail =>
        have total := @totalUsage_carries n first tail (carries first List.mem_cons_self) enough
        obtain ⟨effort, divided⟩ := (divideByShare_defined
          (usageRatio (history user.cpu_usage) (history first.cpu_usage)) user.share).mpr usable
        rw [owner_of_lastListed listed]
        exact ⟨_, (updatePrio_eq_ok fair).mpr ⟨_, _, effort, used, total, divided, nonzero, rfl⟩⟩

theorem doPrioritize_defined (narrow : FloatValue Scaled → FloatValue Scaled)
    (user_list : List User) (plugin_debug : Int) (objects : Objects) (priorities : Priorities) :
    (∃ result, doPrioritize narrow user_list plugin_debug objects priorities = .ok result) ↔
      ∀ vm ∈ machines objects, ∃ prio,
        updatePrio (evaluateTotalUsage user_list) vm.oid (owner user_list vm.uid) plugin_debug =
          .ok prio := by
  simp [doPrioritize, prioritizeAll_eq_ok, updateWith_eq_ok]

section Evaluated

variable {f : User → User} (same : ∀ user, (f user).userID = user.userID)
include same

theorem LastListed.map {users : List User} {uid : Int} {user : User}
    (listed : LastListed users uid user) :
    LastListed (users.map f) uid (f user) := by
  obtain ⟨before, after, rfl, own, absent⟩ := listed
  refine ⟨before.map f, after.map f, by simp, by rw [same]; exact own, ?_⟩
  intro later member
  obtain ⟨old, inside, rfl⟩ := List.mem_map.mp member
  rw [same]
  exact absent old inside

theorem lastListed_map_iff {users : List User} {uid : Int} {result : User} :
    LastListed (users.map f) uid result ↔ ∃ user, LastListed users uid user ∧ result = f user := by
  constructor
  · intro listed
    obtain ⟨user, member, rfl⟩ := List.mem_map.mp listed.mem
    have matching := listed.matching
    rw [same] at matching
    obtain ⟨last, lastListed⟩ := exists_lastListed member matching
    have mapped := lastListed.map same
    exact ⟨last, lastListed, (owner_of_lastListed listed).symm.trans (owner_of_lastListed mapped)⟩
  · rintro ⟨user, listed, rfl⟩
    exact listed.map same

end Evaluated

theorem carries_usageMap (n : Nat) (usage : Nat → Usage) : Carries n (usageMap (n + 1) usage) := by
  simp [Carries, Map.keys, entries_usageMap, Function.comp_def]

theorem shareKind_eq_undefined {share : Option (FloatValue ℚ)} (set : share ≠ none) :
    shareKind share = .undefined ↔ share = some (.finite 0) := by
  rcases share with _ | _ | negative | share
  · exact absurd rfl set
  · simp [shareKind]
  · simp [shareKind]
  · by_cases zero : share = 0 <;> simp [shareKind, zero]

theorem priorities_defined_iff (narrow : FloatValue Scaled → FloatValue Scaled) (acct : AcctObjects)
    (users : List User) (time_start time_stop period plugin_debug : Int) (objects : Objects)
    (priorities : Priorities) (fair : plugin_debug ≠ 0)
    (shared : ∀ user ∈ users, user.share ≠ none) :
    ∃ evaluated, evalUsage acct users time_start time_stop period 3 = .ok evaluated ∧
      ((∃ result, doPrioritize narrow evaluated plugin_debug objects priorities = .ok result) ↔
        ∀ vm ∈ machines objects, vm.oid ≠ 0 ∧
          ∃ user, LastListed users vm.uid user ∧ user.share ≠ some (.finite 0)) := by
  refine ⟨_, evalUsage_eq acct users time_start time_stop period 3 (le_refl 3), ?_⟩
  set f := withUsage acct time_start time_stop period (3 + 1 : Int).toNat
  have carries : ∀ user ∈ users.map f, Carries 3 user.cpu_usage := by
    intro user member
    obtain ⟨old, _, rfl⟩ := List.mem_map.mp member
    exact carries_usageMap 3 _
  rw [doPrioritize_defined]
  apply forall₂_congr
  intro vm _
  rw [updatePrio_defined fair (le_refl 3) carries]
  apply and_congr_right
  intro _
  have owners := @lastListed_map_iff f (fun _ => rfl) users vm.uid
  constructor
  · rintro ⟨result, listed, usable⟩
    obtain ⟨user, own, rfl⟩ := owners.mp listed
    exact ⟨user, own, fun zero => usable ((shareKind_eq_undefined (shared user own.mem)).mpr zero)⟩
  · rintro ⟨user, own, nonzero⟩
    exact ⟨f user, owners.mpr ⟨user, own, rfl⟩,
      fun zero => nonzero ((shareKind_eq_undefined (shared user own.mem)).mp zero)⟩

def machineNode (id uid : Text) : XmlNode :=
  .element .vm []
    (.element .id [] (.text id .null) <| .element .uid [] (.text uid .null) <|
      .element .userTemplate [] (.element .memory [] (.text uid .null) .null) .null) .null

def machine (id uid : Text) : VMObject := VMObject.ofNode (machineNode id uid)

def poolOf (vm : VMObject) : Objects := Map.empty.insert vm.oid vm

theorem priorities_defined_iff_sample :
    let pool := poolOf (machine "7".toList "1".toList)
    ∃ evaluated, evalUsage Map.empty [sample 1 0] 20 100 20 3 = .ok evaluated ∧
      ((∃ result, doPrioritize id evaluated 1 pool Map.empty = .ok result) ↔
        ∀ vm ∈ machines pool, vm.oid ≠ 0 ∧
          ∃ user, LastListed [sample 1 0] vm.uid user ∧ user.share ≠ some (.finite 0)) := by
  apply priorities_defined_iff id _ _ 20 100 20 1 _ Map.empty one_ne_zero
  intro user member
  rw [List.mem_singleton.mp member]
  simp [sample]

def orphan : VMObject := machine "7".toList "5".toList

theorem priority_undefined_for_unlisted_owner :
    ∃ evaluated, evalUsage Map.empty [sample 1 0] 20 100 20 3 = .ok evaluated ∧
      ¬ ∃ result, doPrioritize id evaluated 1 (poolOf orphan) Map.empty = .ok result := by
  refine ⟨_, evalUsage_eq Map.empty [sample 1 0] 20 100 20 3 (le_refl 3), ?_⟩
  rw [doPrioritize_defined]
  intro defined
  obtain ⟨prio, updated⟩ := defined orphan List.mem_cons_self
  obtain ⟨h_usage, _, _, used, _⟩ := (updatePrio_eq_ok one_ne_zero).mp updated
  have owned : orphan.uid = 5 := by decide +kernel
  rw [owner_eq_unset (by simp [owned, withUsage, sample])] at used
  exact userUsage_unset h_usage used

end OneFass.Pm
