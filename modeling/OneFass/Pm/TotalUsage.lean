import OneFass.Pm.PriorityManager

set_option autoImplicit false

namespace OneFass.Pm

open Runtime OrderedMap ExactPower BasicPlugin

section Totals

def position (usage : Map intOrder Usage) (k : Int) : Option Int :=
  if 0 ≤ k then usage.entries[k.toNat]?.map fun entry => entry.2.usage else none

theorem find_addUsage (count : Nat) (totals : Map intOrder Int) (entries : List (Int × Usage))
    (k : Int) :
    (addUsage count totals entries).find k = (totals.find k).or
      (if (count : Int) ≤ k then entries[(k - count).toNat]?.map fun entry =>
        entry.2.usage else none) := by
  induction entries generalizing count totals with
  | nil => simp [addUsage]
  | cons entry rest ih =>
      simp only [addUsage]
      rw [ih, Map.find_insert intOrder_total]
      by_cases here : k = count
      · subst here
        cases totals.find count <;> simp
      · simp only [here, ↓reduceIte]
        congr 1
        by_cases later : (count : Int) ≤ k
        · have next : ((count + 1 : Nat) : Int) ≤ k := by omega
          have index : (k - count).toNat = (k - (count + 1 : Nat)).toNat + 1 := by omega
          rw [if_pos next, if_pos later, index, List.getElem?_cons_succ]
        · have next : ¬ ((count + 1 : Nat) : Int) ≤ k := by omega
          rw [if_neg next, if_neg later]

def totalOf (select : User → Map intOrder Usage) (users : List User) : Map intOrder Int :=
  users.foldl (fun totals user => addUsage 0 totals (select user).entries) Map.empty

theorem evaluateTotalUsage_eq (users : List User) :
    evaluateTotalUsage users = ⟨totalOf User.cpu_usage users, totalOf User.memory_usage users⟩ := by
  have general (plugin : BasicPlugin) : users.foldl addUser plugin =
      ⟨users.foldl (fun totals user => addUsage 0 totals user.cpu_usage.entries) plugin.tot_cpu,
        users.foldl (fun totals user =>
          addUsage 0 totals user.memory_usage.entries) plugin.tot_mem⟩ := by
    induction users generalizing plugin with
    | nil => rfl
    | cons user rest ih => exact ih (addUser plugin user)
  exact general ⟨Map.empty, Map.empty⟩

theorem find_totalOf (select : User → Map intOrder Usage) (users : List User) (k : Int) :
    (totalOf select users).find k = users.findSome? fun user => position (select user) k := by
  have general (totals : Map intOrder Int) :
      (users.foldl (fun totals user => addUsage 0 totals (select user).entries) totals).find k =
        (totals.find k).or (users.findSome? fun user => position (select user) k) := by
    induction users generalizing totals with
    | nil => simp
    | cons user rest ih =>
        rw [List.foldl_cons, ih, find_addUsage]
        simp only [List.findSome?_cons, position, Nat.cast_zero, sub_zero]
        cases totals.find k with
        | some value => simp
        | none => split_ifs <;> cases user : (select user).entries[k.toNat]? <;> simp
  simpa [totalOf] using general Map.empty

end Totals

section Carried

def Carries (n : Nat) (usage : Map intOrder Usage) : Prop :=
  usage.keys = (List.range (n + 1)).map fun (k : Nat) => (k : Int)

def amount (usage : Map intOrder Usage) (k : Int) : Int := ((usage.find k).map Usage.usage).getD 0

variable {n : Nat} {usage : Map intOrder Usage}

theorem size_of_carries (carries : Carries n usage) : usage.entries.length = n + 1 := by
  simpa [Carries, Map.keys] using congrArg List.length carries

theorem position_of_carries (carries : Carries n usage) {k : Nat} (beyond : n < k) :
    position usage k = none := by
  have outside : usage.entries[k]? = none := by
    rw [List.getElem?_eq_none_iff, size_of_carries carries]
    omega
  simp [position, outside]

theorem find_of_carries (carries : Carries n usage) {k : Nat} (within : k ≤ n) :
    ∃ entry, usage.find k = some entry ∧ entry.usage = amount usage k ∧
      position usage k = some (amount usage k) := by
  have size := size_of_carries carries
  have inside : k < usage.entries.length := by omega
  have key : usage.entries[k].1 = k := by
    have same : usage.keys[k]? = ((List.range (n + 1)).map fun (k : Nat) => (k : Int))[k]? := by
      rw [show usage.keys = _ from carries]
    simpa [Map.keys, inside, show k < n + 1 by omega] using same
  have found : usage.find k = some usage.entries[k].2 := by
    rw [Map.find_eq_some_iff intOrder_total, ← key]
    exact List.getElem_mem inside
  refine ⟨usage.entries[k].2, found, by simp [amount, found], ?_⟩
  simp [position, amount, found, inside]

end Carried

theorem find_totalOf_cons (select : User → Map intOrder Usage) {n k : Nat} (first : User)
    (tail : List User) (carries : Carries n (select first)) (within : k ≤ n) :
    (totalOf select (first :: tail)).find k = some (amount (select first) k) := by
  obtain ⟨_, _, _, here⟩ := find_of_carries carries within
  rw [find_totalOf, List.findSome?_cons, here]

theorem find_totalOf_none (select : User → Map intOrder Usage) {n k : Nat} (users : List User)
    (carries : ∀ user ∈ users, Carries n (select user)) (beyond : n < k) :
    (totalOf select users).find k = none := by
  rw [find_totalOf, List.findSome?_eq_none_iff]
  exact fun user member => position_of_carries (carries user member) beyond

end OneFass.Pm
