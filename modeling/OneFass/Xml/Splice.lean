import OneFass.Xml.VMObject

set_option autoImplicit false

namespace OneFass.Xml

open Runtime

section Find

variable {text pattern : Text} {position : Nat}

theorem find_isSome_iff : (find text pattern).isSome = true ↔ pattern <:+: text := by
  have missing := Search.indexOf_eq_none_iff pattern text
  cases found : find text pattern with
  | none =>
      rw [find] at found
      simp [missing.mp found]
  | some position =>
      rw [find] at found
      by_contra absent
      simp only [Option.isSome_some, true_iff] at absent
      rw [missing.mpr absent] at found
      cases found

theorem find_split (found : find text pattern = some position) :
    text = text.take position ++ pattern ++ text.drop (position + pattern.length) := by
  obtain ⟨⟨rest, occurs⟩, _, _⟩ := (Search.indexOf_eq_some_iff pattern text position).mp found
  have tail : rest = text.drop (position + pattern.length) := by
    rw [← List.drop_drop, ← occurs, List.drop_left]
  rw [List.append_assoc, ← tail, occurs, List.take_append_drop]

theorem find_bound (found : find text pattern = some position) :
    position + pattern.length ≤ text.length :=
  Search.indexOf_bound found

end Find

theorem vmOpen_length : vmOpen.length = 4 := by decide
theorem vmClose_length : vmClose.length = 5 := by decide
theorem priorityOpen_length : priorityOpen.length = 15 := by decide
theorem priorityClose_length : priorityClose.length = 16 := by decide
theorem templateOpen_length : templateOpen.length = 15 := by decide

theorem insertAt_eq_ok {text piece result : Text} {position : Nat} :
    insertAt text position piece = .ok result ↔
      position ≤ text.length ∧ text.take position ++ piece ++ text.drop position = result := by
  simp only [insertAt]
  split_ifs with outside
  · simp [outside]
  · simp [not_lt.mp outside]

theorem eraseSpan_keeps {text erased : Text} {start stop : Nat}
    (done : eraseSpan text start stop = .ok erased) :
    start ≤ erased.length := by
  simp only [eraseSpan] at done
  split_ifs at done with outside backwards <;> cases done <;> simp <;> omega

def Spliceable (xml : XmlNode) : Prop :=
  ∃ node, dumpNode xml = .ok node ∧
    if priorityWord <:+: node then priorityOpen <:+: node
    else templateOpen <:+: node ∨ 14 ≤ node.length

theorem setPriority_defined (prio node : Text) :
    (∃ piece, setPriority prio node = .ok piece) ↔
      if priorityWord <:+: node then priorityOpen <:+: node
      else templateOpen <:+: node ∨ 14 ≤ node.length := by
  simp only [setPriority, find_isSome_iff]
  split_ifs with present
  · cases found : find node priorityOpen with
    | none => simp [← find_isSome_iff, found]
    | some start =>
        have bound := find_bound found
        have inside : ¬ node.length < start := by omega
        have erases : ∃ erased, eraseSpan node start (past (find node priorityClose) 16) =
            .ok erased := by
          simp only [eraseSpan, inside, ↓reduceIte]
          split_ifs <;> exact ⟨_, rfl⟩
        obtain ⟨erased, erases⟩ := erases
        simp only [bind_eq_ok, erases, Except.ok.injEq, insertAt_eq_ok, ← find_isSome_iff, found]
        simp [eraseSpan_keeps erases]
  · simp only [insertAt_eq_ok]
    cases found : find node templateOpen with
    | none => simp [← find_isSome_iff, found, past]
    | some start =>
        have bound := find_bound found
        rw [templateOpen_length] at bound
        simp [← find_isSome_iff, found, past, bound]

theorem queueNode_defined (prio : Text) (vm : VMObject) :
    (∃ piece, queueNode prio vm = .ok piece) ↔ Spliceable vm.xml := by
  simp only [queueNode, bind_eq_ok, Spliceable, ← setPriority_defined prio]
  constructor
  · rintro ⟨piece, node, dumped, spliced⟩
    exact ⟨node, dumped, piece, spliced⟩
  · rintro ⟨node, dumped, piece, spliced⟩
    exact ⟨piece, node, dumped, spliced⟩

theorem queueNode_length {prio piece : Text} {vm : VMObject}
    (queued : queueNode prio vm = .ok piece) :
    0 < piece.length := by
  have long : 0 < (prioNode prio).length := by simp [prioNode, priorityOpen_length]
  have inserted {text : Text} {position : Nat}
    (done : insertAt text position (prioNode prio) = .ok piece) :
      0 < piece.length := by
    obtain ⟨_, rfl⟩ := insertAt_eq_ok.mp done
    simp only [List.length_append]
    omega
  obtain ⟨node, _, spliced⟩ := bind_eq_ok.mp queued
  simp only [setPriority] at spliced
  split_ifs at spliced
  · split at spliced
    · cases spliced
    · obtain ⟨erased, _, done⟩ := bind_eq_ok.mp spliced
      exact inserted done
  · exact inserted spliced

end OneFass.Xml
