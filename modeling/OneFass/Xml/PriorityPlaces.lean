import OneFass.Xml.PriorityEdit

set_option autoImplicit false

namespace OneFass.Xml

open Runtime XmlNode

section Unique

variable {prio node piece : Text}

def Cuts (node front back : Text) : Prop :=
  (¬ priorityWord <:+: node ∧ node = front ++ back ∧
    front.length = past (find node templateOpen) 15) ∨
    ∃ start, find node priorityOpen = some start ∧ front = node.take start ∧
      back = behind node start (past (find node priorityClose) 16)

theorem setPriority_eq_ok (done : setPriority prio node = .ok piece) :
    ∃ front back, piece = front ++ prioNode prio ++ back ∧ Cuts node front back := by
  by_cases present : priorityWord <:+: node
  · cases found : find node priorityOpen with
    | none =>
        rw [setPriority, if_pos (find_isSome_iff.mpr present), found] at done
        cases done
    | some start =>
        rw [setPriority_replace found] at done
        cases done
        exact ⟨_, _, rfl, Or.inr ⟨start, found, rfl, rfl⟩⟩
  · rw [setPriority, if_neg (by rwa [find_isSome_iff]), insertAt_eq_ok] at done
    obtain ⟨inside, rfl⟩ := done
    exact ⟨_, _, rfl, Or.inl ⟨present, (List.take_append_drop _ _).symm, by simp [inside]⟩⟩

theorem Plain.notMem (plain : Plain prio) : '<' ∉ prio := by
  intro member
  exact absurd (plain '<' member) (by decide)

theorem prioNode_unbordered (plain : Plain prio) : Search.Unbordered (prioNode prio) := by
  intro front back split started ended border
  have opening : '<' ∉ "USER_PRIORITY>".toList ++ prio := by
    rw [List.mem_append, not_or]
    exact ⟨by decide, plain.notMem⟩
  have closing : '<' ∉ "/USER_PRIORITY>".toList := by decide
  have shape : prioNode prio =
      '<' :: (("USER_PRIORITY>".toList ++ prio) ++ '<' :: "/USER_PRIORITY>".toList) := by
    rw [List.append_assoc]
    rfl
  obtain ⟨head, skipped, rfl⟩ := List.exists_cons_of_ne_nil started
  obtain ⟨first, rest, rfl⟩ := List.exists_cons_of_ne_nil ended
  rw [shape] at border split
  obtain ⟨rfl, inner⟩ := List.cons_prefix_cons.mp border
  have tails := (List.cons.inj split).2
  obtain ⟨_, _, rfl⟩ := (List.append_cons_inj_of_notMem opening closing).mp tails
  obtain ⟨later, again⟩ := inner
  exact absurd (List.cons.inj again).1 (by decide)

theorem behind_suffix (node : Text) (start stop : Nat) : behind node start stop <:+ node := by
  simp only [behind]
  split_ifs
  · exact List.nil_suffix
  · exact List.drop_suffix _ _

theorem Cuts.parts {front back : Text} (cuts : Cuts node front back) :
    front <+: node ∧ back <:+ node := by
  rcases cuts with ⟨_, rfl, _⟩ | ⟨start, _, rfl, rfl⟩
  · exact ⟨List.prefix_append _ _, List.suffix_append _ _⟩
  · exact ⟨List.take_prefix _ _, behind_suffix _ _ _⟩

end Unique

section Cancel

variable {before first last after own inner later : XmlNode} {attributes : Attributes}
    {rest tail : Text}

theorem onwards_eq (last after : XmlNode) :
    onwards last after = serialize last ++
      '<' :: '/' :: (Name.userTemplate.chars ++ '>' :: (serialize after ++ vmClose)) := by
  simp [onwards, endTag_eq]

theorem onwards_null_eq (last after : XmlNode) :
    onwards last after = serialize last ++ onwards .null after := by
  simp [onwards]

theorem before_of_text (lost : withoutPriority first = before)
    (same : machineText (first ++ .element .userTemplate attributes own later) =
      upTo before attributes inner ++ rest) :
    first = before ∧ own ≠ .null ∧ serialize own ++ onwards .null later =
      serialize inner ++ rest := by
  rw [machineText_eq (by cases first <;> simp), serialize_append] at same
  simp only [upTo, List.append_assoc, List.append_cancel_left_eq] at same
  rw [← lost] at same
  obtain ⟨kept, text⟩ := withoutPriority_of_same_text same
  have inhabited : own ≠ .null := by
    rintro rfl
    rw [serialize_element_null, List.append_assoc] at text
    exact startTag_ne_emptyTag _ _ _ _ text.symm
  refine ⟨kept.symm.trans lost, inhabited, ?_⟩
  rw [serialize_element _ _ _ inhabited] at text
  simp only [List.append_assoc, List.append_cancel_left_eq] at text
  rw [← text]
  simp [onwards]

theorem after_of_text (kept : own.without .userPriority = first ++ last)
    (lost : withoutPriority later = after)
    (same : serialize own ++ onwards .null later =
      serialize first ++ (onwards last after ++ tail)) :
    own = first ++ last ∧ later = after ∧ tail = [] := by
  rw [onwards_null_eq last, ← List.append_assoc, ← List.append_assoc, ← serialize_append, ← kept,
    onwards_eq, onwards_eq] at same
  simp only [serialize_null, List.nil_append, List.append_assoc, List.cons_append] at same
  obtain ⟨whole, text⟩ := without_of_same_text same
  rw [List.append_cancel_left_eq, List.cons.injEq, ← lost] at text
  obtain ⟨others, ends⟩ := withoutPriority_of_same_text text.2
  refine ⟨whole.symm.trans kept, others.symm.trans lost, ?_⟩
  simpa using ends

theorem priorityOpen_eq (later : Text) :
    priorityOpen ++ later = '<' :: Name.userPriority.chars ++ '>' :: later :=
  List.append_assoc ('<' :: priorityWord) ['>'] later

theorem priority_of_text {content next : XmlNode} {others : Attributes} {x y : Text}
    (same : serialize (.element .userPriority others content next) ++ x = priorityOpen ++ y) :
    others = [] := by
  cases others with
  | nil => rfl
  | cons pair more =>
      obtain ⟨tail, shape⟩ := element_attribute_head .userPriority pair more content next
      rw [shape, priorityOpen_eq, List.append_assoc, List.append_cancel_left_eq, List.cons_append,
        List.cons.injEq] at same
      exact absurd same.1 (by decide)

theorem priority_of_place (kept : own.without .userPriority = first ++ last)
    (absentFirst : first.named .userPriority = []) (absentLast : last.named .userPriority = [])
    (same : serialize own ++ onwards .null later = serialize first ++ (priorityOpen ++ rest)) :
    ∃ front content back, own = front ++ .element .userPriority [] content back ∧
    front.named .userPriority = [] ∧
      serialize front = serialize first ∧
      serialize (back.without .userPriority) = serialize last := by
  have closes : isNameChar '>' = false := by decide
  by_cases absent : own.named .userPriority = []
  · -- without a priority the end tag of the template would have to look like one
    rw [← without_of_absent absent, kept, serialize_append, List.append_assoc,
      List.append_cancel_left_eq, onwards_eq, priorityOpen_eq] at same
    exact absurd same (no_tag_before_end absentLast closes)
  obtain ⟨front, others, content, back, rfl, absentFront⟩ := first_named absent
  simp only [without_append, without, ↓reduceIte, without_of_absent absentFront] at kept
  rw [serialize_append, List.append_assoc] at same
  obtain ⟨c, tail, ends, head⟩ := element_head .userPriority others content back
    (onwards .null later)
  obtain ⟨middle, ⟨rfl, others'⟩ | ⟨rfl, others'⟩⟩ := append_eq_append kept
  · rw [serialize_append, List.append_assoc, List.append_cancel_left_eq] at same
    rw [named_append, List.append_eq_nil_iff] at absentFirst
    have nothing := serialize_eq_nil_of_tag absentFirst.2 ends (same.symm.trans head)
    rw [nothing, List.nil_append] at same
    obtain rfl := priority_of_text same
    exact ⟨front, content, back, rfl, absentFront, by simp [nothing], by simp [others', nothing]⟩
  · rw [serialize_append, List.append_assoc, List.append_cancel_left_eq] at same
    rw [named_append, List.append_eq_nil_iff] at absentFront
    have nothing := serialize_eq_nil_of_tag absentFront.2 closes (same.trans (priorityOpen_eq rest))
    rw [nothing, List.nil_append] at same
    obtain rfl := priority_of_text same
    refine ⟨first ++ middle, content, back, rfl, ?_, by simp [nothing], by simp [others', nothing]⟩
    simp [absentFirst, absentFront.2]

end Cancel

section Places

variable {children : XmlNode} {prio : Text}

theorem find_outside {text tag : Text} {start stop : Nat}
    (opened : find text priorityOpen = some start) (there : tag <+: text.drop stop)
    (clear : ∀ k < tag.length, ¬ priorityOpen <+: tag.drop k ∧ ¬ tag.drop k <+: priorityOpen) :
    start < stop ∨ stop + tag.length ≤ start := by
  by_contra inside
  rw [not_or, not_lt, not_le] at inside
  obtain ⟨k, rfl⟩ := Nat.exists_eq_add_of_le inside.1
  obtain ⟨opening, _, _⟩ := (Search.indexOf_eq_some_iff _ _ _).mp opened
  rw [← List.drop_drop] at opening
  obtain ⟨noneHere, noneBeyond⟩ := clear k (by omega)
  rcases List.prefix_or_prefix_of_prefix opening (there.drop k) with short | long
  · exact noneHere short
  · exact noneBeyond long

theorem upTo_length (before : XmlNode) (attributes : Attributes) (first : XmlNode) :
    19 ≤ (upTo before attributes first).length := by
  have long : Name.userTemplate.chars.length = 13 := by decide
  simp only [upTo, startTag, tagHead, List.length_append, List.length_cons, vmOpen_length, long]
  omega

theorem onwards_ne_nil (last after : XmlNode) : onwards last after ≠ [] := by
  simp [onwards, vmClose]

theorem template_of_upTo {before first : XmlNode} {attributes : Attributes} {earlier : Text}
    (same : upTo before attributes first = earlier ++ templateOpen) :
    attributes = [] ∧ serialize first = [] := by
  by_cases empty : serialize first = []
  · by_cases none : attributes = []
    · exact ⟨none, empty⟩
    have closed : Sealed (upTo before attributes first) := by
      rw [upTo, empty, List.append_nil]
      exact (sealed_startTag _ none).append_left (by simp [startTag]) _
    exact absurd same (closed.not_start earlier .userTemplate)
  · have closed : Sealed (upTo before attributes first) :=
      (sealed_serialize first).append_left empty _
    exact absurd same (closed.not_start earlier .userTemplate)

theorem SetsPriority.cuts (plain : Plain prio) (fresh : ¬ prioNode prio <:+: machineText children)
    (sets : SetsPriority [] children prio) :
    ∃ before attributes first last after close node tail,
      withoutPriority children = before ++ .element .userTemplate attributes (first ++ last) after ∧
      priorities before = [] ∧ first.named .userPriority = [] ∧ last.named .userPriority = [] ∧
      find (machineText children) vmClose = some close ∧ machineText children = node ++ tail ∧
      node.length = close + 5 ∧ Cuts node (upTo before attributes first) (onwards last after) := by
  obtain ⟨edited, queued, single, same⟩ := sets
  obtain ⟨before, attributes, first, own, content, last, after, rfl, shape, noneBefore, absentFirst,
    absentLast, noneAfter⟩ := priorities_singleton single
  simp only [priorityElement, element.injEq, true_and, and_true] at shape
  obtain ⟨rfl, rfl⟩ := shape
  have lost : withoutPriority children =
      before ++ .element .userTemplate attributes (first ++ last) after := by
    rw [← same]
    simp [withoutPriority, without, withoutPriority_of_none noneBefore,
      withoutPriority_of_none noneAfter,
      without_of_absent absentFirst, without_of_absent absentLast]
  have inhabited : children ≠ .null := by
    rintro rfl
    cases before <;> simp [withoutPriority] at lost
  have closes : (find (machineText children) vmClose).isSome = true := by
    rw [find_isSome_iff, machineText_eq inhabited]
    exact (List.suffix_append _ _).isInfix
  obtain ⟨close, found⟩ := Option.isSome_iff_exists.mp closes
  refine ⟨before, attributes, first, last, after, close, (machineText children).take (close + 5),
    (machineText children).drop (close + 5), lost, noneBefore, absentFirst, absentLast, found,
    (List.take_append_drop _ _).symm, take_drop_of_close found, ?_⟩
  rw [queueNode_machine inhabited found] at queued
  have kept : (machineText children).take (close + 5) <:+: machineText children :=
    (List.take_prefix _ _).isInfix
  obtain ⟨front, back, piece, cuts⟩ := setPriority_eq_ok queued
  have inside := cuts.parts
  change machineText _ = _ at piece
  rw [machineText_edited plain] at piece
  have notBefore : ¬ prioNode prio <:+: front :=
    fun again => fresh ((again.trans inside.1.isInfix).trans kept)
  have notAfter : ¬ prioNode prio <:+: back :=
    fun again => fresh ((again.trans inside.2.isInfix).trans kept)
  obtain ⟨rfl, rfl⟩ := (prioNode_unbordered plain).unique notBefore notAfter piece.symm
  exact cuts

section Cut

variable {before first last after : XmlNode} {attributes : Attributes} {close : Nat}
    {node tail : Text}

theorem inserts_of_cut
    (lost : withoutPriority children =
      before ++ .element .userTemplate attributes (first ++ last) after)
    (closed : find (machineText children) vmClose = some close)
    (whole : machineText children = node ++ tail) (length : node.length = close + 5)
    (absent : ¬ priorityWord <:+: node)
    (split : node = upTo before attributes first ++ onwards last after)
    (place : (upTo before attributes first).length = past (find node templateOpen) 15) :
    Inserts children := by
  obtain ⟨earlier, own, later, rfl, lostEarlier, keptOwn, lostLater⟩ :=
    template_of_withoutPriority lost
  rw [split, List.append_assoc] at whole
  obtain ⟨rfl, inhabited, text⟩ := before_of_text lostEarlier whole
  obtain ⟨rfl, rfl, rfl⟩ := after_of_text keptOwn lostLater text
  rw [List.append_nil, ← split] at whole
  have long := upTo_length earlier attributes first
  cases found : find node templateOpen with
  | none =>
      -- npos + 15 wraps to 14, too early for a place in a user template
      simp only [found, past] at place
      omega
  | some position =>
      simp only [found, past] at place
      have cut := find_split found
      have inside := find_bound found
      rw [templateOpen_length] at inside
      have start : upTo earlier attributes first = node.take position ++ templateOpen := by
        refine (List.append_inj (split.symm.trans cut) ?_).1
        rw [place, List.length_append, List.length_take, templateOpen_length]
        omega
      obtain ⟨rfl, empty⟩ := template_of_upTo start
      have opening : (startTag .userTemplate []).length = 15 := by decide
      simp only [upTo, empty, List.append_nil, List.length_append, opening] at place
      refine ⟨by rwa [whole], earlier, first ++ last, later, close, rfl, inhabited, ?_, closed,
        by rw [whole, length]⟩
      rw [whole, found, List.length_append]
      exact congrArg some (by omega)

-- the span that is erased ends with a closing tag behind its start
theorem closing_of_behind {start : Nat} (absentLast : last.named .userPriority = [])
    (late : 15 < start) (opened : find node priorityOpen = some start)
    (back : onwards last after = behind node start (past (find node priorityClose) 16)) :
    ∃ stop, find node priorityClose = some stop ∧ start < stop ∧
    onwards last after = node.drop (stop + 16) := by
  cases ended : find node priorityClose with
  | none =>
      -- npos + 16 wraps to 15, so the erased span ends before it starts
      simp only [ended, behind, past] at back
      rw [if_pos (by omega)] at back
      exact absurd back (onwards_ne_nil _ _)
  | some stop =>
      simp only [ended, behind, past] at back
      by_cases backwards : stop + 16 < start
      · rw [if_pos backwards] at back
        exact absurd back (onwards_ne_nil _ _)
      rw [if_neg backwards] at back
      -- otherwise nothing is erased, and the old priority is still there
      obtain ⟨⟨rest, opening⟩, _, _⟩ := (Search.indexOf_eq_some_iff _ _ _).mp opened
      have apart : start ≠ stop + 16 := by
        rintro rfl
        rw [← opening, onwards_eq, priorityOpen_eq] at back
        exact no_tag_before_end absentLast (by decide) back
      obtain ⟨closing, _, _⟩ := (Search.indexOf_eq_some_iff _ _ _).mp ended
      have outside := find_outside opened closing (by decide)
      rw [priorityClose_length] at outside
      exact ⟨stop, rfl, by omega, back⟩

theorem replaces_of_cut {start : Nat}
    (lost : withoutPriority children =
      before ++ .element .userTemplate attributes (first ++ last) after)
    (noneBefore : priorities before = []) (absentFirst : first.named .userPriority = [])
    (absentLast : last.named .userPriority = [])
    (closed : find (machineText children) vmClose = some close)
    (whole : machineText children = node ++ tail) (length : node.length = close + 5)
    (opened : find node priorityOpen = some start)
    (front : upTo before attributes first = node.take start)
    (back : onwards last after = behind node start (past (find node priorityClose) 16)) :
    Replaces children := by
  obtain ⟨earlier, own, later, rfl, lostEarlier, keptOwn, lostLater⟩ :=
    template_of_withoutPriority lost
  have bound := find_bound opened
  have long := upTo_length before attributes first
  have start_eq : (upTo before attributes first).length = start := by
    rw [front, List.length_take]
    omega
  obtain ⟨stop, ended, order, erased⟩ := closing_of_behind absentLast (by omega) opened back
  obtain ⟨⟨rest, opening⟩, _, _⟩ := (Search.indexOf_eq_some_iff _ _ _).mp opened
  have text := whole
  rw [← List.take_append_drop start node, ← front, ← opening, List.append_assoc,
    List.append_assoc] at text
  obtain ⟨rfl, inhabited, text⟩ := before_of_text lostEarlier text
  obtain ⟨own, content, last', rfl, absentOwn, sameFirst, sameLast⟩ :=
    priority_of_place keptOwn absentFirst absentLast text
  have upTo_eq : upTo earlier attributes own = upTo earlier attributes first := by
    rw [upTo, upTo, sameFirst]
  refine ⟨earlier, attributes, own, content, last', later, stop, close, rfl, noneBefore, absentOwn,
    ?_, ?_, closed, ?_, ?_⟩
  · rw [whole, upTo_eq, start_eq]
    exact Search.indexOf_append tail opened
  · rw [whole]
    exact Search.indexOf_append tail ended
  · rw [upTo_eq, start_eq]
    exact order
  · rw [whole, List.take_left' length, ← erased]
    simp only [onwards, sameLast, lostLater]

end Cut

theorem SetsPriority.places (plain : Plain prio) (fresh : ¬ prioNode prio <:+: machineText children)
    (sets : SetsPriority [] children prio) : Inserts children ∨ Replaces children := by
  obtain ⟨before, attributes, first, last, after, close, node, tail, lost, noneBefore, absentFirst,
    absentLast,
    closed, whole, length, ⟨absent, split, place⟩ | ⟨start, opened, front,
      back⟩⟩ := sets.cuts plain fresh
  · exact Or.inl (inserts_of_cut lost closed whole length absent split place)
  · exact Or.inr (replaces_of_cut lost noneBefore absentFirst absentLast closed whole length opened
      front back)

theorem attributes_eq_nil {attributes : Attributes} {edited : XmlNode}
    (starts : vmOpen <+: serialize (machine attributes edited)) : attributes = [] := by
  cases attributes with
  | nil => rfl
  | cons pair others =>
      obtain ⟨tail, shape⟩ := element_attribute_head .vm pair others edited .null
      obtain ⟨rest, same⟩ := starts
      rw [machine, shape] at same
      exact absurd (List.cons.inj (List.cons.inj (List.cons.inj (List.cons.inj same).2).2).2).1
        (by decide)

theorem SetsPriority.bare {attributes : Attributes} (sets : SetsPriority attributes children prio) :
    attributes = [] := by
  obtain ⟨edited, queued, _, _⟩ := sets
  simp only [queueNode, bind_eq_ok] at queued
  obtain ⟨node, dumped, done⟩ := queued
  have starts := dumpNode_starts dumped
  obtain ⟨front, back, piece, cuts⟩ := setPriority_eq_ok done
  have long : 4 ≤ front.length := by
    rcases cuts with ⟨_, _, place⟩ | ⟨start, opened, rfl, _⟩
    · rw [place]
      cases find node templateOpen <;> simp [past]
    · have bound := find_bound opened
      have outside := @find_outside _ _ _ 0 opened (by simpa using starts) (by decide)
      rw [vmOpen_length] at outside
      rw [List.length_take]
      omega
  apply @attributes_eq_nil _ edited
  rw [piece, List.append_assoc]
  exact (List.prefix_of_prefix_length_le starts cuts.parts.1 (by rwa [vmOpen_length])).trans
    (List.prefix_append _ _)

theorem fresh_priority (text : Text) : ∃ prio, Plain prio ∧ ¬ prioNode prio <:+: text := by
  refine ⟨List.replicate text.length 'x', ?_, ?_⟩
  · intro c member
    rw [List.eq_of_mem_replicate member]
    decide
  · intro inside
    have short := inside.length_le
    simp only [prioNode, List.length_append, List.length_replicate, priorityOpen_length] at short
    omega

def Editable (attributes : Attributes) (children : XmlNode) : Prop :=
  attributes = [] ∧ (Inserts children ∨ Replaces children)

theorem Editable.sets {attributes : Attributes} (editable : Editable attributes children)
    (plain : Plain prio) :
    SetsPriority attributes children prio := by
  obtain ⟨rfl, inserts | replaces⟩ := editable
  · exact inserts.sets plain
  · exact replaces.sets plain

theorem SetsPriority.editable {attributes : Attributes} (plain : Plain prio)
    (fresh : ¬ prioNode prio <:+: serialize (machine attributes children))
    (sets : SetsPriority attributes children prio) : Editable attributes children := by
  obtain rfl := sets.bare
  exact ⟨rfl, sets.places plain fresh⟩

theorem sets_priority_iff (attributes : Attributes) (children : XmlNode) :
    ((∀ prio, Plain prio → SetsPriority attributes children prio) ↔ Editable attributes children) ∧
      ∀ prio, Plain prio → ¬ prioNode prio <:+: serialize (machine attributes children) →
        (SetsPriority attributes children prio ↔ Editable attributes children) := by
  refine ⟨⟨?_, fun editable prio plain => editable.sets plain⟩, ?_⟩
  · intro sets
    obtain ⟨prio, plain, fresh⟩ := fresh_priority (serialize (machine attributes children))
    exact (sets prio plain).editable plain fresh
  · intro prio plain fresh
    exact ⟨SetsPriority.editable plain fresh, fun editable => editable.sets plain⟩

def wordChildren : XmlNode :=
  .element ⟨"NAME".toList, by decide⟩ [] (.text priorityWord .null) <|
    .element .userTemplate [] (.text "x".toList .null) .null

def emptyTemplateChildren : XmlNode :=
  .element .id [] (.text "1".toList .null) <| .element .userTemplate [] .null .null

theorem not_sets_priority_word :
    Plain "0.5".toList ∧ ¬ SetsPriority [] wordChildren "0.5".toList ∧
      ¬ SetsPriority [] emptyTemplateChildren "0.5".toList ∧
      queueNode "0.5".toList (VMObject.ofNode (machine [] wordChildren)) =
        .error (.raised .outOfRange) ∧
      queueNode "0.5".toList (VMObject.ofNode (machine [] emptyTemplateChildren)) =
        .ok "<VM><ID>1</ID><USER_PRIORITY>0.5</USER_PRIORITY><USER_TEMPLATE/></VM>".toList := by
  have plain : Plain "0.5".toList := by
    intro c member
    simp only [String.reduceToList, List.mem_cons, List.not_mem_nil, or_false] at member
    rcases member with rfl | rfl | rfl <;> rfl
  have raised : queueNode "0.5".toList (VMObject.ofNode (machine [] wordChildren)) =
      .error (.raised .outOfRange) := by decide +kernel
  refine ⟨plain, ?_, ?_, raised, by decide +kernel⟩
  · rintro ⟨edited, queued, _⟩
    rw [raised] at queued
    cases queued
  · intro sets
    have template : find (machineText emptyTemplateChildren) templateOpen = none := by
      decide +kernel
    have priority : find (machineText emptyTemplateChildren) priorityOpen = none := by
      decide +kernel
    rcases sets.places plain (by decide +kernel) with ⟨_, _, _, _, _, _, _, found, _⟩
      | ⟨_, _, _, _, _, _, _, _, _, _, _, found, _⟩
    · rw [template] at found
      cases found
    · rw [priority] at found
      cases found

end Places

end OneFass.Xml
