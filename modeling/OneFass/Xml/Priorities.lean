import OneFass.Xml.Markup
import OneFass.Xml.VMObject

set_option autoImplicit false

namespace OneFass.Xml

open Runtime

namespace XmlNode

def without (name : Name) : XmlNode → XmlNode
  | null => null
  | element own attributes children next =>
      if own = name then without name next else element own attributes children (without name next)
  | text content next => text content (without name next)
  | cdata content next => cdata content (without name next)

variable {name : Name}

@[simp] theorem without_append (first second : XmlNode) :
    without name (first ++ second) = without name first ++ without name second := by
  induction first with
  | null => rfl
  | element own attributes children next _ ih =>
      simp only [element_append, without, ih]
      split_ifs <;> rfl
  | text content next ih => simp only [text_append, without, ih]
  | cdata content next ih => simp only [cdata_append, without, ih]

@[simp] theorem named_without (siblings : XmlNode) : named name (without name siblings) = [] := by
  induction siblings with
  | null => rfl
  | element own attributes children next _ ih =>
      simp only [without]
      split_ifs with same
      · exact ih
      · simp [named, same, ih]
  | text content next ih => exact ih
  | cdata content next ih => exact ih

theorem without_of_absent {siblings : XmlNode} (absent : named name siblings = []) :
    without name siblings = siblings := by
  induction siblings with
  | null => rfl
  | element own attributes children next _ ih =>
      by_cases same : own = name
      · simp [named, same] at absent
      · simp only [named, same, ↓reduceIte] at absent
        simp only [without, same, ↓reduceIte, ih absent]
  | text content next ih => rw [without, ih absent]
  | cdata content next ih => rw [without, ih absent]

theorem first_named {siblings : XmlNode} (present : named name siblings ≠ []) :
    ∃ before attributes children after,
    siblings = before ++ element name attributes children after ∧
      named name before = [] := by
  induction siblings with
  | null => exact absurd rfl present
  | element own attributes children next _ ih =>
      by_cases same : own = name
      · subst same
        exact ⟨null, attributes, children, next, rfl, rfl⟩
      · simp only [named, same, ↓reduceIte] at present
        obtain ⟨before, own', children', after, rfl, absent⟩ := ih present
        exact ⟨element own attributes children before, own', children', after, rfl,
          by simp [named, same, absent]⟩
  | text content next ih =>
      obtain ⟨before, own, children, after, rfl, absent⟩ := ih present
      exact ⟨text content before, own, children, after, rfl, absent⟩
  | cdata content next ih =>
      obtain ⟨before, own, children, after, rfl, absent⟩ := ih present
      exact ⟨cdata content before, own, children, after, rfl, absent⟩

theorem append_eq_append {first second third fourth : XmlNode}
    (same : first ++ second = third ++ fourth) :
    ∃ middle, (third = first ++ middle ∧ second = middle ++ fourth) ∨
      (first = third ++ middle ∧ fourth = middle ++ second) := by
  induction first generalizing third with
  | null => exact ⟨third, Or.inl ⟨rfl, same⟩⟩
  | element name attributes children next _ ih =>
      cases third <;> simp only [element_append, text_append, cdata_append, reduceCtorEq,
        element.injEq] at same
      case null => exact ⟨_, Or.inr ⟨rfl, same.symm⟩⟩
      case element =>
        obtain ⟨rfl, rfl, rfl, tails⟩ := same
        obtain ⟨middle, ⟨rfl, rest⟩ | ⟨rfl, rest⟩⟩ := ih tails
        · exact ⟨middle, Or.inl ⟨rfl, rest⟩⟩
        · exact ⟨middle, Or.inr ⟨rfl, rest⟩⟩
  | text content next ih =>
      cases third <;> simp only [element_append, text_append, cdata_append, reduceCtorEq,
        text.injEq] at same
      case null => exact ⟨_, Or.inr ⟨rfl, same.symm⟩⟩
      case text =>
        obtain ⟨rfl, tails⟩ := same
        obtain ⟨middle, ⟨rfl, rest⟩ | ⟨rfl, rest⟩⟩ := ih tails
        · exact ⟨middle, Or.inl ⟨rfl, rest⟩⟩
        · exact ⟨middle, Or.inr ⟨rfl, rest⟩⟩
  | cdata content next ih =>
      cases third <;> simp only [element_append, text_append, cdata_append, reduceCtorEq,
        cdata.injEq] at same
      case null => exact ⟨_, Or.inr ⟨rfl, same.symm⟩⟩
      case cdata =>
        obtain ⟨rfl, tails⟩ := same
        obtain ⟨middle, ⟨rfl, rest⟩ | ⟨rfl, rest⟩⟩ := ih tails
        · exact ⟨middle, Or.inl ⟨rfl, rest⟩⟩
        · exact ⟨middle, Or.inr ⟨rfl, rest⟩⟩

end XmlNode

def withoutPriority : XmlNode → XmlNode
  | .null => .null
  | .element name attributes children next =>
      .element name attributes
        (if name = .userTemplate then children.without .userPriority else children)
          (withoutPriority next)
  | .text content next => .text content (withoutPriority next)
  | .cdata content next => .cdata content (withoutPriority next)

def priorities (children : XmlNode) : List XmlNode :=
  XmlNode.select [.userTemplate, .userPriority] children

section Priorities

open XmlNode

theorem priorities_template (attributes : Attributes) (children next : XmlNode) :
    priorities (.element .userTemplate attributes children next) =
      children.named .userPriority ++ priorities next := by
  simp [priorities, select, named, XmlNode.children]

theorem priorities_element {name : Name} (other : name ≠ .userTemplate) (attributes : Attributes)
    (children next : XmlNode) :
    priorities (.element name attributes children next) = priorities next := by
  simp [priorities, select, named, other]

@[simp] theorem priorities_append (first second : XmlNode) :
    priorities (first ++ second) = priorities first ++ priorities second := by
  simp [priorities, select]

@[simp] theorem withoutPriority_append (first second : XmlNode) :
    withoutPriority (first ++ second) = withoutPriority first ++ withoutPriority second := by
  induction first with
  | null => rfl
  | element name attributes children next _ ih => simp only [element_append, withoutPriority, ih]
  | text content next ih => simp only [text_append, withoutPriority, ih]
  | cdata content next ih => simp only [cdata_append, withoutPriority, ih]

theorem withoutPriority_of_none {children : XmlNode} (none : priorities children = []) :
    withoutPriority children = children := by
  induction children with
  | null => rfl
  | element name attributes inner next _ ih =>
      by_cases template : name = .userTemplate
      · subst template
        rw [priorities_template, List.append_eq_nil_iff] at none
        simp only [withoutPriority, ↓reduceIte, without_of_absent none.1, ih none.2]
      · rw [priorities_element template] at none
        simp only [withoutPriority, template, ↓reduceIte, ih none]
  | text content next ih => rw [withoutPriority, ih none]
  | cdata content next ih => rw [withoutPriority, ih none]

@[simp] theorem priorities_withoutPriority (children : XmlNode) :
    priorities (withoutPriority children) = [] := by
  induction children with
  | null => rfl
  | element name attributes inner next _ ih =>
      by_cases template : name = .userTemplate
      · subst template
        simp only [withoutPriority, ↓reduceIte, priorities_template, named_without, ih,
          List.append_nil]
      · simp only [withoutPriority, priorities_element template, ih]
  | text content next ih => exact ih
  | cdata content next ih => exact ih

theorem priorities_singleton {children priority : XmlNode}
    (single : priorities children = [priority]) :
    ∃ before attributes first own content last after,
      children = before ++ .element .userTemplate attributes
      (first ++ .element .userPriority own content last) after ∧
      priority = .element .userPriority own content .null ∧ priorities before = [] ∧
      first.named .userPriority = [] ∧ last.named .userPriority = [] ∧ priorities after = [] := by
  induction children with
  | null => simp [priorities, select, named] at single
  | element name attributes inner next _ ih =>
      by_cases template : name = .userTemplate
      · subst template
        rw [priorities_template] at single
        rcases List.append_eq_singleton_iff.mp single with ⟨absent, later⟩ | ⟨here, none⟩
        · obtain ⟨before, others, first, own, content, last, after, rfl, rfl, clear, rest⟩ :=
            ih later
          refine ⟨.element .userTemplate attributes inner before, others, first, own, content, last,
            after, rfl, rfl, ?_, rest⟩
          rw [priorities_template, absent, clear, List.append_nil]
        · obtain ⟨first, own, content, last, rfl, absent⟩ := first_named (by rw [here]; simp)
          simp only [named_append, absent, named, ↓reduceIte, List.nil_append,
            List.cons.injEq] at here
          exact ⟨.null, attributes, first, own, content, last, next, rfl, here.1.symm, rfl, absent,
            here.2, none⟩
      · rw [priorities_element template] at single
        obtain ⟨before, others, first, own, content, last, after, rfl, rfl, clear, rest⟩ :=
          ih single
        refine ⟨.element name attributes inner before, others, first, own, content, last, after,
          rfl, rfl, ?_, rest⟩
        rw [priorities_element template, clear]
  | text content next ih =>
      obtain ⟨before, others, first, own, inner, last, after, rfl, rfl, clear, rest⟩ := ih single
      exact ⟨.text content before, others, first, own, inner, last, after, rfl, rfl, clear, rest⟩
  | cdata content next ih =>
      obtain ⟨before, others, first, own, inner, last, after, rfl, rfl, clear, rest⟩ := ih single
      exact ⟨.cdata content before, others, first, own, inner, last, after, rfl, rfl, clear, rest⟩

theorem template_of_withoutPriority {children before inner after : XmlNode}
    {attributes : Attributes}
    (same : withoutPriority children = before ++ .element .userTemplate attributes inner after) :
    ∃ first own last, children = first ++ .element .userTemplate attributes own last ∧
      withoutPriority first = before ∧ own.without .userPriority = inner ∧
      withoutPriority last = after := by
  induction before generalizing children with
  | null =>
      cases children <;> simp only [withoutPriority, null_append, reduceCtorEq,
        element.injEq] at same
      obtain ⟨rfl, rfl, rfl, rfl⟩ := same
      exact ⟨.null, _, _, rfl, rfl, rfl, rfl⟩
  | element name others content next _ ih =>
      cases children <;> simp only [withoutPriority, element_append, reduceCtorEq,
        element.injEq] at same
      obtain ⟨rfl, rfl, rfl, tails⟩ := same
      obtain ⟨first, own, last, rfl, rfl, rfl, rfl⟩ := ih tails
      exact ⟨.element _ _ _ first, own, last, rfl, rfl, rfl, rfl⟩
  | text content next ih =>
      cases children <;> simp only [withoutPriority, text_append, reduceCtorEq, text.injEq] at same
      obtain ⟨rfl, tails⟩ := same
      obtain ⟨first, own, last, rfl, rfl, rfl, rfl⟩ := ih tails
      exact ⟨.text _ first, own, last, rfl, rfl, rfl, rfl⟩
  | cdata content next ih =>
      cases children <;> simp only [withoutPriority, cdata_append, reduceCtorEq,
        cdata.injEq] at same
      obtain ⟨rfl, tails⟩ := same
      obtain ⟨first, own, last, rfl, rfl, rfl, rfl⟩ := ih tails
      exact ⟨.cdata _ first, own, last, rfl, rfl, rfl, rfl⟩

end Priorities

section Texts

open XmlNode

theorem without_of_same_text {name : Name} {siblings : XmlNode} {x y : Text}
    (same : serialize siblings ++ '<' :: '/' :: x =
      serialize (siblings.without name) ++ '<' :: '/' :: y) :
    siblings.without name = siblings ∧ x = y := by
  induction siblings with
  | null => simpa [without] using same
  | element own attributes children next _ ih =>
      by_cases left : own = name
      · subst left
        obtain ⟨c, rest, ends, head⟩ := element_head own attributes children next ('<' :: '/' :: x)
        simp only [without, ↓reduceIte, head] at same
        exact absurd same.symm (no_tag_before_end (named_without next) ends)
      · simp only [without, left, ↓reduceIte, serialize, List.append_assoc,
          List.append_cancel_left_eq] at same ⊢
        obtain ⟨kept, rest⟩ := ih same
        exact ⟨by rw [kept], rest⟩
  | text content next ih =>
      simp only [without, serialize, List.append_assoc, List.append_cancel_left_eq] at same ⊢
      obtain ⟨kept, rest⟩ := ih same
      exact ⟨by rw [kept], rest⟩
  | cdata content next ih =>
      simp only [without, serialize, List.append_assoc, List.append_cancel_left_eq] at same ⊢
      obtain ⟨kept, rest⟩ := ih same
      exact ⟨by rw [kept], rest⟩

theorem withoutPriority_of_same_text {children : XmlNode} {x y : Text}
    (same : serialize children ++ x = serialize (withoutPriority children) ++ y) :
    withoutPriority children = children ∧ x = y := by
  induction children with
  | null => simpa [withoutPriority] using same
  | element name attributes inner next _ ih =>
      by_cases template : name = .userTemplate
      · subst template
        simp only [withoutPriority, ↓reduceIte] at same ⊢
        by_cases empty : inner = .null
        · subst empty
          simp only [without, serialize_element_null, List.append_assoc,
            List.append_cancel_left_eq] at same ⊢
          obtain ⟨kept, rest⟩ := ih same
          exact ⟨by rw [kept], rest⟩
        rw [serialize_element _ _ _ empty] at same
        by_cases emptied : inner.without .userPriority = .null
        · rw [emptied, serialize_element_null] at same
          simp only [List.append_assoc] at same
          exact absurd same (startTag_ne_emptyTag _ _ _ _)
        · rw [serialize_element _ _ _ emptied] at same
          simp only [endTag_eq, List.append_assoc, List.cons_append,
            List.append_cancel_left_eq] at same
          obtain ⟨kept, tails⟩ := without_of_same_text same
          obtain ⟨others, rest⟩ := ih
            (List.append_cancel_left (List.cons.inj (List.append_cancel_left tails)).2)
          exact ⟨by rw [kept, others], rest⟩
      · simp only [withoutPriority, template, ↓reduceIte, serialize, List.append_assoc,
          List.append_cancel_left_eq] at same ⊢
        obtain ⟨kept, rest⟩ := ih same
        exact ⟨by rw [kept], rest⟩
  | text content next ih =>
      simp only [withoutPriority, serialize, List.append_assoc,
        List.append_cancel_left_eq] at same ⊢
      obtain ⟨kept, rest⟩ := ih same
      exact ⟨by rw [kept], rest⟩
  | cdata content next ih =>
      simp only [withoutPriority, serialize, List.append_assoc,
        List.append_cancel_left_eq] at same ⊢
      obtain ⟨kept, rest⟩ := ih same
      exact ⟨by rw [kept], rest⟩

theorem userPriority_chars : Name.userPriority.chars = priorityWord := rfl

theorem word_of_named {siblings : XmlNode} (present : siblings.named .userPriority ≠ []) :
    priorityWord <:+: serialize siblings := by
  obtain ⟨before, attributes, children, after, rfl, _⟩ := first_named present
  obtain ⟨c, rest, _, head⟩ := element_head .userPriority attributes children after []
  rw [List.append_nil, userPriority_chars] at head
  rw [serialize_append, head]
  refine ⟨serialize before ++ ['<'], c :: rest, ?_⟩
  simp only [List.append_assoc, List.cons_append, List.nil_append]

theorem word_of_priorities {children : XmlNode} (present : priorities children ≠ []) :
    priorityWord <:+: serialize children := by
  induction children with
  | null => exact absurd rfl present
  | element name attributes inner next _ ih =>
      by_cases later : priorities next = []
      · by_cases template : name = .userTemplate
        · subst template
          rw [priorities_template, later, List.append_nil] at present
          have inhabited : inner ≠ .null := by
            rintro rfl
            exact present rfl
          obtain ⟨front, back, inside⟩ := word_of_named present
          rw [serialize_element _ _ _ inhabited, ← inside]
          exact ⟨startTag .userTemplate attributes ++ front,
            back ++ endTag .userTemplate ++ serialize next, by simp⟩
        · rw [priorities_element template] at present
          exact absurd later present
      · rw [serialize_next]
        exact (ih later).trans (List.suffix_append _ _).isInfix
  | text content next ih => exact (ih present).trans (List.suffix_append _ _).isInfix
  | cdata content next ih => exact (ih present).trans (List.suffix_append _ _).isInfix

end Texts

end OneFass.Xml
