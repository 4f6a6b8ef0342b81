import OneFass.Xml.Node

set_option autoImplicit false

namespace OneFass.Xml

open Runtime

section Names

theorem names_unique {first second x y : Text} {c d : Char} (named : first.all isNameChar = true)
    (other : second.all isNameChar = true) (ends : isNameChar c = false)
    (stops : isNameChar d = false) (same : first ++ c :: x = second ++ d :: y) :
    first = second ∧ c :: x = d :: y := by
  rw [List.all_eq_true] at named other
  have taken := congrArg (List.takeWhile isNameChar) same
  rw [List.takeWhile_append_of_pos named, List.takeWhile_append_of_pos other] at taken
  simp only [List.takeWhile_cons, ends, stops, Bool.false_eq_true, ↓reduceIte,
    List.append_nil] at taken
  subst taken
  exact ⟨rfl, List.append_cancel_left same⟩

theorem Name.chars_ne (name : Name) {c : Char} (foreign : isNameChar c = false) (rest tail : Text) :
    name.chars ++ tail ≠ c :: rest := by
  obtain ⟨chars, nonempty, valid⟩ := name
  cases chars with
  | nil => exact absurd rfl nonempty
  | cons first others =>
      intro same
      simp only [List.cons_append, List.cons.injEq] at same
      simp [same.1, foreign] at valid

theorem Name.eq_of_tag {first second : Name} {x y : Text} {c d : Char} (ends : isNameChar c = false)
    (stops : isNameChar d = false) (same : first.chars ++ c :: x = second.chars ++ d :: y) :
    first = second ∧ c :: x = d :: y := by
  obtain ⟨chars, rest⟩ := names_unique first.valid.2 second.valid.2 ends stops same
  obtain ⟨own, _⟩ := first
  obtain ⟨other, _⟩ := second
  simp only at chars
  subst chars
  exact ⟨rfl, rest⟩

end Names

section Heads

theorem escapeChar_head (c : Char) : ∃ first rest, escapeChar c = first :: rest ∧ first ≠ '<' := by
  by_cases less : c = '<'
  · exact ⟨'&', "lt;".toList, by simp [escapeChar, less], by decide⟩
  by_cases more : c = '>'
  · exact ⟨'&', "gt;".toList, by simp [escapeChar, more], by decide⟩
  by_cases ampersand : c = '&'
  · exact ⟨'&', "amp;".toList, by simp [escapeChar, ampersand], by decide⟩
  by_cases carriage : c = '\r'
  · exact ⟨'&', "#13;".toList, by simp [escapeChar, carriage], by decide⟩
  · exact ⟨c, [], by simp [escapeChar, less, more, ampersand, carriage], less⟩

theorem serialize_element_null (name : Name) (attributes : Attributes) (next : XmlNode) :
    serialize (.element name attributes .null next) = emptyTag name attributes ++ serialize next :=
  rfl

theorem serialize_element {children : XmlNode} (name : Name) (attributes : Attributes)
    (next : XmlNode) (inhabited : children ≠ .null) :
    serialize (.element name attributes children next) =
      startTag name attributes ++ serialize children ++ endTag name ++ serialize next := by
  cases children <;> simp_all [serialize, XmlNode.isNull]

theorem serialize_next (name : Name) (attributes : Attributes) (children next : XmlNode) :
    serialize (.element name attributes children next) =
      serialize (.element name attributes children .null) ++ serialize next := by
  simp [serialize]

theorem endTag_eq (name : Name) : endTag name = '<' :: '/' :: (name.chars ++ ['>']) := rfl

theorem tagHead_append (name : Name) (attributes : Attributes) {c : Char} (rest : Text)
    (ends : isNameChar c = false) :
    ∃ d tail, isNameChar d = false ∧
    tagHead name attributes ++ c :: rest = '<' :: name.chars ++ d :: tail := by
  cases attributes with
  | nil => exact ⟨c, rest, ends, by simp [tagHead]⟩
  | cons pair others =>
      refine ⟨' ', pair.1.chars ++ "=\"".toList ++ pair.2.flatMap escapeAttributeChar ++ ['"'] ++
        others.flatMap attributeText ++ c :: rest, by decide, ?_⟩
      simp [tagHead, attributeText]

theorem element_head (name : Name) (attributes : Attributes) (children next : XmlNode)
    (later : Text) :
    ∃ c rest, isNameChar c = false ∧
      serialize (.element name attributes children next) ++ later =
        '<' :: name.chars ++ c :: rest := by
  by_cases empty : children = .null
  · subst empty
    obtain ⟨c, rest, ends, head⟩ :=
      @tagHead_append name attributes '/' ('>' :: serialize next ++ later) (by decide)
    refine ⟨c, rest, ends, ?_⟩
    rw [← head, serialize_element_null]
    simp [emptyTag]
  · obtain ⟨c, rest, ends, head⟩ :=
      @tagHead_append name attributes '>'
        (serialize children ++ endTag name ++ serialize next ++ later) (by decide)
    refine ⟨c, rest, ends, ?_⟩
    rw [← head, serialize_element name attributes next empty]
    simp [startTag]

theorem element_attribute_head (name : Name) (pair : Name × Text) (others : Attributes)
    (children next : XmlNode) :
    ∃ tail, serialize (.element name (pair :: others) children next) =
      '<' :: name.chars ++ ' ' :: tail := by
  by_cases empty : children = .null
  · rw [empty, serialize_element_null, emptyTag, tagHead, List.flatMap_cons, attributeText]
    simp only [List.append_assoc, List.cons_append]
    exact ⟨_, rfl⟩
  · rw [serialize_element _ _ _ empty, startTag, tagHead, List.flatMap_cons, attributeText]
    simp only [List.append_assoc, List.cons_append]
    exact ⟨_, rfl⟩

theorem startTag_ne_emptyTag (name : Name) (attributes : Attributes) (x y : Text) :
    startTag name attributes ++ x ≠ emptyTag name attributes ++ y := by
  simp [startTag, emptyTag]

theorem cdataText_head (content : CData) :
    cdataText content = '<' :: '!' :: ("[CDATA[".toList ++ content.chars ++ "]]>".toList) := rfl

theorem serialize_eq_nil_of_tag {name : Name} {siblings : XmlNode}
    (absent : siblings.named name = []) {later rest : Text} {c : Char} (ends : isNameChar c = false)
    (same : serialize siblings ++ later = '<' :: name.chars ++ c :: rest) :
    serialize siblings = [] := by
  induction siblings with
  | null => rfl
  | element own attributes children next _ _ =>
      obtain ⟨d, tail, stops, head⟩ := element_head own attributes children next later
      rw [head] at same
      simp only [List.cons_append, List.cons.injEq, true_and] at same
      obtain ⟨rfl, _⟩ := Name.eq_of_tag stops ends same
      simp [XmlNode.named] at absent
  | text content next ih =>
      cases content with
      | nil => exact ih absent same
      | cons first others =>
          obtain ⟨head, tail, escaped, different⟩ := escapeChar_head first
          simp [serialize, escapeText, escaped, different] at same
  | cdata content next _ =>
      rw [serialize, cdataText_head] at same
      simp only [List.cons_append, List.cons.injEq, true_and] at same
      have foreign : isNameChar '!' = false := by decide
      exact absurd same.symm (name.chars_ne foreign _ _)

theorem no_tag_before_end {name : Name} {siblings : XmlNode} (absent : siblings.named name = [])
    {later rest : Text} {c : Char} (ends : isNameChar c = false) :
    serialize siblings ++ '<' :: '/' :: later ≠ '<' :: name.chars ++ c :: rest := by
  intro same
  rw [serialize_eq_nil_of_tag absent ends same] at same
  simp only [List.nil_append, List.cons_append, List.cons.injEq, true_and] at same
  have foreign : isNameChar '/' = false := by decide
  exact name.chars_ne foreign _ _ same.symm

end Heads

section Ends

def Sealed (text : Text) : Prop :=
  ∀ before, text = before ++ ['>'] → ∃ (first name : Text) (c : Char),
    before = first ++ c :: name ∧ name.all isNameChar = true ∧ isNameChar c = false ∧ c ≠ '<'

theorem sealed_nil : Sealed [] := by simp [Sealed]

theorem sealed_tag (first : Text) {name : Text} {c : Char} (named : name.all isNameChar = true)
    (ends : isNameChar c = false) (different : c ≠ '<') : Sealed (first ++ c :: name ++ ['>']) := by
  intro before same
  have cut := List.append_inj_left' same rfl
  exact ⟨first, name, c, cut.symm, named, ends, different⟩

theorem sealed_of_last {text : Text} {last : Char} (other : last ≠ '>') :
    Sealed (text ++ [last]) := by
  intro before same
  have cut := List.append_inj_right' same rfl
  simp [other] at cut

theorem Sealed.append_left {last : Text} (closed : Sealed last) (nonempty : last ≠ [])
    (first : Text) :
    Sealed (first ++ last) := by
  obtain ⟨body, c, rfl⟩ := (List.eq_nil_or_concat last).resolve_left nonempty
  intro before same
  rw [List.concat_eq_append, ← List.append_assoc] at same
  obtain ⟨front, back⟩ := List.append_inj' same rfl
  obtain ⟨start, name, d, rfl, named, ends, different⟩ := closed body (by simpa using back)
  exact ⟨first ++ start, name, d, by rw [← front, List.append_assoc], named, ends, different⟩

theorem Sealed.append {first last : Text} (one : Sealed first) (two : Sealed last) :
    Sealed (first ++ last) := by
  by_cases empty : last = []
  · simpa [empty] using one
  · exact two.append_left empty first

theorem Sealed.not_start {text : Text} (closed : Sealed text) (before : Text) (name : Name) :
    text ≠ before ++ startTag name [] := by
  intro same
  obtain ⟨first, other, c, cut, named, ends, different⟩ :=
    closed (before ++ '<' :: name.chars) (by simp [same, startTag, tagHead])
  have mirrored := congrArg List.reverse cut
  simp only [List.reverse_append, List.reverse_cons, List.append_assoc,
    List.singleton_append] at mirrored
  have stops : isNameChar '<' = false := by decide
  obtain ⟨_, rest⟩ := names_unique (by simpa using name.valid.2)
    (by simpa using named) stops ends mirrored
  exact different (List.cons.inj rest).1.symm

theorem sealed_escapeChar (c : Char) : Sealed (escapeChar c) := by
  by_cases less : c = '<'
  · rw [less]
    exact @sealed_of_last "&lt".toList ';' (by decide)
  by_cases more : c = '>'
  · rw [more]
    exact @sealed_of_last "&gt".toList ';' (by decide)
  by_cases ampersand : c = '&'
  · rw [ampersand]
    exact @sealed_of_last "&amp".toList ';' (by decide)
  by_cases carriage : c = '\r'
  · rw [carriage]
    exact @sealed_of_last "&#13".toList ';' (by decide)
  · have verbatim : escapeChar c = [] ++ [c] := by
      simp [escapeChar, less, more, ampersand, carriage]
    rw [verbatim]
    exact sealed_of_last more

theorem sealed_escapeText (content : Text) : Sealed (escapeText content) := by
  induction content with
  | nil => exact sealed_nil
  | cons c rest ih => exact (sealed_escapeChar c).append ih

theorem sealed_cdataText (content : CData) : Sealed (cdataText content) := by
  have closing : "]]>".toList = [']'] ++ ']' :: [] ++ ['>'] := rfl
  unfold cdataText
  rw [closing, ← List.append_assoc, ← List.append_assoc]
  exact @sealed_tag (_ ++ content.chars ++ [']']) [] ']' rfl (by decide) (by decide)

theorem sealed_serialize (siblings : XmlNode) : Sealed (serialize siblings) := by
  induction siblings with
  | null => exact sealed_nil
  | element name attributes children next _ ih =>
      by_cases empty : children = .null
      · subst empty
        rw [serialize_element_null]
        refine Sealed.append ?_ ih
        have tag : emptyTag name attributes = tagHead name attributes ++ '/' :: [] ++ ['>'] := by
          simp [emptyTag]
        rw [tag]
        exact sealed_tag _ rfl (by decide) (by decide)
      · rw [serialize_element name attributes next empty]
        refine Sealed.append ?_ ih
        have tag : startTag name attributes ++ serialize children ++ endTag name =
            (startTag name attributes ++ serialize children ++ ['<']) ++ '/' :: name.chars ++
              ['>'] := by
          simp [endTag]
        rw [tag]
        exact sealed_tag _ name.valid.2 (by decide) (by decide)
  | text content next ih => exact (sealed_escapeText content).append ih
  | cdata content next ih => exact (sealed_cdataText content).append ih

theorem sealed_startTag (name : Name) {attributes : Attributes} (present : attributes ≠ []) :
    Sealed (startTag name attributes) := by
  rcases List.eq_nil_or_concat attributes with rfl | ⟨others, last, rfl⟩
  · exact absurd rfl present
  · have tag : startTag name (others.concat last) =
        (tagHead name others ++ ' ' :: last.1.chars ++ "=\"".toList ++
          last.2.flatMap escapeAttributeChar) ++
          '"' :: [] ++ ['>'] := by
      simp [startTag, tagHead, attributeText]
    rw [tag]
    exact sealed_tag _ rfl (by decide) (by decide)

end Ends

end OneFass.Xml
