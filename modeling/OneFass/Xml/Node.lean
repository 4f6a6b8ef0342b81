import OneFass.Shared.Runtime

set_option autoImplicit false

namespace OneFass.Xml

open Runtime

def isNameChar (c : Char) : Bool :=
  c.isAlphanum || decide (c ∈ ['.', '-', '_', ':']) || decide (0xB7 ≤ c.toNat)

structure Name where
  chars : Text
  valid : chars ≠ [] ∧ chars.all isNameChar = true
  deriving DecidableEq

-- the content of a CDATA section, which cannot hold the end mark
structure CData where
  chars : Text
  unclosed : ¬ "]]>".toList <:+: chars
  deriving DecidableEq

abbrev Attributes := List (Name × Text)

inductive XmlNode where
  | null
  | element (name : Name) (attributes : Attributes) (children next : XmlNode)
  | text (content : Text) (next : XmlNode)
  | cdata (content : CData) (next : XmlNode)
  deriving DecidableEq

namespace XmlNode

def isNull : XmlNode → Bool
  | null => true
  | _ => false

def children : XmlNode → XmlNode
  | element _ _ children _ => children
  | _ => null

def next : XmlNode → XmlNode
  | element _ _ _ next => next
  | text _ next => next
  | cdata _ next => next
  | null => null

def append : XmlNode → XmlNode → XmlNode
  | null, later => later
  | element name attributes children next, later =>
      element name attributes children (append next later)
  | text content next, later => text content (append next later)
  | cdata content next, later => cdata content (append next later)

instance : Append XmlNode := ⟨append⟩

@[simp] theorem null_append (later : XmlNode) : null ++ later = later := rfl

@[simp] theorem element_append (name : Name) (attributes : Attributes)
    (children next later : XmlNode) :
    element name attributes children next ++ later =
      element name attributes children (next ++ later) := rfl

@[simp] theorem text_append (content : Text) (next later : XmlNode) :
    text content next ++ later = text content (next ++ later) := rfl

@[simp] theorem cdata_append (content : CData) (next later : XmlNode) :
    cdata content next ++ later = cdata content (next ++ later) := rfl

-- `xmlNodeGetContent` of the whole list
def content : XmlNode → Text
  | null => []
  | element _ _ children next => children.content ++ next.content
  | text chars next => chars ++ next.content
  | cdata chars next => chars.chars ++ next.content

def named (name : Name) : XmlNode → List XmlNode
  | null => []
  | element own attributes children next =>
      if own = name then element own attributes children null :: named name next
      else named name next
  | text _ next => named name next
  | cdata _ next => named name next

@[simp] theorem named_append (name : Name) (first second : XmlNode) :
    named name (first ++ second) = named name first ++ named name second := by
  induction first with
  | null => rfl
  | element own attributes children next _ ih =>
      simp only [element_append, named, ih]
      split_ifs <;> rfl
  | text chars next ih => exact ih
  | cdata chars next ih => exact ih

def select : List Name → XmlNode → List XmlNode
  | [], _ => []
  | [name], node => named name node
  | name :: rest, node => (named name node).flatMap fun found => select rest found.children

end XmlNode

theorem mem_named {name : Name} {list node : XmlNode} (member : node ∈ XmlNode.named name list) :
    ∃ attributes children, node = .element name attributes children .null := by
  induction list with
  | null => cases member
  | element own attributes children next _ ih =>
      simp only [XmlNode.named] at member
      split_ifs at member with same
      · rcases List.mem_cons.mp member with rfl | later
        · exact ⟨attributes, children, by rw [same]⟩
        · exact ih later
      · exact ih member
  | text content next ih => exact ih member
  | cdata content next ih => exact ih member

section Serialiser

-- text content: the markup characters become references
def escapeChar (c : Char) : Text :=
  if c = '<' then "&lt;".toList
  else if c = '>' then "&gt;".toList
  else if c = '&' then "&amp;".toList
  else if c = '\r' then "&#13;".toList
  else [c]

def escapeAttributeChar (c : Char) : Text :=
  if c = '"' then "&quot;".toList
  else if c = '\n' then "&#10;".toList
  else if c = '\t' then "&#9;".toList
  else escapeChar c

def escapeText (content : Text) : Text := content.flatMap escapeChar

def attributeText (pair : Name × Text) : Text :=
  ' ' :: pair.1.chars ++ "=\"".toList ++ pair.2.flatMap escapeAttributeChar ++ ['"']

def tagHead (name : Name) (attributes : Attributes) : Text :=
  '<' :: name.chars ++ attributes.flatMap attributeText

def startTag (name : Name) (attributes : Attributes) : Text := tagHead name attributes ++ ['>']

def emptyTag (name : Name) (attributes : Attributes) : Text :=
  tagHead name attributes ++ "/>".toList

def endTag (name : Name) : Text := "</".toList ++ name.chars ++ ['>']

def cdataText (content : CData) : Text := "<![CDATA[".toList ++ content.chars ++ "]]>".toList

/-- An element without children is printed as one self-closed tag, a CDATA section verbatim. -/
def serialize : XmlNode → Text
  | .null => []
  | .element name attributes children next =>
      (if children.isNull then emptyTag name attributes
        else startTag name attributes ++ serialize children ++ endTag name) ++ serialize next
  | .text content next => escapeText content ++ serialize next
  | .cdata content next => cdataText content ++ serialize next

@[simp] theorem serialize_null : serialize .null = [] := rfl

@[simp] theorem serialize_append (first second : XmlNode) :
    serialize (first ++ second) = serialize first ++ serialize second := by
  induction first with
  | null => rfl
  | element name attributes children next _ ih =>
      simp only [XmlNode.element_append, serialize, ih, List.append_assoc]
  | text content next ih => simp only [XmlNode.text_append, serialize, ih, List.append_assoc]
  | cdata content next ih => simp only [XmlNode.cdata_append, serialize, ih, List.append_assoc]

-- `ObjectXML::dump`
def dump (document : XmlNode) : Text :=
  "<?xml version=\"1.0\"?>\n".toList ++ serialize document ++ ['\n']

end Serialiser

section Queries

/-- `ObjectXML::xpaths` for strings: the content of every element that the path reaches. -/
def xpaths (path : List Name) (document : XmlNode) : List Text :=
  (XmlNode.select path document).map XmlNode.content

-- `ObjectXML::xpath`: the first element is read, and the default stands in when that fails
def xpath {α : Type} (read : Text → Option α) (path : List Name) (default : α)
    (document : XmlNode) : α :=
  match xpaths path document with
  | [] => default
  | first :: _ => (read first).getD default

-- the `number()` function of XPath; `none` is the NaN
def xpathNumber (content : Text) : Option ℚ :=
  let isBlank (c : Char) : Bool := decide (c ∈ [' ', '\t', '\n', '\r'])
  let body := content.dropWhile isBlank
  let (negative, rest) :=
    match body with
    | '-' :: tail => (true, tail)
    | _ => (false, body)
  match scanDecimal rest with
  | none => none
  | some (magnitude, tail) =>
      let (exponent, after) :=
        match scanExponent tail with
        | some (exponent, _, after) => (exponent, after)
        | none => (0, tail)
      if after.dropWhile isBlank = [] then
        some ((if negative then -magnitude else magnitude) * 10 ^ exponent)
      else none

def equalsNumber (path : List Name) (value : Int) (node : XmlNode) : Bool :=
  (XmlNode.select path node.children).any fun found => xpathNumber found.content == some (value : ℚ)

end Queries

namespace Name

def vmPool : Name := ⟨"VM_POOL".toList, by decide⟩
def vm : Name := ⟨"VM".toList, by decide⟩
def id : Name := ⟨"ID".toList, by decide⟩
def uid : Name := ⟨"UID".toList, by decide⟩
def gid : Name := ⟨"GID".toList, by decide⟩
def state : Name := ⟨"STATE".toList, by decide⟩
def lcmState : Name := ⟨"LCM_STATE".toList, by decide⟩
def resched : Name := ⟨"RESCHED".toList, by decide⟩
def userTemplate : Name := ⟨"USER_TEMPLATE".toList, by decide⟩
def userPriority : Name := ⟨"USER_PRIORITY".toList, by decide⟩
def staticVm : Name := ⟨"STATIC_VM".toList, by decide⟩
def template : Name := ⟨"TEMPLATE".toList, by decide⟩
def memory : Name := ⟨"MEMORY".toList, by decide⟩
def cpu : Name := ⟨"CPU".toList, by decide⟩
def stime : Name := ⟨"STIME".toList, by decide⟩
def etime : Name := ⟨"ETIME".toList, by decide⟩
def oid : Name := ⟨"OID".toList, by decide⟩
def historyRecords : Name := ⟨"HISTORY_RECORDS".toList, by decide⟩
def history : Name := ⟨"HISTORY".toList, by decide⟩

end Name

end OneFass.Xml
