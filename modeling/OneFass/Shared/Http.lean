import OneFass.Shared.Decimal

set_option autoImplicit false

namespace Http

open Runtime

abbrev Field := Text × Text

structure Request where
  method : Text
  target : Text
  version : Text
  fields : List Field
  body : Text
  deriving DecidableEq

def newline : Text := ['\r', '\n']

def fieldLine (field : Field) : Text := field.1 ++ ':' :: ' ' :: field.2

def Request.requestLine (request : Request) : Text :=
  request.method ++ ' ' :: (request.target ++ ' ' :: request.version)

def Request.text (request : Request) : Text :=
  request.requestLine ++ newline ++
    (request.fields.flatMap (fieldLine · ++ newline) ++ newline ++ request.body)

def readLine : Text → Option (Text × Text)
  | '\r' :: '\n' :: rest => some ([], rest)
  | c :: rest => (readLine rest).map fun (line, rest) => (c :: line, rest)
  | [] => none

def beforeColon (c : Char) : Bool := decide (c ≠ ':')

def readField (line : Text) : Option Field :=
  match line.dropWhile beforeColon with
  | [] => none
  | _ :: value => some (line.takeWhile beforeColon, value.dropWhile (· == ' '))

-- every line takes at least the two characters of its end
def readFields : Nat → Text → Option (List Field × Text)
  | 0, _ => none
  | rounds + 1, text => do
      let (line, rest) ← readLine text
      if line = [] then return ([], rest)
      let field ← readField line
      let (fields, rest) ← readFields rounds rest
      return (field :: fields, rest)

def contentLength : Text := "content-length".toList

def lengthOf (fields : List Field) : Option Text :=
  (fields.find? fun field => field.1.map Char.toLower = contentLength).map Prod.snd

def readBody (fields : List Field) (rest : Text) : Option (Text × Text) :=
  match lengthOf fields with
  | none => some ([], rest)
  | some digits => do
      let length ← integerText digits
      if 0 ≤ length ∧ length.toNat ≤ rest.length then
        return (rest.take length.toNat, rest.drop length.toNat)
      else none

def readRequest (text : Text) : Option (Request × Text) := do
  let (line, rest) ← readLine text
  let (fields, rest) ← readFields (rest.length + 1) rest
  let (body, rest) ← readBody fields rest
  match line.splitOn ' ' with
  | [method, target, version] => return (⟨method, target, version, fields, body⟩, rest)
  | _ => none

structure Request.WellFormed (request : Request) : Prop where
  words : ∀ word ∈ [request.method, request.target, request.version], ' ' ∉ word ∧ '\r' ∉ word
  names : ∀ field ∈ request.fields, ':' ∉ field.1 ∧ '\r' ∉ field.1
  values : ∀ field ∈ request.fields, field.2.head? ≠ some ' ' ∧ '\r' ∉ field.2
  framed : lengthOf request.fields = some (decimal request.body.length) ∨
    lengthOf request.fields = none ∧ request.body = []

theorem readLine_newline {line : Text} (single : '\r' ∉ line) (rest : Text) :
    readLine (line ++ newline ++ rest) = some (line, rest) := by
  induction line with
  | nil => rfl
  | cons c line ih =>
      obtain ⟨other, later⟩ := not_or.mp (mt List.mem_cons.mpr single)
      rw [List.cons_append, List.cons_append, readLine, ih later]
      · rfl
      · intro _ same
        exact absurd same.symm other

section Fields

variable {field : Field}

theorem fieldLine_ne_nil (field : Field) : fieldLine field ≠ [] := by
  rw [fieldLine]
  exact List.append_ne_nil_of_right_ne_nil _ (List.cons_ne_nil _ _)

theorem readField_fieldLine (name : ':' ∉ field.1) (value : field.2.head? ≠ some ' ') :
    readField (fieldLine field) = some field := by
  have before : ∀ c ∈ field.1, beforeColon c = true := by
    intro c member
    exact decide_eq_true fun same => name (same ▸ member)
  have after : field.2.dropWhile (· == ' ') = field.2 := by
    cases value' : field.2 with
    | nil => rfl
    | cons c rest =>
        rw [value', List.head?_cons, ne_eq, Option.some.injEq] at value
        simp [value]
  have skipped : (fieldLine field).dropWhile beforeColon = ':' :: ' ' :: field.2 := by
    rw [fieldLine, List.dropWhile_append_of_pos before]
    rfl
  have taken : (fieldLine field).takeWhile beforeColon = field.1 := by
    rw [fieldLine, List.takeWhile_append_of_pos before]
    exact List.append_nil _
  rw [readField, skipped, taken]
  simp [after]

theorem readFields_block {fields : List Field}
    (names : ∀ field ∈ fields, ':' ∉ field.1 ∧ '\r' ∉ field.1)
    (values : ∀ field ∈ fields, field.2.head? ≠ some ' ' ∧ '\r' ∉ field.2) (rest : Text) :
    ∀ rounds, fields.length < rounds →
      readFields rounds (fields.flatMap (fieldLine · ++ newline) ++ newline ++ rest) =
        some (fields, rest) := by
  induction fields with
  | nil =>
      intro rounds enough
      obtain ⟨rounds, rfl⟩ := Nat.exists_eq_add_one_of_ne_zero (Nat.ne_of_gt enough)
      rfl
  | cons field fields ih =>
      intro rounds enough
      obtain ⟨rounds, rfl⟩ := Nat.exists_eq_add_one_of_ne_zero
        (Nat.ne_of_gt (Nat.zero_lt_of_lt enough))
      obtain ⟨⟨name, single⟩, names⟩ := List.forall_mem_cons.mp names
      obtain ⟨⟨value, whole⟩, values⟩ := List.forall_mem_cons.mp values
      have line : '\r' ∉ fieldLine field := by simp [fieldLine, single, whole]
      have others := ih names values rounds (Nat.lt_of_succ_lt_succ enough)
      have first := readLine_newline line
        (fields.flatMap (fieldLine · ++ newline) ++ newline ++ rest)
      rw [List.flatMap_cons, readFields]
      simp only [List.append_assoc] at first others ⊢
      simp only [first, bind, Option.bind, fieldLine_ne_nil, ↓reduceIte,
          readField_fieldLine name value, others, pure]

theorem length_le_lines (fields : List Field) :
    fields.length ≤ (fields.flatMap (fieldLine · ++ newline)).length := by
  induction fields with
  | nil => exact Nat.le_refl 0
  | cons field fields ih =>
      rw [List.flatMap_cons, List.length_append, List.length_append, List.length_cons]
      have ends : newline.length = 2 := rfl
      omega

end Fields

theorem readBody_framed {fields : List Field} {body : Text}
    (framed : lengthOf fields = some (decimal body.length) ∨ lengthOf fields = none ∧ body = [])
    (later : Text) :
    readBody fields (body ++ later) = some (body, later) := by
  rcases framed with told | ⟨untold, rfl⟩
  · simp [readBody, told, integerText_decimal]
  · simp [readBody, untold]

theorem readRequest_text {request : Request} (wellFormed : request.WellFormed) (later : Text) :
    readRequest (request.text ++ later) = some (request, later) := by
  obtain ⟨words, names, values, framed⟩ := wellFormed
  simp only [List.forall_mem_cons] at words
  obtain ⟨⟨method, m⟩, ⟨target, t⟩, ⟨version, v⟩, _⟩ := words
  have line : '\r' ∉ request.requestLine := by simp [Request.requestLine, m, t, v]
  have split : request.requestLine.splitOn ' ' =
      [request.method, request.target, request.version] := by
    rw [Request.requestLine, List.splitOn_append_cons_self_of_not_mem method,
      List.splitOn_append_cons_self_of_not_mem target, List.splitOn_eq_singleton version]
  have first := readLine_newline line
    (request.fields.flatMap (fieldLine · ++ newline) ++ newline ++ (request.body ++ later))
  have block := readFields_block names values (request.body ++ later)
    ((request.fields.flatMap (fieldLine · ++ newline) ++ newline ++
        (request.body ++ later)).length + 1) (by
      have lines := length_le_lines request.fields
      simp only [List.length_append]
      omega)
  rw [readRequest, Request.text]
  simp only [List.append_assoc] at first block ⊢
  simp only [first, bind, Option.bind, block, readBody_framed framed later, split, pure]

end Http
