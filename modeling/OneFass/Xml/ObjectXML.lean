import OneFass.Shared.Handles
import OneFass.Shared.Machine
import OneFass.Xml.AcctPool

set_option autoImplicit false

namespace OneFass.Xml

open Runtime Client

-- the text that `set_up` passes to the parser, or nothing before an exit with -1
def receive (server : Server) (auth method : Text) (parameters : List Value) :
    Except Fault (Option Text) := do
  let (rc, result) ← tryCall server auth method parameters
  if rc ≠ 0 then return none else readResponse result

structure ObjectXML where
  handles : Handles
  constructed : Bool
  xml : Option Nat
  ctx : Option Nat
  deriving DecidableEq

namespace ObjectXML

def absent : ObjectXML := ⟨Handles.empty, false, none, none⟩

-- `document` and `context` say whether `libxml2` has memory for them
def construct (document context : Bool) (object : ObjectXML) : ObjectXML :=
  if !document then object
  else
    let (xml, handles) := object.handles.allocate
    if !context then { object with handles := handles.release xml }
    else
      let (ctx, handles) := handles.allocate
      ⟨handles, true, some xml, some ctx⟩

def releasePointer (handles : Handles) : Option Nat → Handles
  | none => handles
  | some pointer => handles.release pointer

-- neither pointer is reset
def cleanup (object : ObjectXML) : ObjectXML :=
  { object with handles := releasePointer (releasePointer object.handles object.xml) object.ctx }

def xmlParse (parse : Parser) (xml_doc : Text) (context : Bool) (object : ObjectXML) :
    ObjectXML × Except Fault XmlNode :=
  match parse xml_doc with
  | none =>
      ({ object with xml := none }, .error (.raised (.runtimeError "Error parsing XML Document")))
  | some tree =>
      let (xml, handles) := object.handles.allocate
      if !context then
        ({ object with handles := handles.release xml, xml := some xml, ctx := none },
          .error (.raised (.runtimeError "Unable to create new XPath context")))
      else
        let (ctx, handles) := handles.allocate
        ({ object with handles, xml := some xml, ctx := some ctx }, .ok tree)

def getNodes (object : ObjectXML) : ObjectXML :=
  match object.ctx with
  | none => object
  | some ctx => { object with handles := object.handles.use ctx }

/--
The two `set_up` functions as far as they use the document: `VMPool` makes one query, `AcctPool`
one for each user.
-/
def refresh (parse : Parser) (received : Except Fault (Option Text)) (context : Bool)
    (queries : Nat) (object : ObjectXML) : ObjectXML × Except Fault (Option XmlNode) :=
  match received with
  | .error fault => (object, .error fault)
  | .ok none => (object, .ok none)
  | .ok (some xml_doc) =>
      match xmlParse parse xml_doc context object.cleanup with
      | (object, .error fault) => (object, .error fault)
      | (object, .ok tree) => (getNodes^[queries] object, .ok (some tree))

def destroy (object : ObjectXML) : ObjectXML := { object.cleanup with constructed := false }

inductive Label where
  | construct (document context : Bool)
  | refresh (received : Except Fault (Option Text)) (context : Bool) (queries : Nat)
  | destroy

def step (parse : Parser) (object : ObjectXML) : Label → Option ObjectXML
  | .construct document context =>
      if object.constructed then none else some (object.construct document context)
  | .refresh received context queries =>
      if object.constructed then some (object.refresh parse received context queries).1 else none
  | .destroy => if object.constructed then some object.destroy else none

def failed (parse : Parser) : Label → Bool
  | .refresh (.ok (some xml_doc)) context _ => (parse xml_doc).isNone || !context
  | _ => false

def cleans : Label → Bool
  | .refresh (.ok (some _)) _ _ => true
  | .destroy => true
  | _ => false

def Sound (object : ObjectXML) : Prop :=
  object.handles.Clean ∧
    (object.constructed = false → ∀ handle, object.handles.status handle ≠ .live)

theorem refresh_document (parse : Parser) (server : Server) (auth method : Text)
    (parameters : List Value) (queries : Nat) (object : ObjectXML) :
    (object.refresh parse (receive server auth method parameters) true queries).2 =
      fetchDocument parse server auth method parameters := by
  simp only [fetchDocument, receive, openDocument, bind, Except.bind]
  rcases tryCall server auth method parameters with fault | ⟨rc, result⟩
  · rfl
  · by_cases answered : rc = 0
    · simp only [answered, ne_eq, not_true, ↓reduceIte]
      rcases readResponse result with fault | _ | xml_doc
      · rfl
      · rfl
      · simp only [refresh, xmlParse, Xml.xmlParse]
        cases parse xml_doc <;> rfl
    · simp only [ne_eq, answered, not_false_eq_true, ↓reduceIte]
      rfl

section Phases

inductive Phase where
  | gone
  | fresh
  | stale
  | broken

def At (object : ObjectXML) : Phase → Prop
  | .gone => object.handles.Clean ∧ object.constructed = false ∧ object.handles.Owns []
  | .fresh => object.handles.Clean ∧ object.constructed = true ∧
      ∃ xml ctx, object.xml = some xml ∧ object.ctx = some ctx ∧ object.handles.Owns [xml, ctx]
  -- a pointer is still set, to something that has been released
  | .stale => object.handles.Clean ∧ object.constructed = true ∧ object.handles.Owns [] ∧
      (object.xml.isSome ∨ object.ctx.isSome)
  | .broken => ¬ object.handles.Clean

def next (parse : Parser) : Phase → Label → Phase
  | .gone, .construct document context => if document && context then .fresh else .gone
  | .fresh, .destroy => .gone
  | .fresh, label => if failed parse label then .stale else .fresh
  | .stale, label => if cleans label then .broken else .stale
  | phase, _ => phase

variable {parse : Parser} {object : ObjectXML} {phase : Phase}

theorem clean_releasePointer {handles : Handles} {pointer : Option Nat}
    (clean : (releasePointer handles pointer).Clean) : handles.Clean := by
  cases pointer with
  | none => exact clean
  | some handle => exact (Handles.clean_release.mp clean).1

theorem not_clean_releasePointer {handles : Handles} {pointer : Option Nat} (owns : handles.Owns [])
    (set : pointer.isSome) : ¬ (releasePointer handles pointer).Clean := by
  obtain ⟨handle, rfl⟩ := Option.isSome_iff_exists.mp set
  intro clean
  exact Handles.owns_nil_iff.mp owns handle (Handles.clean_release.mp clean).2

theorem clean_of_cleanup (clean : object.cleanup.handles.Clean) : object.handles.Clean :=
  clean_releasePointer (clean_releasePointer clean)

theorem clean_of_xmlParse {xml_doc : Text} {context : Bool}
    (clean : (xmlParse parse xml_doc context object).1.handles.Clean) : object.handles.Clean := by
  unfold xmlParse at clean
  cases parsed : parse xml_doc with
  | none => simpa only [parsed] using clean
  | some tree =>
      rw [parsed] at clean
      cases context with
      | false => exact (Handles.clean_release.mp clean).1
      | true => exact clean

theorem clean_of_getNodes (clean : object.getNodes.handles.Clean) : object.handles.Clean := by
  unfold getNodes at clean
  cases found : object.ctx with
  | none => simpa [found] using clean
  | some ctx =>
      rw [found] at clean
      exact (Handles.clean_use.mp clean).1

theorem clean_of_queries {queries : Nat} (clean : (getNodes^[queries] object).handles.Clean) :
    object.handles.Clean := by
  induction queries generalizing object with
  | zero => exact clean
  | succ queries ih => exact clean_of_getNodes (ih clean)

theorem xmlParse_returns (xml_doc : Text) (context : Bool) :
    (xmlParse parse xml_doc context object).2.isOk = !((parse xml_doc).isNone || !context) := by
  unfold xmlParse
  cases parse xml_doc <;> cases context <;> rfl

theorem refresh_eq (xml_doc : Text) (context : Bool) (queries : Nat) :
    (object.refresh parse (.ok (some xml_doc)) context queries).1 =
      if (parse xml_doc).isNone || !context then (xmlParse parse xml_doc context object.cleanup).1
      else getNodes^[queries] (xmlParse parse xml_doc context object.cleanup).1 := by
  have returns := @xmlParse_returns parse object.cleanup xml_doc context
  simp only [refresh]
  rcases outcome : xmlParse parse xml_doc context object.cleanup with ⟨after, fault | tree⟩ <;>
    rw [outcome] at returns
  · have raised : ((parse xml_doc).isNone || !context) = true := Bool.not_inj returns.symm
    rw [if_pos raised]
  · have returned : ((parse xml_doc).isNone || !context) = false := Bool.not_inj returns.symm
    rw [returned]
    rfl

theorem clean_of_refresh {received : Except Fault (Option Text)} {context : Bool} {queries : Nat}
    (clean : (object.refresh parse received context queries).1.handles.Clean) :
    object.handles.Clean := by
  rcases received with fault | _ | xml_doc
  · exact clean
  · exact clean
  · rw [refresh_eq] at clean
    refine clean_of_cleanup (@clean_of_xmlParse parse _ xml_doc context ?_)
    split_ifs at clean
    · exact clean
    · exact clean_of_queries clean

theorem step_cases {after : ObjectXML} {label : Label}
    (taken : step parse object label = some after) :
    (∃ document context, label = .construct document context ∧ object.constructed = false ∧
        after = object.construct document context) ∨
      (∃ received context queries, label = .refresh received context queries ∧
        object.constructed = true ∧ after = (object.refresh parse received context queries).1) ∨
      (label = .destroy ∧ object.constructed = true ∧ after = object.destroy) := by
  cases label with
  | construct document context =>
      simp only [step, Option.ite_none_left_eq_some, Option.some.injEq, Bool.not_eq_true] at taken
      exact Or.inl ⟨document, context, rfl, taken.1, taken.2.symm⟩
  | refresh received context queries =>
      simp only [step, Option.ite_none_right_eq_some, Option.some.injEq] at taken
      exact Or.inr (Or.inl ⟨received, context, queries, rfl, taken.1, taken.2.symm⟩)
  | destroy =>
      simp only [step, Option.ite_none_right_eq_some, Option.some.injEq] at taken
      exact Or.inr (Or.inr ⟨rfl, taken.1, taken.2.symm⟩)

theorem clean_of_step {after : ObjectXML} {label : Label}
    (taken : step parse object label = some after) (clean : after.handles.Clean) :
    object.handles.Clean := by
  rcases step_cases taken with ⟨document, context, _, _, rfl⟩ | ⟨_, _, _, _, _, rfl⟩ | ⟨_, _, rfl⟩
  · cases document with
    | false => exact clean
    | true =>
        cases context with
        | false => exact (Handles.clean_release.mp clean).1
        | true => exact clean
  · exact clean_of_refresh clean
  · exact clean_of_cleanup clean

theorem settled_cleanup (holds : object.At .fresh) :
    object.cleanup.handles.Clean ∧ object.cleanup.handles.Owns [] := by
  obtain ⟨clean, _, xml, ctx, document, context, owns⟩ := holds
  have rest : (object.handles.release xml).Owns [ctx] := owns.release
  simp only [cleanup, document, context, releasePointer, Handles.clean_release]
  exact ⟨⟨⟨clean, (owns.live xml).mpr List.mem_cons_self⟩, (rest.live ctx).mpr List.mem_cons_self⟩,
    rest.release⟩

theorem not_clean_cleanup (holds : object.At .stale) : ¬ object.cleanup.handles.Clean := by
  obtain ⟨_, _, owns, xml | ctx⟩ := holds
  · exact fun clean => not_clean_releasePointer owns xml (clean_releasePointer clean)
  · cases document : object.xml with
    | none =>
        simp only [cleanup, document, releasePointer]
        exact not_clean_releasePointer owns ctx
    | some xml =>
        -- the document is released twice already
        refine fun clean => not_clean_releasePointer owns (Option.isSome_some (a := xml)) ?_
        simp only [cleanup, document] at clean
        exact clean_releasePointer clean

theorem at_absent : absent.At .gone := ⟨Handles.clean_empty, rfl, Handles.owns_empty⟩

theorem at_construct (holds : object.At .gone) (document context : Bool) :
    (object.construct document context).At (if document && context then .fresh else .gone) := by
  obtain ⟨clean, absent, owns⟩ := holds
  have allocated := owns.allocate
  cases document with
  | false => exact ⟨clean, absent, owns⟩
  | true =>
      cases context with
      | false =>
          exact ⟨Handles.clean_release.mpr ⟨clean, (allocated.live _).mpr List.mem_cons_self⟩,
            absent,
          allocated.release⟩
      | true => exact ⟨clean, rfl, _, _, rfl, rfl, allocated.allocate.perm (.swap _ _ _)⟩

theorem at_xmlParse {xml_doc : Text} {context : Bool} (clean : object.handles.Clean)
    (built : object.constructed = true) (owns : object.handles.Owns []) (left : object.ctx.isSome) :
    (xmlParse parse xml_doc context object).1.At
      (if (parse xml_doc).isNone || !context then .stale else .fresh) := by
  have allocated := owns.allocate
  unfold xmlParse
  cases parse xml_doc with
  | none => exact ⟨clean, built, owns, Or.inr left⟩
  | some tree =>
      cases context with
      | false =>
          exact ⟨Handles.clean_release.mpr ⟨clean, (allocated.live _).mpr List.mem_cons_self⟩,
            built,
          allocated.release, Or.inl rfl⟩
      | true => exact ⟨clean, built, _, _, rfl, rfl, allocated.allocate.perm (.swap _ _ _)⟩

theorem getNodes_fresh (holds : object.At .fresh) : object.getNodes = object := by
  obtain ⟨_, _, xml, ctx, _, context, owns⟩ := holds
  have live := (owns.live ctx).mpr (by simp)
  obtain ⟨handles, constructed, document, _⟩ := object
  simp only at context live
  simp only [getNodes, context, Handles.use_live live]

theorem at_refresh (holds : object.At .fresh) (received : Except Fault (Option Text))
    (context : Bool) (queries : Nat) :
    (object.refresh parse received context queries).1.At
      (if failed parse (.refresh received context queries) then .stale else .fresh) := by
  rcases received with fault | _ | xml_doc
  · exact holds
  · exact holds
  · obtain ⟨clean, owns⟩ := settled_cleanup holds
    obtain ⟨_, built, _, ctx, _, left, _⟩ := holds
    have parsed := @at_xmlParse parse object.cleanup xml_doc context clean built owns
      (Option.isSome_iff_exists.mpr ⟨ctx, left⟩)
    rw [refresh_eq]
    by_cases fails : ((parse xml_doc).isNone || !context) = true
    · rw [if_pos fails] at parsed ⊢
      rw [if_pos (by exact fails)]
      exact parsed
    · rw [if_neg fails] at parsed ⊢
      rw [if_neg (by exact fails)]
      -- the queries find the context that was just made
      rw [Function.iterate_fixed (getNodes_fresh parsed)]
      exact parsed

theorem not_clean_refresh (holds : object.At .stale) (xml_doc : Text) (context : Bool)
    (queries : Nat) :
    ¬ (object.refresh parse (.ok (some xml_doc)) context queries).1.handles.Clean := by
  intro clean
  rw [refresh_eq] at clean
  refine not_clean_cleanup holds (@clean_of_xmlParse parse _ xml_doc context ?_)
  split_ifs at clean
  · exact clean
  · exact clean_of_queries clean

theorem not_constructed (absent : object.constructed = false) :
    ¬ object.constructed = true := by simp [absent]

theorem at_step {after : ObjectXML} {label : Label} (holds : object.At phase)
    (taken : step parse object label = some after) : after.At (next parse phase label) := by
  cases phase with
  | gone =>
      rcases step_cases taken with ⟨document, context, rfl, _, rfl⟩ | ⟨_, _, _, _, built, _⟩
        | ⟨_, built, _⟩
      · exact at_construct holds document context
      · exact absurd built (not_constructed holds.2.1)
      · exact absurd built (not_constructed holds.2.1)
  | fresh =>
      rcases step_cases taken with ⟨_, _, _, absent, _⟩ | ⟨received, context, queries, rfl, _, rfl⟩
        | ⟨rfl, _, rfl⟩
      · exact absurd holds.2.1 (not_constructed absent)
      · exact at_refresh holds received context queries
      · obtain ⟨clean, owns⟩ := settled_cleanup holds
        exact ⟨clean, rfl, owns⟩
  | stale =>
      rcases step_cases taken with ⟨_, _, _, absent, _⟩ | ⟨received, context, queries, rfl, _, rfl⟩
        | ⟨rfl, _, rfl⟩
      · exact absurd holds.2.1 (not_constructed absent)
      · rcases received with fault | _ | xml_doc
        · exact holds
        · exact holds
        · exact not_clean_refresh holds xml_doc context queries
      · exact not_clean_cleanup holds
  | broken => exact fun clean => holds (clean_of_step taken clean)

end Phases

section Runs

variable {parse : Parser}

def NoCleanupAfterFailure (parse : Parser) (labels : List Label) : Prop :=
  labels.Pairwise fun earlier later => failed parse earlier → ¬ cleans later

def Allows (parse : Parser) : Phase → List Label → Prop
  | .gone, labels | .fresh, labels => NoCleanupAfterFailure parse labels
  | .stale, labels => ∀ label ∈ labels, ¬ cleans label
  | .broken, _ => False

variable {object final : ObjectXML} {phase : Phase} {labels : List Label}

theorem pairwise_of_not_cleans (allows : ∀ label ∈ labels, ¬ cleans label) :
    NoCleanupAfterFailure parse labels :=
  List.pairwise_of_forall_mem_list fun _ _ later member _ => allows later member

theorem pairwise_cons_of_returned {label : Label} (returned : ¬ failed parse label) :
    NoCleanupAfterFailure parse (label :: labels) ↔ NoCleanupAfterFailure parse labels := by
  rw [NoCleanupAfterFailure, List.pairwise_cons]
  exact and_iff_right fun _ _ fails => absurd fails returned

theorem pairwise_cons_of_failed {label : Label} (fails : failed parse label) :
    NoCleanupAfterFailure parse (label :: labels) ↔ ∀ later ∈ labels, ¬ cleans later := by
  rw [NoCleanupAfterFailure, List.pairwise_cons]
  constructor
  · intro all later member
    exact all.1 later member fails
  · intro allows
    exact ⟨fun later member _ => allows later member, pairwise_of_not_cleans allows⟩

theorem allows_cons {label : Label} {after : ObjectXML} (holds : object.At phase)
    (taken : step parse object label = some after) :
    Allows parse phase (label :: labels) ↔ Allows parse (next parse phase label) labels := by
  cases phase with
  | gone =>
      rcases step_cases taken with ⟨document, context, rfl, _, _⟩ | ⟨_, _, _, _, built, _⟩
        | ⟨_, built, _⟩
      · have same := @pairwise_cons_of_returned parse labels (.construct document context)
          (by simp [failed])
        simp only [next]
        cases document && context <;> exact same
      · exact absurd built (not_constructed holds.2.1)
      · exact absurd built (not_constructed holds.2.1)
  | fresh =>
      rcases step_cases taken with ⟨_, _, _, absent, _⟩ | ⟨received, context, queries, rfl, _, _⟩
        | ⟨rfl, _, _⟩
      · exact absurd holds.2.1 (not_constructed absent)
      · simp only [next]
        split_ifs with fails
        · exact pairwise_cons_of_failed fails
        · exact pairwise_cons_of_returned fails
      · exact pairwise_cons_of_returned (by simp [failed])
  | stale =>
      simp only [next]
      split_ifs with cleaned
      · exact iff_of_false (fun allows => allows label List.mem_cons_self cleaned) id
      · simp [Allows, cleaned]
  | broken => rfl

theorem sound_iff_allows (holds : object.At phase)
    (reached : Machine.run (step parse) object labels = some final) :
    Sound final ↔ Allows parse phase labels := by
  induction labels generalizing object phase with
  | nil =>
      cases reached
      cases phase with
      | gone =>
          exact iff_of_true ⟨holds.1, fun _ => Handles.owns_nil_iff.mp holds.2.2⟩ List.Pairwise.nil
      | fresh =>
          exact iff_of_true ⟨holds.1, fun absent =>
            absurd holds.2.1 (by simp [absent])⟩ List.Pairwise.nil
      | stale =>
          exact iff_of_true ⟨holds.1, fun _ => Handles.owns_nil_iff.mp holds.2.2.1⟩
            (by simp [Allows])
      | broken => exact iff_of_false (fun sound => holds sound.1) id
  | cons label rest ih =>
      rw [Machine.run_cons] at reached
      obtain ⟨after, taken, continued⟩ := Option.bind_eq_some_iff.mp reached
      rw [allows_cons holds taken]
      exact ih (at_step holds taken) continued

theorem handles_sound_iff (parse : Parser) (labels : List Label) (final : ObjectXML)
    (reached : Machine.run (step parse) absent labels = some final) :
    Sound final ↔ NoCleanupAfterFailure parse labels :=
  sound_iff_allows at_absent reached

section Example

def poolText : Text := "<VM_POOL></VM_POOL>".toList

def onlyPool : Parser := fun text => if text = poolText then
  some (.element .vmPool [] .null .null) else none

def truncated : Server := fun _ _ => .success (.array [.boolean true, .string "<VM_POOL>".toList])

def readableRun : List Label :=
  [.construct true true, .refresh (.ok (some poolText)) true 1, .refresh (.ok none) true 1,
    .destroy]

theorem handles_sound_iff_readableRun :
    Sound ⟨⟨[true, true, true, true], []⟩, false, some 2, some 3⟩ ↔
    NoCleanupAfterFailure onlyPool readableRun :=
  handles_sound_iff onlyPool readableRun ⟨⟨[true, true, true, true], []⟩, false, some 2, some 3⟩
    (by decide)

def truncatedRun : List Label :=
  [.construct true true, .refresh (receive truncated [] "one.vmpool.info".toList loadVmsParameters)
    true 1, .destroy]

theorem context_released_twice :
    Machine.run (step onlyPool) absent truncatedRun =
        some ⟨⟨[true, true], [.release 1]⟩, false, none, some 1⟩ ∧
      ¬ Sound ⟨⟨[true, true], [.release 1]⟩, false, none, some 1⟩ :=
  ⟨by decide, fun sound => List.cons_ne_nil _ _ sound.1⟩

end Example

end Runs

end ObjectXML

end OneFass.Xml
