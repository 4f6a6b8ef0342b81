import OneFass.Pm.Cycle
import OneFass.Xml.Reread

set_option autoImplicit false

namespace OneFass.Pm

open Runtime Client OrderedMap ExactPower Xml

section Pieces

def Queueable (vm : VMObject) : Prop :=
  ∃ attributes children, vm = VMObject.ofNode (Xml.machine attributes children) ∧
    Editable attributes children ∧
    validNode (Xml.machine attributes children) = true ∧
      (Query.pending none).holds (Xml.machine attributes children) = true

def RereadFrom (format : FloatValue Scaled → Text) (entry : FloatValue Scaled × VMObject)
    (inner : XmlNode) : Prop :=
  Reread (format entry.1) entry.2 (VMObject.ofNode (Xml.machine [] inner))

variable {format : FloatValue Scaled → Text} {listed : List (FloatValue Scaled × VMObject)}
    {pieces : List Text}

theorem pieces_reread (plain : ∀ prio, Plain (format prio))
    (queued : List.Forall₂ (fun entry piece =>
      queueNode (format entry.1) entry.2 = .ok piece) listed pieces)
    (queueable : ∀ entry ∈ listed, Queueable entry.2) :
    ∃ inners : List XmlNode, pieces = (inners.map (Xml.machine [])).map serialize ∧
      List.Forall₂ (RereadFrom format) listed inners ∧
      ∀ inner ∈ inners, validNode (Xml.machine [] inner) = true ∧
      (Query.pending none).holds (Xml.machine [] inner) = true := by
  induction queued with
  | nil => exact ⟨[], rfl, .nil, by simp⟩
  | @cons entry piece others rest done _ ih =>
      obtain ⟨inners, rfl, reread, selected⟩ :=
        ih fun later member => queueable later (List.mem_cons_of_mem _ member)
      obtain ⟨attributes, children, same, editable, valid, holds⟩ :=
        queueable entry List.mem_cons_self
      rw [same] at done
      obtain ⟨inner, rfl, again, validity, queries⟩ := queueNode_reread editable (plain _) done
      refine ⟨inner :: inners, rfl, .cons ?_ reread, ?_⟩
      · rw [RereadFrom, same]
        exact again
      · intro node member
        rcases List.mem_cons.mp member with rfl | later
        · exact ⟨validity.trans valid, (queries _).trans holds⟩
        · exact selected node later

theorem reread_oids {inners : List XmlNode}
    (reread : List.Forall₂ (RereadFrom format) listed inners)
    (distinct : listed.Pairwise fun a b => a.2.oid ≠ b.2.oid) :
    (inners.map (Xml.machine [])).Pairwise fun a b =>
    (VMObject.ofNode a).oid ≠ (VMObject.ofNode b).oid := by
  have oids : listed.map (fun entry => entry.2.oid) = inners.map fun inner =>
    (VMObject.ofNode (Xml.machine [] inner)).oid := by
    clear distinct
    induction reread with
    | nil => rfl
    | cons again _ ih =>
        rw [List.map_cons, List.map_cons, ih, again.fields]
  have nodup : (listed.map fun entry => entry.2.oid).Nodup := List.pairwise_map.mpr distinct
  rw [oids] at nodup
  exact List.pairwise_map.mpr (List.pairwise_map.mp nodup)

theorem reread_of_mem {inners : List XmlNode}
    (reread : List.Forall₂ (RereadFrom format) listed inners) {entry : FloatValue Scaled × VMObject}
    (member : entry ∈ listed) :
    ∃ inner ∈ inners, RereadFrom format entry inner := by
  induction reread with
  | nil => cases member
  | cons again _ ih =>
      rcases List.mem_cons.mp member with rfl | later
      · exact ⟨_, List.mem_cons_self, again⟩
      · obtain ⟨inner, inside, found⟩ := ih later
        exact ⟨inner, List.mem_cons_of_mem _ inside, found⟩

end Pieces

section Scheduler

variable {config : ManagerConfig} {parse : Parser} {format : FloatValue Scaled → Text}

def PoolEditable (objects : Objects) : Prop :=
  ∀ vm ∈ machines objects, ∀ attributes children, vm.xml = Xml.machine attributes children →
    Editable attributes children

theorem queueable_of_found {round : Round} {before after : ManagerState} {vm : VMObject}
    (published : Published config parse format round before after)
    (editable : PoolEditable after.vmpool) (found : after.vmpool.find vm.oid = some vm) :
    Queueable vm := by
  rw [Map.find_eq_some_iff intOrder_total] at found
  have member : vm ∈ machines after.vmpool := List.mem_map_of_mem found
  rw [published.pool before.vmpool] at found
  obtain ⟨attributes, children, same, valid, holds⟩ := setUp_selected found
  have object : vm = VMObject.ofNode (Xml.machine attributes children) := congrArg Prod.snd same
  have document : vm.xml = Xml.machine attributes children := by
    rw [object]
    rfl
  exact ⟨attributes, children, object, editable vm member attributes children document, valid,
    holds⟩

structure ReadAsPool (format : FloatValue Scaled → Text) (queue : Text)
    (listed : List (FloatValue Scaled × VMObject)) (inners : List XmlNode) : Prop where
  text : queue = queueOpen ++ serialize (siblings (inners.map (Xml.machine []))) ++ queueClose
  machines : List.Forall₂ (RereadFrom format) listed inners
  -- all of them wait for scheduling
  pending : (Query.pending none).getNodes (poolDocument (inners.map (Xml.machine []))) =
    inners.map (Xml.machine [])
  pool : ∀ (reader : Parser) (server : Server) (auth : Text) (earlier : Objects),
    Serves server auth queue →
    reader queue = some (poolDocument (inners.map (Xml.machine []))) →
      (setUp reader server auth (.pending none) earlier).2 = .ok 0 ∧
      (setUp reader server auth (.pending none) earlier).1.entries.length = listed.length ∧
      ∀ entry ∈ listed, ∃ read,
        (setUp reader server auth (.pending none) earlier).1.find entry.2.oid = some read ∧
        Reread (format entry.1) entry.2 read

theorem readAsPool_of_reread {listed : List (FloatValue Scaled × VMObject)} {inners : List XmlNode}
    (reread : List.Forall₂ (RereadFrom format) listed inners)
    (selected : ∀ inner ∈ inners,
      validNode (Xml.machine [] inner) = true ∧
      (Query.pending none).holds (Xml.machine [] inner) = true)
    (distinct : listed.Pairwise fun a b => a.2.oid ≠ b.2.oid) :
    ReadAsPool format (queueOpen ++ ((inners.map (Xml.machine [])).map serialize).flatten ++
      queueClose) listed inners where
  text := by rw [serialize_siblings]
  machines := reread
  pending := getNodes_poolDocument fun inner member => (selected inner member).2
  pool reader server auth earlier serves parsed := by
    obtain ⟨ended, perm⟩ := setUp_poolDocument serves parsed (fun inner member =>
      (selected inner member).2)
      (fun inner member => (selected inner member).1) (reread_oids reread distinct) earlier
    refine ⟨ended, ?_, ?_⟩
    · rw [perm.length_eq, List.length_map, List.length_map, reread.length_eq]
    · intro entry member
      obtain ⟨inner, inside, again⟩ := reread_of_mem reread member
      refine ⟨VMObject.ofNode (Xml.machine [] inner), ?_, again⟩
      have key : entry.2.oid = (VMObject.ofNode (Xml.machine [] inner)).oid := by rw [again.fields]
      rw [Map.find_eq_some_iff intOrder_total, perm.mem_iff, key]
      exact List.mem_map_of_mem (List.mem_map_of_mem inside)

/-- A reader of the published queue finds the machines of the round, with their priorities. -/
theorem scheduler_reads_queue (config : ManagerConfig) (parse : Parser)
    (format : FloatValue Scaled → Text) (plain : ∀ prio, Plain (format prio)) (users : List User)
    (rounds : List Round) (before after : ManagerState) (round : Round)
    (reached : Machine.run (step config parse format) (ManagerState.initial users) rounds =
      some before)
    (completed : cycle config parse format round before = .ok after)
    (editable : PoolEditable after.vmpool) :
    ∃ (listed : List (FloatValue Scaled × VMObject)) (inners : List XmlNode),
      ReadAsPool format after.queue listed inners ∧
      (∀ entry ∈ listed, after.vmpool.find entry.2.oid = some entry.2 ∧
        round.update after.user_list entry.2 = .ok entry.1) ∧
      listed.Pairwise fun a b => FloatValue.lt Scaled.lt b.1 a.1 = true := by
  have published := cycle_publishes (run_cleared reached) completed
  obtain ⟨listed, pieces, text, queued, rated, distinct, sorted, _⟩ := published.queue
  have queueable : ∀ entry ∈ listed, Queueable entry.2 := fun entry member =>
    queueable_of_found published editable (rated entry member).1
  obtain ⟨inners, rfl, reread, selected⟩ := pieces_reread plain queued queueable
  refine ⟨listed, inners, ?_, rated, sorted⟩
  rw [text]
  exact readAsPool_of_reread reread selected distinct

def pendingChildren (id : Text) : XmlNode :=
  .element .id [] (.text id .null) <| .element .state [] (.text "1".toList .null) <|
    .element .userTemplate [] (.text "x".toList .null) .null

theorem pendingChildren_editable {id : Text} (listed : id = "7".toList ∨ id = "9".toList) :
    Editable [] (pendingChildren id) := by
  refine ⟨rfl, Or.inl ⟨?_, .element .id [] (.text id .null)
    (.element .state [] (.text "1".toList .null) .null),
    .text "x".toList .null, .null, 62, rfl, by simp, ?_, ?_, ?_⟩⟩ <;>
    rcases listed with rfl | rfl <;> decide +kernel

theorem prioText_plain (prio : FloatValue Scaled) : Plain (prioText prio) := by
  have word (letters : Text) (plain : letters.all (fun c => escapeChar c = [c]) = true) :
      Plain letters := by
    simpa [Plain, List.all_eq_true] using plain
  cases prio with
  | nan => exact word _ (by decide +kernel)
  | infinite negative => cases negative <;> exact word _ (by decide +kernel)
  | finite value =>
      intro c member
      have number := numeric_floatText _ c member
      have apart (mark : Char) (other : numeric mark = false) : c ≠ mark := by
        rintro rfl
        rw [number] at other
        cases other
      simp [escapeChar, apart '<' rfl, apart '>' rfl, apart '&' rfl, apart '\r' rfl]

theorem pendingPool_scheduler_reads :
    let config : ManagerConfig := ⟨[], 60, 10, 3⟩
    let parse : Parser := knowing pendingPool
    let format : FloatValue Scaled → Text := prioText
    ∃ before after listed inners,
      Machine.run (step config parse format)
        (ManagerState.initial []) [byId (answering pendingPool)] = some before ∧
      cycle config parse format (byId (answering pendingPool)) before = .ok after ∧
        ReadAsPool format after.queue listed inners := by
  intro config parse format
  have runs : ((Machine.run (step config parse format) (ManagerState.initial [])
      [byId (answering pendingPool)]).bind fun before =>
        step config parse format before (byId (answering pendingPool))).isSome = true := by
    decide +kernel
  obtain ⟨after, completes⟩ := Option.isSome_iff_exists.mp runs
  obtain ⟨before, reached, taken⟩ := Option.bind_eq_some_iff.mp completes
  have completed := step_eq_some.mp taken
  have pool : machines after.vmpool = ["7".toList, "9".toList].map fun id =>
    VMObject.ofNode (pendingNode id) := by
    rw [(cycle_publishes (run_cleared reached) completed).pool Map.empty]
    decide +kernel
  have editable : PoolEditable after.vmpool := by
    intro vm member attributes children document
    rw [pool] at member
    obtain ⟨id, listed, rfl⟩ := List.mem_map.mp member
    cases document
    exact pendingChildren_editable (by simpa using listed)
  obtain ⟨listed, inners, read, _⟩ :=
    scheduler_reads_queue config parse format prioText_plain [] _ before after _
    reached completed editable
  exact ⟨before, after, listed, inners, reached, completed, read⟩

end Scheduler

end OneFass.Pm
