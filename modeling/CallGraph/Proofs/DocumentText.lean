import CallGraph.Document.Text
import CallGraph.Proofs.JsonText

/-!
**A written document is read back.**

A record is written as an object that gives its fields in order, some of them not. Reading such an
object stores what is given, field after field.

* `given` — the members of a record, `storeAll` — the record that they make;
* `record_given` — reading the members of a record stores them;
* `NodeRecord.decode_toJson`, `EdgeRecord.decode_toJson`, `Document.decode_toJson` — reading undoes
  writing;
* `Document.ofText_toText` — a written document is read back, if its lines fit into a machine word.
-/

namespace CallGraph.Json

section

variable {σ : Type}

/-- The members of an object that gives fields in order, those of them that have a value. -/
def given (entries : List (RecordField σ × Option Json)) : List (String × Json) :=
  entries.flatMap fun (field, value) => optionalMember field.name value

/-- Stores the fields that have a value, one after the other. -/
def storeAll : List (RecordField σ × Option Json) → σ → Except Fault σ
  | [], s => .ok s
  | (_, none) :: rest, s => storeAll rest s
  | (field, some j) :: rest, s => do
    let s ← field.store s (.ofJson j)
    storeAll rest s

/-- Reading members that give known fields, each once, stores them. -/
theorem readMembers_given {fields : List (RecordField σ)}
    {entries : List (RecordField σ × Option Json)} {seen : List String} {s : σ}
    (known : ∀ e ∈ entries, fields.find? (·.name == e.1.name) = some e.1)
    (distinct : (entries.map (·.1.name)).Nodup) (new : ∀ e ∈ entries, e.1.name ∉ seen) :
    readMembers fields true seen s (Fragment.ofMembers (given entries)) =
      (storeAll entries s).bind fun s =>
        readMembers fields true (((given entries).map (·.1)).reverse ++ seen) s [] := by
  induction entries generalizing seen s with
  | nil => rfl
  | cons e rest hyp =>
    obtain ⟨field, value⟩ := e
    obtain ⟨apart, later⟩ := List.nodup_cons.1 distinct
    have knownRest := fun e here => known e (List.mem_cons_of_mem _ here)
    have newRest := fun e here => new e (List.mem_cons_of_mem _ here)
    cases value with
    | none => exact hyp knownRest later newRest
    | some j =>
      have first : fields.find? (·.name == field.name) = some field :=
        known (field, some j) List.mem_cons_self
      have unseen : seen.contains field.name = false := by
        simpa using new (field, some j) List.mem_cons_self
      have newNow : ∀ e ∈ rest, e.1.name ∉ field.name :: seen := by
        intro e here inSeen
        rcases List.mem_cons.1 inSeen with same | old
        · exact apart (List.mem_map.2 ⟨e, here, same⟩)
        · exact newRest e here old
      show readMembers fields true seen s
        ((some field.name, .ofJson j) :: Fragment.ofMembers (given rest)) = _
      rw [readMembers, first]
      simp only [unseen, Bool.false_eq_true, if_false, storeAll]
      cases field.store s (.ofJson j) with
      | error fault => rfl
      | ok s =>
        show readMembers fields true (field.name :: seen) s _ = _
        rw [hyp knownRest later newNow]
        show _ = (storeAll rest s).bind fun s => readMembers fields true
          (((field.name :: (given rest).map (·.1)).reverse) ++ seen) s []
        rw [List.reverse_cons, List.append_assoc]
        rfl

/-- In a list without repeated names a field is found by its name. -/
theorem find?_field {fields : List (RecordField σ)} (distinct : (fields.map (·.name)).Nodup)
    {field : RecordField σ} (listed : field ∈ fields) :
    fields.find? (·.name == field.name) = some field := by
  induction fields with
  | nil => cases listed
  | cons f rest hyp =>
    obtain ⟨apart, later⟩ := List.nodup_cons.1 distinct
    by_cases same : f = field
    · rw [same]
      exact List.find?_cons_of_pos (beq_self_eq_true field.name)
    · have inRest : field ∈ rest := (List.mem_cons.1 listed).resolve_left fun here => same here.symm
      have other : (f.name == field.name) = false := by
        rw [beq_eq_false_iff_ne]
        exact fun equal => apart (List.mem_map.2 ⟨field, inRest, equal.symm⟩)
      rw [List.find?_cons, other]
      exact hyp later inRest

/-- A field that has a value is among the members. -/
theorem mem_given {entries : List (RecordField σ × Option Json)} {field : RecordField σ} {j : Json}
    (listed : (field, some j) ∈ entries) : (field.name, j) ∈ given entries :=
  List.mem_flatMap.2 ⟨_, listed, List.mem_singleton_self _⟩

/-- **Reading what was written of a record stores it**, if every field that has to be given is. -/
theorem record_given {entries : List (RecordField σ × Option Json)}
    (distinct : (entries.map (·.1.name)).Nodup)
    (complete : ∀ e ∈ entries, e.1.required = true → e.2.isSome = true) (s : σ) :
    record (entries.map (·.1)) s (.ofJson (.object (given entries))) = storeAll entries s := by
  have names : ((entries.map (·.1)).map (·.name)).Nodup := by
    rwa [List.map_map]
  have all : ∀ s : σ, readMembers (entries.map (·.1)) true
      (((given entries).map (·.1)).reverse ++ []) s [] = .ok s := by
    intro s
    rw [readMembers, if_neg (by decide), if_neg]
    rw [Bool.not_eq_true, List.any_eq_false]
    intro field here
    obtain ⟨⟨field, value⟩, listed, rfl⟩ := List.mem_map.1 here
    rw [Bool.and_eq_true, not_and, Bool.not_eq_true', Bool.not_eq_false]
    intro required
    obtain ⟨j, rfl⟩ := Option.isSome_iff_exists.1 (complete _ listed required)
    have member : field.name ∈ (given entries).map (·.1) :=
      List.mem_map.2 ⟨_, mem_given listed, rfl⟩
    simpa using member
  show readMembers _ true [] s (Fragment.ofMembers (given entries)) = _
  rw [readMembers_given (fun e here => find?_field names (List.mem_map.2 ⟨e, here, rfl⟩)) distinct
    fun _ _ => List.not_mem_nil]
  simp only [all]
  exact bind_pure (storeAll entries s)

/-! ### Storing one field -/

section

variable {α : Type} {name : String} {d : Decoder α} {set : σ → α → σ} {s : σ} {j : Json}
  {rest : List (RecordField σ × Option Json)}

theorem storeAll_some {field : RecordField σ} {s' : σ}
    (stores : field.store s (.ofJson j) = .ok s') :
    storeAll ((field, some j) :: rest) s = storeAll rest s' := by
  rw [storeAll, stores]
  rfl

theorem storeAll_must {a : α} (back : d (.ofJson j) = .ok a) :
    storeAll ((.must name d set, some j) :: rest) s = storeAll rest (set s a) :=
  storeAll_some (congrArg (Except.map (set s)) back)

theorem storeAll_maybe {a : α} (back : d (.ofJson j) = .ok a) :
    storeAll ((.maybe name d set, some j) :: rest) s = storeAll rest (set s a) :=
  storeAll_some (congrArg (Except.map (set s)) back)

/-- A field without a value is not given, and keeps its default. -/
theorem storeAll_option {set : σ → Option α → σ} {encode : α → Json} {o : Option α}
    (back : ∀ a, o = some a → Json.optional d (.ofJson (encode a)) = .ok (some a))
    (unset : set s none = s) :
    storeAll ((.maybe name (Json.optional d) set, o.map encode) :: rest) s =
      storeAll rest (set s o) := by
  cases o with
  | none =>
    rw [unset]
    rfl
  | some a => exact storeAll_maybe (back a rfl)

end

theorem text_string (s : String) : text (.ofJson (.string s)) = .ok s := rfl

theorem optional_text (s : String) : Json.optional text (.ofJson (.string s)) = .ok (some s) := rfl

theorem boolean_bool (b : Bool) : boolean (.ofJson (.bool b)) = .ok b := rfl

theorem optional_natural {bound n : Nat} (fits : n ≤ bound) :
    Json.optional (natural bound) (.ofJson (.nat n)) = .ok (some n) :=
  congrArg (Except.map some) (if_pos fits)

/-- A list is read back if its items are. -/
theorem list_map {α : Type} {d : Decoder α} {encode : α → Json} {as : List α}
    (back : ∀ a ∈ as, d (.ofJson (encode a)) = .ok a) :
    list d (.ofJson (.array (as.map encode))) = .ok as := by
  have items : (Fragment.ofItems (as.map encode)).mapM d = .ok as := by
    induction as with
    | nil => rfl
    | cons a rest hyp =>
      rw [List.map_cons, Fragment.ofItems, List.mapM_cons, back a List.mem_cons_self,
        hyp fun b here => back b (List.mem_cons_of_mem a here)]
      rfl
  show (do let read ← (Fragment.ofItems (as.map encode)).mapM d
           if true then pure read else throw Fault.syntaxFault) = _
  rw [items]
  rfl

/-! ### The numbers of a record -/

theorem allPlain_of_forall {items : List Json} (all : ∀ j ∈ items, j.Plain) : AllPlain items := by
  induction items with
  | nil => trivial
  | cons j rest hyp =>
    rw [AllPlain]
    exact ⟨all j List.mem_cons_self, hyp fun k here => all k (List.mem_cons_of_mem j here)⟩

theorem allMembersPlain_of_forall {members : List (String × Json)}
    (all : ∀ m ∈ members, m.2.Plain) : AllMembersPlain members := by
  induction members with
  | nil => trivial
  | cons m rest hyp =>
    obtain ⟨key, j⟩ := m
    rw [AllMembersPlain]
    exact ⟨all _ List.mem_cons_self, hyp fun k here => all k (List.mem_cons_of_mem _ here)⟩

/-- A value, if there is one, of which the numbers fit. -/
def PlainOption (value : Option Json) : Prop :=
  ∀ j, value = some j → j.Plain

theorem plainOption_string (o : Option String) : PlainOption (o.map .string) := by
  intro j here
  obtain ⟨s, _, rfl⟩ := Option.map_eq_some_iff.1 here
  trivial

theorem plainOption_nat {o : Option Nat} (fits : ∀ n, o = some n → n ≤ Word.largest 64) :
    PlainOption (o.map .nat) := by
  intro j here
  obtain ⟨n, given, rfl⟩ := Option.map_eq_some_iff.1 here
  simpa [nat, Plain] using fits n given

theorem plainOption_some {j : Json} (plain : j.Plain) : PlainOption (some j) :=
  fun _ here => Option.some.inj here ▸ plain

theorem plainOption_array {items : List Json} (all : ∀ j ∈ items, j.Plain) :
    PlainOption (some (.array items)) :=
  plainOption_some (by rw [Plain]; exact allPlain_of_forall all)

/-- The numbers of a record are those of its values. -/
theorem plain_given {fields : List (RecordField σ)} {values : List (Option Json)}
    (all : ∀ value ∈ values, PlainOption value) : (Json.object (given (fields.zip values))).Plain := by
  rw [Plain]
  refine allMembersPlain_of_forall fun m here => ?_
  obtain ⟨⟨field, value⟩, listed, given⟩ := List.mem_flatMap.1 here
  obtain ⟨j, there, rfl⟩ := Option.map_eq_some_iff.1 (Option.mem_toList.1 given)
  exact all value (List.of_mem_zip listed).2 j there

end

end CallGraph.Json

namespace CallGraph

open Json

/-! ### Nodes and calls -/

namespace NodeRecord

/-- The fields of a node with their values. -/
def entries (r : NodeRecord) : List (RecordField NodeRecord × Option Json) :=
  fields.zip [some (.string r.id), some (.string r.name), r.modulePath.map .string,
    r.moduleName.map .string, r.file.map .string, r.line.map .nat, some (.bool r.isStd),
    some (.bool r.exported), r.receiver.map .string, some (.bool r.synthetic)]

theorem toJson_eq (r : NodeRecord) : r.toJson = .object (given r.entries) := by
  simp [toJson, given, entries, fields, optionalMember, RecordField.must, RecordField.maybe]

theorem storeAll_entries {r : NodeRecord} (fits : ∀ l, r.line = some l → l ≤ maxLine) :
    storeAll r.entries { id := "", name := "" } = .ok r := by
  refine (storeAll_must (text_string _)).trans ?_
  refine (storeAll_must (text_string _)).trans ?_
  refine (storeAll_option (fun s _ => optional_text s) rfl).trans ?_
  refine (storeAll_option (fun s _ => optional_text s) rfl).trans ?_
  refine (storeAll_option (fun s _ => optional_text s) rfl).trans ?_
  refine (storeAll_option (fun l here => optional_natural (fits l here)) rfl).trans ?_
  refine (storeAll_maybe (boolean_bool _)).trans ?_
  refine (storeAll_maybe (boolean_bool _)).trans ?_
  refine (storeAll_option (fun s _ => optional_text s) rfl).trans ?_
  exact storeAll_maybe (boolean_bool _)

/-- **A node is read back from what was written of it.** -/
theorem decode_toJson {r : NodeRecord} (fits : ∀ l, r.line = some l → l ≤ maxLine) :
    decode (.ofJson r.toJson) = .ok r := by
  rw [toJson_eq]
  have complete : ∀ e ∈ r.entries, e.1.required = true → e.2.isSome = true := by
    simp [entries, fields, RecordField.must, RecordField.maybe]
  have distinct : (r.entries.map (·.1.name)).Nodup := by
    show (fields.map (·.name)).Nodup
    decide
  exact (record_given distinct complete { id := "", name := "" }).trans (storeAll_entries fits)

theorem plain_toJson {r : NodeRecord} (fits : ∀ l, r.line = some l → l ≤ maxLine) :
    r.toJson.Plain := by
  rw [toJson_eq]
  refine plain_given ?_
  simp only [List.forall_mem_cons, List.not_mem_nil, false_implies, implies_true, and_true]
  exact ⟨plainOption_some trivial, plainOption_some trivial, plainOption_string _,
    plainOption_string _, plainOption_string _, plainOption_nat fits, plainOption_some trivial,
    plainOption_some trivial, plainOption_string _, plainOption_some trivial⟩

end NodeRecord

namespace EdgeRecord

/-- The fields of a call with their values. -/
def entries (r : EdgeRecord) : List (RecordField EdgeRecord × Option Json) :=
  fields.zip [some (.string r.caller), some (.string r.callee), r.file.map .string, r.line.map .nat,
    some (.bool r.synthetic)]

theorem toJson_eq (r : EdgeRecord) : r.toJson = .object (given r.entries) := by
  simp [toJson, given, entries, fields, optionalMember, RecordField.must, RecordField.maybe]

/-- **A call is read back from what was written of it.** -/
theorem decode_toJson {r : EdgeRecord} (fits : ∀ l, r.line = some l → l ≤ maxLine) :
    decode (.ofJson r.toJson) = .ok r := by
  rw [toJson_eq]
  have complete : ∀ e ∈ r.entries, e.1.required = true → e.2.isSome = true := by
    simp [entries, fields, RecordField.must, RecordField.maybe]
  have distinct : (r.entries.map (·.1.name)).Nodup := by
    show (fields.map (·.name)).Nodup
    decide
  refine (record_given distinct complete { caller := "", callee := "" }).trans ?_
  refine (storeAll_must (text_string _)).trans ?_
  refine (storeAll_must (text_string _)).trans ?_
  refine (storeAll_option (fun s _ => optional_text s) rfl).trans ?_
  refine (storeAll_option (fun l here => optional_natural (fits l here)) rfl).trans ?_
  exact storeAll_maybe (boolean_bool _)

theorem plain_toJson {r : EdgeRecord} (fits : ∀ l, r.line = some l → l ≤ maxLine) :
    r.toJson.Plain := by
  rw [toJson_eq]
  refine plain_given ?_
  simp only [List.forall_mem_cons, List.not_mem_nil, false_implies, implies_true, and_true]
  exact ⟨plainOption_some trivial, plainOption_some trivial, plainOption_string _,
    plainOption_nat fits, plainOption_some trivial⟩

end EdgeRecord

/-! ### Documents -/

namespace Document

/-- All lines of a document fit into a machine word. -/
structure LinesFit (d : Document) : Prop where
  nodes : ∀ r ∈ d.nodes, ∀ l, r.line = some l → l ≤ maxLine
  edges : ∀ r ∈ d.edges, ∀ l, r.line = some l → l ≤ maxLine

/-- The fields of a document with their values. -/
def entries (d : Document) : List (RecordField Document × Option Json) :=
  fields.zip [some (.array (d.nodes.map NodeRecord.toJson)),
    some (.array (d.edges.map EdgeRecord.toJson)),
    if d.roots.isEmpty then none else some (.array (d.roots.map .string))]

theorem toJson_eq (d : Document) : d.toJson = .object (given d.entries) := by
  simp [toJson, given, entries, fields, optionalMember, RecordField.maybe]

/-- **A document is read back from what was written of it.** -/
theorem decode_toJson {d : Document} (fits : d.LinesFit) : decode (.ofJson d.toJson) = .ok d := by
  rw [toJson_eq]
  have complete : ∀ e ∈ d.entries, e.1.required = true → e.2.isSome = true := by
    simp [entries, fields, RecordField.maybe]
  have distinct : (d.entries.map (·.1.name)).Nodup := by
    show (fields.map (·.name)).Nodup
    decide
  refine (record_given distinct complete {}).trans ?_
  refine (storeAll_maybe (list_map fun r here => NodeRecord.decode_toJson (fits.nodes r here))).trans ?_
  refine (storeAll_maybe (list_map fun r here => EdgeRecord.decode_toJson (fits.edges r here))).trans ?_
  obtain ⟨nodes, edges, roots⟩ := d
  cases roots with
  | nil => rfl
  | cons root roots => exact storeAll_maybe (list_map fun s _ => text_string s)

theorem plain_toJson {d : Document} (fits : d.LinesFit) : d.toJson.Plain := by
  rw [toJson_eq]
  refine plain_given ?_
  simp only [List.forall_mem_cons, List.not_mem_nil, false_implies, implies_true, and_true]
  refine ⟨plainOption_array fun j here => ?_, plainOption_array fun j here => ?_, ?_⟩
  · obtain ⟨r, listed, rfl⟩ := List.mem_map.1 here
    exact NodeRecord.plain_toJson (fits.nodes r listed)
  · obtain ⟨r, listed, rfl⟩ := List.mem_map.1 here
    exact EdgeRecord.plain_toJson (fits.edges r listed)
  · split
    · exact fun _ here => absurd here (by simp)
    · refine plainOption_array fun j here => ?_
      obtain ⟨s, _, rfl⟩ := List.mem_map.1 here
      trivial

/-- **A written document is read back**, if its lines fit into a machine word. -/
theorem ofText_toText {d : Document} (fits : d.LinesFit) : ofText d.toText = .ok d := by
  rw [ofText, toText, readText_pretty decode (plain_toJson fits)]
  exact decode_toJson fits

end Document

end CallGraph
