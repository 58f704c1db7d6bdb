import GoSpy.Spy.Generation
import GoSpy.Proofs.Artifact.DeclarationLines
import GoSpy.Proofs.Spy.Identifiers
/- The declarations of a spy are printable if what they take over from the contract is: names,
   type parameters, and types in normal form whose tagged fields fit on a line. -/
namespace GoSpy

/- Lists in normal form -/

theorem membersNormal_iff {members : List Member} :
    membersNormal members = true ↔ ∀ m ∈ members, m.isNormal = true := by
  induction members with
  | nil => simp [membersNormal]
  | cons m rest ih => simp [membersNormal, ih]

theorem membersTagsFit_iff {members : List Member} :
    membersTagsFit members = true ↔
      ∀ m ∈ members, (m.tag.isNone || !m.type.spansLines) = true ∧ m.type.tagsFit = true := by
  induction members with
  | nil => simp [membersTagsFit]
  | cons m rest ih =>
    obtain ⟨names, type, tag⟩ := m
    simp only [membersTagsFit, Bool.and_eq_true, ih, List.forall_mem_cons]

theorem paramsNormal_iff {fields : List Field} :
    paramsNormal fields = true ↔ ∀ f ∈ fields, f.isNormalParam = true := by
  induction fields with
  | nil => simp [paramsNormal]
  | cons f rest ih => simp [paramsNormal, ih]

theorem resultsNormal_iff {fields : List Field} :
    resultsNormal fields = true ↔ ∀ f ∈ fields, f.isNormalResult = true := by
  induction fields with
  | nil => simp [resultsNormal]
  | cons f rest ih => simp [resultsNormal, ih]

theorem typesNormal_iff {types : List TypeExpr} :
    typesNormal types = true ↔ ∀ t ∈ types, t.isNormal = true := by
  induction types with
  | nil => simp [typesNormal]
  | cons t rest ih => simp [typesNormal, ih]

theorem exprsNamed_iff {exprs : List Expr} :
    exprsNamed exprs = true ↔ ∀ e ∈ exprs, e.isNamed = true := by
  induction exprs with
  | nil => simp [exprsNamed]
  | cons e rest ih => simp [exprsNamed, ih]

theorem Field.isNormalParam_names {f : Field} (normal : f.isNormalParam = true) :
    f.names.all isIdentifier = true := by
  obtain ⟨names, type⟩ := f
  cases type <;> exact (Bool.and_eq_true_iff.mp normal).1

theorem Field.isNormalParam_captured {f : Field} (normal : f.isNormalParam = true) :
    f.type.captured.isNormal = true := by
  obtain ⟨names, type⟩ := f
  cases type <;> exact (Bool.and_eq_true_iff.mp normal).2

theorem Field.isNormalResult_parts {f : Field} (normal : f.isNormalResult = true) :
    f.names.all isIdentifier = true ∧ f.type.isNormal = true := by
  cases f
  exact Bool.and_eq_true_iff.mp normal

theorem TypeExpr.captured_normal {t : TypeExpr} (normal : t.isNormal = true) :
    t.captured.isNormal = true := by
  cases t <;> first | exact normal | cases normal

theorem TypeExpr.captured_tagsFit {t : TypeExpr} (fit : t.tagsFit = true) :
    t.captured.tagsFit = true := by
  cases t <;> exact fit

theorem mem_slots {fields : List Field} {slot : Slot} (member : slot ∈ slots fields) :
    ∃ f ∈ fields, slot.type = f.type ∧ ∀ name ∈ slot.name, name ∈ f.names := by
  obtain ⟨index, below, rfl⟩ := List.mem_mapIdx.mp member
  obtain ⟨f, inFields, inEntries⟩ := List.mem_flatMap.mp (List.getElem_mem below)
  refine ⟨f, inFields, ?_⟩
  generalize (fields.flatMap Field.entries)[index] = entry at inEntries
  unfold Field.entries at inEntries
  split at inEntries
  · obtain rfl := List.mem_singleton.mp inEntries
    exact ⟨rfl, by simp⟩
  · obtain ⟨name, inNames, rfl⟩ := List.mem_map.mp inEntries
    exact ⟨rfl, by simpa using inNames⟩

/- Contracts -/

/-- What a contract must be for the text of its spy to say all of it. -/
structure Contract.Printable (o : SpyOptions) (c : Contract) : Prop where
  name : isIdentifier (o.spyName c.name) = true
  typeParams : ∀ f ∈ c.typeParams, f.isTypeParam = true
  apart : separable c.typeParams = true
  methods : ∀ m ∈ c.methods, isIdentifier m.name = true ∧ m.signature.isNormal = true
  tagsFit : ∀ m ∈ c.methods, ∀ f ∈ m.signature.params ++ m.signature.results,
    f.type.tagsFit = true

theorem Signature.normal_parts {s : Signature} (normal : s.isNormal = true) :
    (∀ f ∈ s.params, f.isNormalParam = true) ∧ sameNaming s.params = true ∧
      (∀ f ∈ s.results, f.isNormalResult = true) ∧ sameNaming s.results = true ∧
        plainResults s.results = true := by
  obtain ⟨params, results⟩ := s
  simp only [Signature.isNormal, Bool.and_eq_true, paramsNormal_iff, resultsNormal_iff] at normal
  obtain ⟨⟨⟨⟨each, same⟩, eachResult⟩, sameResults⟩, plain⟩ := normal
  exact ⟨each, same, eachResult, sameResults, plain⟩

theorem Member.single_normal {name : String} {type : TypeExpr}
    (identifier : isIdentifier name = true) (normal : type.isNormal = true) :
    (Member.single name type).isNormal = true := by
  simp [Member.single, Member.isNormal, identifier, normal]

namespace Contract

def MemberPrintable (m : Member) : Prop :=
  m.isNormal = true ∧ (m.tag.isNone || !m.type.spansLines) = true ∧ m.type.tagsFit = true

theorem single_printable {name : String} {type : TypeExpr} (identifier : isIdentifier name = true)
    (normal : type.isNormal = true) (fit : type.tagsFit = true) :
    MemberPrintable (.single name type) :=
  ⟨Member.single_normal identifier normal, rfl, fit⟩

theorem captureStruct_printable {fieldName : Nat → String} {fields : List Field}
    (names : ∀ index, isIdentifier (fieldName index) = true)
    (each : ∀ f ∈ fields, f.type.captured.isNormal = true ∧ f.type.tagsFit = true) :
    (captureStruct fieldName fields).isNormal = true ∧
      (captureStruct fieldName fields).tagsFit = true := by
  have members : ∀ m ∈ (slots fields).map fun slot =>
      Member.single (fieldName slot.index) slot.type.captured, MemberPrintable m := by
    intro m member
    obtain ⟨slot, inSlots, rfl⟩ := List.mem_map.mp member
    obtain ⟨f, inFields, type, _⟩ := mem_slots inSlots
    obtain ⟨normal, fit⟩ := each f inFields
    rw [type]
    exact single_printable (names _) normal (TypeExpr.captured_tagsFit fit)
  exact ⟨membersNormal_iff.mpr fun m member => (members m member).1,
    membersTagsFit_iff.mpr fun m member => (members m member).2⟩

theorem methodMembers_printable {m : Method} (identifier : isIdentifier m.name = true)
    (normal : m.signature.isNormal = true)
    (fit : ∀ f ∈ m.signature.params ++ m.signature.results, f.type.tagsFit = true) :
    ∀ member ∈ methodMembers m, MemberPrintable member := by
  obtain ⟨called, input, output⟩ := Naming.field_identifier identifier
  obtain ⟨params, _, results, _, _⟩ := Signature.normal_parts normal
  have inputs := captureStruct_printable Naming.argField_identifier fun f member =>
    ⟨Field.isNormalParam_captured (params f member), fit f (List.mem_append_left _ member)⟩
  have outputs := captureStruct_printable Naming.retField_identifier fun f member =>
    ⟨TypeExpr.captured_normal (Field.isNormalResult_parts (results f member)).2,
      fit f (List.mem_append_right _ member)⟩
  intro member inMembers
  simp only [methodMembers, inputMembers, outputMembers, List.mem_cons,
    List.mem_append] at inMembers
  rcases inMembers with rfl | inInput | inOutput
  · exact single_printable called rfl rfl
  · split at inInput
    · cases inInput
    · obtain rfl := List.mem_singleton.mp inInput
      exact single_printable input inputs.1 inputs.2
  · split at inOutput
    · cases inOutput
    · obtain rfl := List.mem_singleton.mp inOutput
      exact single_printable output outputs.1 outputs.2

theorem record_printable {o : SpyOptions} {c : Contract} (printable : c.Printable o) :
    (c.record o).Printable := by
  have members : ∀ m ∈ c.members o, MemberPrintable m := by
    intro m member
    rcases List.mem_append.mp member with lock | own
    · unfold lockMembers at lock
      split at lock
      · obtain rfl := List.mem_singleton.mp lock
        exact single_printable rfl rfl rfl
      · cases lock
    · obtain ⟨method, inMethods, inMembers⟩ := List.mem_flatMap.mp own
      obtain ⟨identifier, normal⟩ := printable.methods method inMethods
      exact methodMembers_printable identifier normal (printable.tagsFit method inMethods) m
        inMembers
  exact ⟨printable.name, printable.typeParams, printable.apart, rfl, ⟨_, rfl⟩,
    membersNormal_iff.mpr fun m member => (members m member).1,
    membersTagsFit_iff.mpr fun m member => (members m member).2⟩

/- Methods -/

theorem typeParamNames_identifiers {o : SpyOptions} {c : Contract} (printable : c.Printable o) :
    ∀ name ∈ c.typeParamNames, isIdentifier name = true := by
  intro name member
  obtain ⟨slot, inSlots, named⟩ := List.mem_filterMap.mp member
  obtain ⟨f, inFields, _, names⟩ := mem_slots inSlots
  have fits := Bool.and_eq_true_iff.mp (printable.typeParams f inFields)
  exact List.all_eq_true.mp (Bool.and_eq_true_iff.mp fits.1).2 name (names name named)

theorem spyType_normal {o : SpyOptions} {c : Contract} (printable : c.Printable o) :
    (c.spyType o).isNormal = true := by
  have base : (TypeExpr.name (o.spyName c.name)).isNormal = true := printable.name
  unfold spyType
  split
  · exact base
  · rename_i some
    have args : typesNormal (c.typeParamNames.map .name) = true := by
      refine typesNormal_iff.mpr fun t member => ?_
      obtain ⟨name, inNames, rfl⟩ := List.mem_map.mp member
      exact typeParamNames_identifiers printable name inNames
    simp only [TypeExpr.isNormal, TypeExpr.isNamed, Bool.true_and, Bool.and_eq_true, args, and_true,
      List.isEmpty_map]
    exact ⟨base, by simpa using some⟩

theorem receiverName_identifier (c : Contract) : isIdentifier c.receiverName = true :=
  Naming.receiverCandidate_identifier _

end Contract

namespace Naming

theorem renumber_normal {fields : List Field} (underscores start : Nat)
    (each : ∀ f ∈ fields, f.isNormalParam = true) :
    ∀ f ∈ renumber (paramStem underscores) start fields,
      f.isNormalParam = true ∧ f.names ≠ [] := by
  induction fields generalizing start with
  | nil => simp [renumber]
  | cons field rest ih =>
    have later := ih (start + field.arity) fun f member => each f (List.mem_cons_of_mem _ member)
    refine List.forall_mem_cons.mpr ⟨⟨?_, ?_⟩, later⟩
    · have names : ((List.range field.arity).map fun i =>
          paramName (paramStem underscores) (start + i)).all isIdentifier = true := by
        simp [paramName_identifier]
      have normal := each field List.mem_cons_self
      obtain ⟨_, type⟩ := field
      cases type <;>
        exact Bool.and_eq_true_iff.mpr ⟨names, (Bool.and_eq_true_iff.mp normal).2⟩
    · have some : field.arity ≠ 0 := by
        unfold Field.arity
        omega
      simpa using some

theorem callable_normal {fields : List Field} (reserved : List String)
    (each : ∀ f ∈ fields, f.isNormalParam = true) (same : sameNaming fields = true) :
    (∀ f ∈ callable reserved fields, f.isNormalParam = true) ∧
      sameNaming (callable reserved fields) = true := by
  simp only [callable]
  split
  · have renamed := renumber_normal (leastWhere reserved.length fun underscores =>
      (List.range (slots fields).length).all fun i =>
        !reserved.contains (paramName (paramStem underscores) i)) 0 each
    refine ⟨fun f member => (renamed f member).1, ?_⟩
    simp only [sameNaming, Bool.or_eq_true, List.all_eq_true]
    exact Or.inr fun f member => by simpa using (renamed f member).2
  · exact ⟨each, same⟩

end Naming

namespace Receiver

theorem field_named {r : Receiver} {name : String} (receiver : isIdentifier r.name = true)
    (identifier : isIdentifier name = true) : (r.field name).isNamed = true := by
  simp [field, Expr.isNamed, receiver, identifier]

theorem captures_named {r : Receiver} {m : Method} {params : List Field}
    (receiver : isIdentifier r.name = true) (identifier : isIdentifier m.name = true)
    (names : ∀ f ∈ params, f.names.all isIdentifier = true) :
    ∀ s ∈ r.captures m params, s.isNamed = true := by
  intro s member
  obtain ⟨slot, inSlots, taken⟩ := List.mem_filterMap.mp member
  obtain ⟨name, named, rfl⟩ := Option.map_eq_some_iff.mp taken
  obtain ⟨f, inFields, _, own⟩ := mem_slots inSlots
  have value := List.all_eq_true.mp (names f inFields) name (own name named)
  simp [Statement.isNamed, Expr.isNamed, value, Naming.argField_identifier,
    field_named receiver (Naming.field_identifier identifier).2.1]

theorem answers_named {r : Receiver} {m : Method} (receiver : isIdentifier r.name = true)
    (identifier : isIdentifier m.name = true) : ∀ s ∈ r.answers m, s.isNamed = true := by
  intro s member
  unfold answers at member
  split at member
  · cases member
  · obtain rfl := List.mem_singleton.mp member
    refine exprsNamed_iff.mpr fun e inExprs => ?_
    obtain ⟨slot, _, rfl⟩ := List.mem_map.mp inExprs
    simp [Expr.isNamed, Naming.retField_identifier,
      field_named receiver (Naming.field_identifier identifier).2.2]

theorem body_named {r : Receiver} (o : SpyOptions) {m : Method} {params : List Field}
    (receiver : isIdentifier r.name = true) (identifier : isIdentifier m.name = true)
    (names : ∀ f ∈ params, f.names.all isIdentifier = true) :
    ∀ s ∈ r.body o m params, s.isNamed = true := by
  intro s member
  simp only [body, List.mem_append, List.mem_cons, or_assoc] at member
  rcases member with lock | rfl | capture | answer
  · have lockField : (r.field Naming.lockField).isNamed = true := field_named receiver rfl
    unfold lockCalls at lock
    split at lock
    · rcases List.mem_pair.mp lock with rfl | rfl
      · exact Bool.and_eq_true_iff.mpr ⟨Bool.and_eq_true_iff.mpr ⟨lockField, rfl⟩, rfl⟩
      · exact Bool.and_eq_true_iff.mpr ⟨Bool.and_eq_true_iff.mpr ⟨lockField, rfl⟩, rfl⟩
    · cases lock
  · exact Bool.and_eq_true_iff.mpr
      ⟨field_named receiver (Naming.field_identifier identifier).1, rfl⟩
  · exact captures_named receiver identifier names s capture
  · exact answers_named receiver identifier s answer

theorem body_some (r : Receiver) (o : SpyOptions) (m : Method) (params : List Field) :
    ∃ first others, r.body o m params = first :: others := by
  unfold body lockCalls
  split <;> exact ⟨_, _, rfl⟩

end Receiver

namespace Contract

theorem method_printable {o : SpyOptions} {c : Contract} (printable : c.Printable o)
    {m : Method} (member : m ∈ c.methods) (file : String) :
    ((c.receiver o).method o file m).Printable := by
  obtain ⟨identifier, normal⟩ := printable.methods m member
  obtain ⟨params, same, results, sameResults, plain⟩ := Signature.normal_parts normal
  have own := receiverName_identifier c
  obtain ⟨paramsNormal', sameNow⟩ :=
    Naming.callable_normal ((c.receiver o).reserved m) params same
  have bodyNamed := Receiver.body_named (r := c.receiver o) o own identifier fun f inParams =>
    Field.isNormalParam_names (paramsNormal' f inParams)
  obtain ⟨first, others, shape⟩ := (c.receiver o).body_some o m
    (Naming.callable ((c.receiver o).reserved m) m.signature.params)
  refine ⟨⟨_, rfl, rfl, ?_⟩, identifier, rfl, ?_, first, others, congrArg some shape,
    shape ▸ bodyNamed⟩
  · have names : [c.receiverName].all isIdentifier = true := by simp [own]
    exact Bool.and_eq_true_iff.mpr ⟨names, spyType_normal printable⟩
  · simp only [Receiver.method, Signature.isNormal, Bool.and_eq_true, paramsNormal_iff,
      resultsNormal_iff]
    exact ⟨⟨⟨⟨paramsNormal', sameNow⟩, results⟩, sameResults⟩, plain⟩

theorem spyDecls_printable {o : SpyOptions} {c : Contract} (printable : c.Printable o) :
    ∀ d ∈ c.spyDecls o, d.Printable := by
  intro d member
  rcases List.mem_cons.mp member with rfl | inMethods
  · exact .type c.place (record_printable printable)
  · obtain ⟨m, inContract, rfl⟩ := List.mem_map.mp inMethods
    exact .func (method_printable printable inContract c.place.file)

end Contract

end GoSpy
