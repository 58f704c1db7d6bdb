import GoSpy.Spy.Generation
import GoSpy.Proofs.Spy.Parameters
/- A generated method and the record of its spy agree: the fields that its body writes to and
   gives back are the fields of the record, each used once, and of the type of what is kept in
   them. -/
namespace GoSpy

/- Fields of struct types -/

namespace TypeExpr

def fields : TypeExpr → List (String × TypeExpr)
  | .struct members => members.flatMap fun m => m.names.map fun name => (name, m.type)
  | _ => []

def fieldsWithin (outer : String × TypeExpr) : List ((String × String) × TypeExpr) :=
  outer.2.fields.map fun inner => ((outer.1, inner.1), inner.2)

def innerFields (t : TypeExpr) : List ((String × String) × TypeExpr) :=
  t.fields.flatMap fieldsWithin

theorem innerFields_nodup {t : TypeExpr} (outer : (t.fields.map Prod.fst).Nodup)
    (inner : ∀ f ∈ t.fields, (f.2.fields.map Prod.fst).Nodup) :
    (t.innerFields.map Prod.fst).Nodup := by
  rw [innerFields, List.map_flatMap, List.nodup_flatMap]
  constructor
  · intro f member
    have paths : (fieldsWithin f).map Prod.fst = (f.2.fields.map Prod.fst).map (Prod.mk f.1) := by
      simp [fieldsWithin]
    rw [paths]
    exact (inner f member).map (Prod.mk_right_injective f.1)
  · refine (List.pairwise_map.mp outer).imp ?_
    intro f g apart path inF inG
    simp only [fieldsWithin, List.map_map, List.mem_map, Function.comp_apply] at inF inG
    obtain ⟨_, _, rfl⟩ := inF
    obtain ⟨_, _, same⟩ := inG
    exact apart (congrArg Prod.fst same).symm

end TypeExpr

def Expr.inner (base outer field : String) : Expr := .select (.select (.ident base) outer) field

def Expr.innerField? (base : String) : Expr → Option (String × String)
  | .select (.select (.ident name) outer) field =>
    if name = base then some (outer, field) else none
  | _ => none

theorem Expr.innerField?_inner (base outer field : String) :
    (inner base outer field).innerField? base = some (outer, field) := by
  simp [inner, innerField?]

/-- The fields of a variable's fields that a statement writes to, reads or gives back. What it
    calls are methods. -/
def Statement.innerFields (base : String) : Statement → List (String × String)
  | .assign target value => [target, value].filterMap (Expr.innerField? base)
  | .give values => values.filterMap (Expr.innerField? base)
  | .run _ => []
  | .defer _ => []

theorem slots_index (fields : List Field) :
    (slots fields).map Slot.index = List.range (slots fields).length := by
  apply List.ext_getElem
  · simp
  · intro i _ _
    simp [slots]

theorem index_of_slot {fields : List Field} {i : Nat} {slot : Slot}
    (here : (slots fields)[i]? = some slot) : slot.index = i := by
  obtain ⟨bound, rfl⟩ := List.getElem?_eq_some_iff.mp here
  simp [slots]

namespace Naming

theorem argField_injective : Function.Injective argField :=
  fun _ _ same => number_text_injective (text_append_injective _ same)

theorem retField_injective : Function.Injective retField :=
  fun _ _ same => number_text_injective (text_append_injective _ same)

/-- The last letters of a field tell what it is for. -/
def ending (field : String) : List Char := field.toList.reverse.take 4

theorem ending_called (method : String) : ending (calledField method) = ['d', 'e', 'l', 'l'] := by
  simp [ending, calledField]

theorem ending_input (method : String) : ending (inputField method) = ['t', 'u', 'p', 'n'] := by
  simp [ending, inputField]

theorem ending_output (method : String) :
    ending (outputField method) = ['t', 'u', 'p', 't'] := by
  simp [ending, outputField]

def owner (field : String) : List Char :=
  (field.toList.reverse.drop (if ending field = ['t', 'u', 'p', 'n'] then 6 else 7)).reverse

theorem owner_called (method : String) : owner (calledField method) = method.toList := by
  rw [owner, ending_called]
  simp [calledField]

theorem owner_input (method : String) : owner (inputField method) = method.toList := by
  rw [owner, ending_input]
  simp [inputField]

theorem owner_output (method : String) : owner (outputField method) = method.toList := by
  rw [owner, ending_output]
  simp [outputField]

end Naming

namespace Contract

/- The record -/

theorem captureStruct_fields (fieldName : Nat → String) (fields : List Field) :
    (captureStruct fieldName fields).fields =
      (slots fields).map fun slot => (fieldName slot.index, slot.type.captured) := by
  simp only [captureStruct, TypeExpr.fields, Member.single, List.flatMap_map, List.map_cons,
    List.map_nil]
  exact List.map_eq_flatMap.symm

theorem captureStruct_nodup {fieldName : Nat → String} (distinct : Function.Injective fieldName)
    (fields : List Field) : ((captureStruct fieldName fields).fields.map Prod.fst).Nodup := by
  have names : (captureStruct fieldName fields).fields.map Prod.fst =
      ((slots fields).map Slot.index).map fieldName := by
    simp [captureStruct_fields]
  rw [names, slots_index]
  exact List.nodup_range.map distinct

def captureField (name : String) (fieldName : Nat → String) (fields : List Field) :
    List (String × TypeExpr) :=
  if fields.isEmpty then [] else [(name, captureStruct fieldName fields)]

theorem captureField_within (name : String) (fieldName : Nat → String) (fields : List Field) :
    (captureField name fieldName fields).flatMap TypeExpr.fieldsWithin =
      (slots fields).map fun slot => ((name, fieldName slot.index), slot.type.captured) := by
  cases fields with
  | nil => rfl
  | cons =>
    simp [captureField, TypeExpr.fieldsWithin, captureStruct_fields]

def methodFields (m : Method) : List (String × TypeExpr) :=
  (Naming.calledField m.name, .name "bool") ::
    (captureField (Naming.inputField m.name) Naming.argField m.signature.params ++
      captureField (Naming.outputField m.name) Naming.retField m.signature.results)

theorem record_fields (o : SpyOptions) (c : Contract) :
    (c.record o).type.fields =
      (if o.threadSafe then [(Naming.lockField, .qualified "sync" "Mutex")] else []) ++
        c.methods.flatMap methodFields := by
  have lock : ((lockMembers o).flatMap fun member => member.names.map fun name =>
      (name, member.type)) =
      if o.threadSafe then [(Naming.lockField, .qualified "sync" "Mutex")] else [] := by
    unfold lockMembers
    split <;> rfl
  have each (m : Method) : ((methodMembers m).flatMap fun member => member.names.map fun name =>
      (name, member.type)) = methodFields m := by
    unfold methodMembers inputMembers outputMembers methodFields captureField
    split <;> split <;> rfl
  simp only [record, TypeExpr.fields, members, List.flatMap_append, List.flatMap_assoc, lock, each]

def capturedFields (m : Method) : List ((String × String) × TypeExpr) :=
  (slots m.signature.params).map (fun slot =>
      ((Naming.inputField m.name, Naming.argField slot.index), slot.type.captured)) ++
    (slots m.signature.results).map fun slot =>
      ((Naming.outputField m.name, Naming.retField slot.index), slot.type.captured)

theorem record_innerFields (o : SpyOptions) (c : Contract) :
    (c.record o).type.innerFields = c.methods.flatMap capturedFields := by
  have lock : (if o.threadSafe then [(Naming.lockField, TypeExpr.qualified "sync" "Mutex")]
      else []).flatMap TypeExpr.fieldsWithin = [] := by
    split <;> rfl
  have each (m : Method) : (methodFields m).flatMap TypeExpr.fieldsWithin = capturedFields m := by
    rw [methodFields, List.flatMap_cons, List.flatMap_append, captureField_within,
      captureField_within]
    rfl
  rw [TypeExpr.innerFields, record_fields, List.flatMap_append, lock, List.nil_append,
    List.flatMap_assoc]
  simp only [each]

theorem methodFields_name {m : Method} {name : String}
    (member : name ∈ (methodFields m).map Prod.fst) :
    name = Naming.calledField m.name ∨ name = Naming.inputField m.name ∨
      name = Naming.outputField m.name := by
  simp only [methodFields, captureField, List.map_cons, List.map_append, List.mem_cons,
    List.mem_append] at member
  rcases member with called | input | output
  · exact Or.inl called
  · split at input <;> simp_all
  · split at output <;> simp_all

theorem methodFields_nodup (m : Method) : ((methodFields m).map Prod.fst).Nodup := by
  have called_input : Naming.calledField m.name ≠ Naming.inputField m.name := by
    apply ne_of_apply_ne Naming.ending
    simp [Naming.ending_called, Naming.ending_input]
  have called_output : Naming.calledField m.name ≠ Naming.outputField m.name := by
    apply ne_of_apply_ne Naming.ending
    simp [Naming.ending_called, Naming.ending_output]
  have input_output : Naming.inputField m.name ≠ Naming.outputField m.name := by
    apply ne_of_apply_ne Naming.ending
    simp [Naming.ending_input, Naming.ending_output]
  unfold methodFields captureField
  split <;> split <;> simp [called_input, called_output, input_output]

theorem methodFields_owner {m : Method} {name : String}
    (member : name ∈ (methodFields m).map Prod.fst) : Naming.owner name = m.name.toList := by
  rcases methodFields_name member with rfl | rfl | rfl
  · exact Naming.owner_called m.name
  · exact Naming.owner_input m.name
  · exact Naming.owner_output m.name

theorem lockField_not_method (m : Method) :
    Naming.lockField ∉ (methodFields m).map Prod.fst := by
  have short : (Naming.ending Naming.lockField).length = 2 := rfl
  intro member
  rcases methodFields_name member with same | same | same
  · rw [same, Naming.ending_called] at short
    cases short
  · rw [same, Naming.ending_input] at short
    cases short
  · rw [same, Naming.ending_output] at short
    cases short

theorem record_nodup (o : SpyOptions) {c : Contract}
    (distinct : (c.methods.map Method.name).Nodup) :
    ((c.record o).type.fields.map Prod.fst).Nodup := by
  have own : ((c.methods.flatMap methodFields).map Prod.fst).Nodup := by
    rw [List.map_flatMap, List.nodup_flatMap]
    constructor
    · intro m _
      exact methodFields_nodup m
    · refine (List.pairwise_map.mp distinct).imp ?_
      intro m n apart name inM inN
      have owners := (methodFields_owner inM).symm.trans (methodFields_owner inN)
      exact apart (String.toList_inj.mp owners)
  rw [record_fields, List.map_append]
  split
  · refine (List.nodup_singleton _).append own ?_
    intro name lock inOwn
    obtain rfl := List.mem_singleton.mp lock
    rw [List.map_flatMap] at inOwn
    obtain ⟨m, _, inMethod⟩ := List.mem_flatMap.mp inOwn
    exact lockField_not_method m inMethod
  · simpa using own

theorem record_inner_nodup (o : SpyOptions) {c : Contract}
    (distinct : (c.methods.map Method.name).Nodup) :
    ((c.record o).type.innerFields.map Prod.fst).Nodup := by
  refine TypeExpr.innerFields_nodup (record_nodup o distinct) ?_
  intro f member
  rw [record_fields] at member
  rcases List.mem_append.mp member with lock | own
  · split at lock
    · obtain rfl := List.mem_singleton.mp lock
      exact List.nodup_nil
    · cases lock
  · obtain ⟨m, _, inMethod⟩ := List.mem_flatMap.mp own
    simp only [methodFields, captureField, List.mem_cons, List.mem_append] at inMethod
    rcases inMethod with rfl | input | output
    · exact List.nodup_nil
    · split at input
      · cases input
      · obtain rfl := List.mem_singleton.mp input
        exact captureStruct_nodup Naming.argField_injective _
    · split at output
      · cases output
      · obtain rfl := List.mem_singleton.mp output
        exact captureStruct_nodup Naming.retField_injective _

end Contract

/- The methods -/

namespace Receiver

theorem captures_eq (r : Receiver) (m : Method) {params : List Field} {names : List String}
    (named : (slots params).map Slot.name = names.map some) :
    r.captures m params = names.mapIdx fun i name =>
      .assign (.inner r.name (Naming.inputField m.name) (Naming.argField i)) (.ident name) := by
  let capture : Nat → String → Statement := fun i name =>
    .assign (.inner r.name (Naming.inputField m.name) (Naming.argField i)) (.ident name)
  have each : (slots params).map (fun slot => slot.name.map (capture slot.index)) =
      (names.mapIdx capture).map some := by
    have lengths : (slots params).length = names.length := by
      simpa using congrArg List.length named
    apply List.ext_getElem
    · simpa using lengths
    · intro i inSlots inNames
      have bound : i < (slots params).length := by simpa using inSlots
      have named_at : i < names.length := lengths ▸ bound
      have name : (slots params)[i].name = some names[i] := by
        have here := congrArg (fun names => names[i]?) named
        simpa [bound, named_at] using here
      have index : (slots params)[i].index = i := by simp [slots]
      simp [name, index]
  calc r.captures m params
      = ((slots params).map fun slot => slot.name.map (capture slot.index)).filterMap id := by
        rw [List.filterMap_map]
        rfl
    _ = names.mapIdx capture := by rw [each, List.filterMap_map]; exact List.filterMap_some

theorem answers_eq (r : Receiver) (m : Method) :
    r.answers m =
      if m.signature.results.isEmpty then []
      else [.give ((List.range (slots m.signature.results).length).map fun j =>
        .inner r.name (Naming.outputField m.name) (Naming.retField j))] := by
  rw [← slots_index, List.map_map]
  rfl

theorem body_innerFields (r : Receiver) (o : SpyOptions) (m : Method) {params : List Field}
    {names : List String} (named : (slots params).map Slot.name = names.map some)
    (count : names.length = (slots m.signature.params).length) :
    (r.body o m params).flatMap (Statement.innerFields r.name) =
      (Contract.capturedFields m).map Prod.fst := by
  have lock : (r.lockCalls o).flatMap (Statement.innerFields r.name) = [] := by
    unfold lockCalls
    split <;> rfl
  have called : Statement.innerFields r.name
      (.assign (r.field (Naming.calledField m.name)) (.ident "true")) = [] := rfl
  have capture (i : Nat) (name : String) : Statement.innerFields r.name
      (.assign (.inner r.name (Naming.inputField m.name) (Naming.argField i)) (.ident name)) =
      [(Naming.inputField m.name, Naming.argField i)] := by
    simp only [Statement.innerFields, List.filterMap_cons, Expr.innerField?_inner]
    rfl
  have indices : names.zipIdx.map Prod.snd = List.range names.length := by
    rw [List.zipIdx_map_snd, List.range_eq_range']
  have captures : (r.captures m params).flatMap (Statement.innerFields r.name) =
      (List.range names.length).map fun i =>
        (Naming.inputField m.name, Naming.argField i) := by
    rw [captures_eq r m named, List.mapIdx_eq_zipIdx_map, List.flatMap_map]
    simp only [capture]
    rw [← List.map_eq_flatMap, ← indices, List.map_map]
    rfl
  have answers : (r.answers m).flatMap (Statement.innerFields r.name) =
      (List.range (slots m.signature.results).length).map fun j =>
        (Naming.outputField m.name, Naming.retField j) := by
    rw [answers_eq]
    split
    · rename_i none
      rw [List.isEmpty_iff.mp none]
      rfl
    · simp [Statement.innerFields, List.filterMap_map, Expr.innerField?_inner]
  rw [body, List.flatMap_append, List.flatMap_append, List.flatMap_cons, lock, called, captures,
    answers, count, ← slots_index, ← slots_index]
  simp [Contract.capturedFields, Function.comp_def]

end Receiver

namespace Contract

def spyMethod (o : SpyOptions) (c : Contract) (m : Method) : FuncDecl :=
  (c.receiver o).method o c.place.file m

/-- What ties the method `d` that is generated for `m` to `m` and to the record of the spy. -/
structure Records (o : SpyOptions) (c : Contract) (m : Method) (d : FuncDecl) : Prop where
  name : d.name = m.name
  receiver : d.receiver = some ⟨[c.receiverName], .pointer (c.spyType o)⟩
  shape : SameShape m.signature.params d.signature.params
  results : d.signature.results = m.signature.results
  body : ∃ names : List String,
    (slots d.signature.params).map Slot.name = names.map some ∧ "_" ∉ names ∧ d.body = some (
      (if o.threadSafe then
        [.run (.call (.inner c.receiverName Naming.lockField "Lock") []),
          .defer (.call (.inner c.receiverName Naming.lockField "Unlock") [])]
      else []) ++
      .assign (.select (.ident c.receiverName) (Naming.calledField m.name)) (.ident "true") ::
      names.mapIdx (fun i name =>
        .assign (.inner c.receiverName (Naming.inputField m.name) (Naming.argField i))
          (.ident name)) ++
      if m.signature.results.isEmpty then []
      else [.give ((List.range (slots m.signature.results).length).map fun j =>
        .inner c.receiverName (Naming.outputField m.name) (Naming.retField j))])
  lock : o.threadSafe = true →
    (Naming.lockField, .qualified "sync" "Mutex") ∈ (c.record o).type.fields
  called : (Naming.calledField m.name, .name "bool") ∈ (c.record o).type.fields
  arguments : ∀ i slot, (slots m.signature.params)[i]? = some slot →
    ((Naming.inputField m.name, Naming.argField i), slot.type.captured) ∈
      (c.record o).type.innerFields
  answers : ∀ j slot, (slots m.signature.results)[j]? = some slot →
    ((Naming.outputField m.name, Naming.retField j), slot.type.captured) ∈
      (c.record o).type.innerFields

theorem mem_innerFields {o : SpyOptions} {c : Contract} {m : Method} (member : m ∈ c.methods)
    {f : (String × String) × TypeExpr} (captured : f ∈ capturedFields m) :
    f ∈ (c.record o).type.innerFields := by
  rw [record_innerFields]
  exact List.mem_flatMap.mpr ⟨m, member, captured⟩

theorem spyMethod_names (o : SpyOptions) (c : Contract) (m : Method) :
    ∃ names : List String,
      (slots (c.spyMethod o m).signature.params).map Slot.name = names.map some ∧ "_" ∉ names ∧
        names.length = (slots m.signature.params).length := by
  let reserved := (c.receiver o).reserved m
  have names := Naming.callable_names reserved m.signature.params
  refine ⟨_, names, Naming.callable_no_blank reserved m.signature.params, ?_⟩
  have lengths := congrArg List.length names
  rw [List.length_map, List.length_map] at lengths
  rw [← lengths, (Naming.callable_shape reserved m.signature.params).length]

theorem spyMethod_records (o : SpyOptions) (c : Contract) {m : Method} (member : m ∈ c.methods) :
    c.Records o m (c.spyMethod o m) where
  name := rfl
  receiver := rfl
  shape := Naming.callable_shape _ _
  results := rfl
  body := by
    obtain ⟨names, named, noBlank, _⟩ := spyMethod_names o c m
    refine ⟨names, named, noBlank, ?_⟩
    have body : (c.spyMethod o m).body =
        some ((c.receiver o).body o m (c.spyMethod o m).signature.params) := rfl
    rw [body, Receiver.body, Receiver.captures_eq _ m named, Receiver.answers_eq]
    rfl
  lock := by
    intro threadSafe
    rw [record_fields, if_pos threadSafe]
    exact List.mem_append_left _ List.mem_cons_self
  called := by
    rw [record_fields]
    exact List.mem_append_right _ (List.mem_flatMap.mpr ⟨m, member, List.mem_cons_self⟩)
  arguments := by
    intro i slot here
    apply mem_innerFields member
    apply List.mem_append_left
    refine List.mem_map.mpr ⟨slot, List.mem_of_getElem? here, ?_⟩
    rw [index_of_slot here]
  answers := by
    intro j slot here
    apply mem_innerFields member
    apply List.mem_append_right
    refine List.mem_map.mpr ⟨slot, List.mem_of_getElem? here, ?_⟩
    rw [index_of_slot here]

/-- A spy's methods do what they say, and the fields that they use for arguments and results are
    those that the record has, in order. Where methods differ in name, no two fields of the
    record have one path. -/
theorem methods_agree_with_record (o : SpyOptions) (c : Contract) :
    (∀ m ∈ c.methods, c.Records o m (c.spyMethod o m)) ∧
      (c.methods.flatMap fun m => ((c.spyMethod o m).body.getD []).flatMap
        (Statement.innerFields c.receiverName)) = (c.record o).type.innerFields.map Prod.fst ∧
      ((c.methods.map Method.name).Nodup →
        ((c.record o).type.fields.map Prod.fst).Nodup ∧
          ((c.record o).type.innerFields.map Prod.fst).Nodup) := by
  refine ⟨fun m member => spyMethod_records o c member, ?_,
    fun distinct => ⟨record_nodup o distinct, record_inner_nodup o distinct⟩⟩
  rw [record_innerFields, List.map_flatMap]
  refine List.flatMap_congr fun m _ => ?_
  obtain ⟨names, named, _, count⟩ := spyMethod_names o c m
  exact (c.receiver o).body_innerFields o m named count

def put : Method :=
  ⟨"Put", ⟨[⟨["key"], .name "arg0"⟩, ⟨["_"], .name "int"⟩, ⟨["more"], .variadic (.name "f")⟩],
    [⟨["fake", "ok"], .name "bool"⟩]⟩, 3⟩

def archive : Contract :=
  ⟨"Archive", [⟨["arg0", "f"], .name "comparable"⟩],
    [.method put.name put.signature put.line, .embedded (.qualified "io" "Closer"),
      .method "Get" ⟨[⟨[], .name "arg0"⟩], [⟨[], .name "error"⟩]⟩ 5], ⟨"archive.go", 2⟩⟩

theorem archive_agrees :
    put ∈ archive.methods ∧ (archive.methods.map Method.name).Nodup ∧
      ((archive.spyMethod ⟨"Fake", true⟩ put).body.getD []).map Statement.spelling =
        ["spy.mu.Lock()", "defer spy.mu.Unlock()", "spy.Put_Called = true",
          "spy.Put_Input.Arg0 = arg_0", "spy.Put_Input.Arg1 = arg_1",
          "spy.Put_Input.Arg2 = arg_2", "return spy.Put_Output.Ret0, spy.Put_Output.Ret1"] ∧
      archive.Records ⟨"Fake", true⟩ put (archive.spyMethod ⟨"Fake", true⟩ put) ∧
      ((archive.record ⟨"Fake", true⟩).type.innerFields.map Prod.fst).Nodup := by
  have member : put ∈ archive.methods := List.mem_cons_self
  have distinct : (archive.methods.map Method.name).Nodup := by decide
  obtain ⟨each, _, paths⟩ := methods_agree_with_record ⟨"Fake", true⟩ archive
  exact ⟨member, distinct, by decide +kernel, each put member, (paths distinct).2⟩

end Contract

end GoSpy
