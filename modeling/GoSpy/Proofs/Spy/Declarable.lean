import GoSpy.Proofs.Spy.Agreement
import GoSpy.Proofs.Spy.ParsedContracts
/- Whether the type of a spy can be declared. Its fields never clash with each other: the ending of
   a field's name tells what it is for, and what stands in front of it for which method. But a type
   may not have a field and a method of one name either, and the methods are called as the contract
   calls them; so the contract has to keep clear of the fields. -/
namespace GoSpy

inductive Method.HasField (m : Method) : String → Prop where
  | called : m.HasField (Naming.calledField m.name)
  | input (given : m.signature.params ≠ []) : m.HasField (Naming.inputField m.name)
  | output (given : m.signature.results ≠ []) : m.HasField (Naming.outputField m.name)

namespace Contract

theorem mem_captureField (name : String) (fieldName : Nat → String) (fields : List Field)
    (field : String) :
    field ∈ (captureField name fieldName fields).map Prod.fst ↔ fields ≠ [] ∧ field = name := by
  cases fields with
  | nil => simp [captureField]
  | cons first rest => simp [captureField]

theorem mem_methodFields (m : Method) (field : String) :
    field ∈ (methodFields m).map Prod.fst ↔ m.HasField field := by
  rw [methodFields, List.map_cons, List.map_append, List.mem_cons, List.mem_append,
    mem_captureField, mem_captureField]
  constructor
  · rintro (rfl | ⟨given, rfl⟩ | ⟨given, rfl⟩)
    · exact .called
    · exact .input given
    · exact .output given
  · intro has
    cases has with
    | called => exact Or.inl rfl
    | input given => exact Or.inr (Or.inl ⟨given, rfl⟩)
    | output given => exact Or.inr (Or.inr ⟨given, rfl⟩)

instance (m : Method) (field : String) : Decidable (m.HasField field) :=
  decidable_of_iff _ (mem_methodFields m field)

theorem mem_record_fields (o : SpyOptions) (c : Contract) (field : String) :
    field ∈ (c.record o).type.fields.map Prod.fst ↔
      (o.threadSafe = true ∧ field = Naming.lockField) ∨ ∃ m ∈ c.methods, m.HasField field := by
  rw [record_fields, List.map_append, List.mem_append, List.map_flatMap, List.mem_flatMap]
  simp only [mem_methodFields]
  apply or_congr_left
  cases o.threadSafe <;> simp

theorem mem_spyDecls_func (o : SpyOptions) (c : Contract) (f : FuncDecl) :
    .func f ∈ c.spyDecls o ↔ ∃ m ∈ c.methods, c.spyMethod o m = f := by
  simp [spyDecls, spyMethod]

/-- The fields of a record differ in name, and none is called as a method of the spy exactly if
    no method of the contract is called as the lock, where there is one, or as a field for a
    method. -/
theorem fields_clear_iff (o : SpyOptions) {c : Contract} (parsed : c.Parsed) :
    ((c.record o).type.fields.map Prod.fst).Nodup ∧
    ((∀ f, .func f ∈ c.spyDecls o → f.name ∉ (c.record o).type.fields.map Prod.fst) ↔
      (o.threadSafe = true → ∀ n ∈ c.methods, n.name ≠ Naming.lockField) ∧
        ∀ m ∈ c.methods, ∀ n ∈ c.methods, ¬ m.HasField n.name) := by
  refine ⟨record_nodup o parsed.distinct, ?_⟩
  simp only [mem_spyDecls_func, mem_record_fields]
  constructor
  · intro clear
    constructor
    · intro threadSafe n inMethods lock
      exact clear _ ⟨n, inMethods, rfl⟩ (Or.inl ⟨threadSafe, lock⟩)
    · intro m inMethods n inMethods' has
      exact clear _ ⟨n, inMethods', rfl⟩ (Or.inr ⟨m, inMethods, has⟩)
  · rintro ⟨lock, fields⟩ f ⟨n, inMethods, rfl⟩ (⟨threadSafe, same⟩ | ⟨m, inMethods', has⟩)
    · exact lock threadSafe n inMethods same
    · exact fields m inMethods' n inMethods has

/-- One method is called as a field that another would have if it had parameters, and one as the
    lock that the record would have if the spy were thread-safe. -/
def closeNames : String :=
  "package p\ntype S interface \x7b A(); A_Input(x int) error; mu() \x7d\n"

theorem closeNames_clear :
    ∃ c ∈ ofText closeNames, c.Parsed ∧ c.methods.map Method.name = ["A", "A_Input", "mu"] ∧
      (c.record {}).type.fields.map Prod.fst =
        ["A_Called", "A_Input_Called", "A_Input_Input", "A_Input_Output", "mu_Called"] ∧
      ∀ f, .func f ∈ c.spyDecls {} → f.name ∉ (c.record {}).type.fields.map Prod.fst := by
  have found : (ofText closeNames).any (fun c =>
      decide (c.methods.map Method.name = ["A", "A_Input", "mu"]) &&
        decide ((c.record {}).type.fields.map Prod.fst =
          ["A_Called", "A_Input_Called", "A_Input_Input", "A_Input_Output", "mu_Called"]) &&
        decide (∀ m ∈ c.methods, ∀ n ∈ c.methods, ¬ m.HasField n.name)) = true := by
    decide +kernel
  obtain ⟨c, member, facts⟩ := List.any_eq_true.mp found
  simp only [Bool.and_eq_true, decide_eq_true_eq] at facts
  obtain ⟨⟨names, fields⟩, apart⟩ := facts
  have parsed := parsed_ofText member
  have lock : ({} : SpyOptions).threadSafe = true →
      ∀ n ∈ c.methods, n.name ≠ Naming.lockField := by
    intro threadSafe
    cases threadSafe
  exact ⟨c, member, parsed, names, fields, (fields_clear_iff {} parsed).2.mpr ⟨lock, apart⟩⟩

theorem field_called_as_method :
    (∃ c ∈ ofText "package p\ntype S interface \x7b A(); A_Called() \x7d\n", c.Parsed ∧
      ∃ f, .func f ∈ c.spyDecls {} ∧ f.name = "A_Called" ∧
        "A_Called" ∈ (c.record {}).type.fields.map Prod.fst) ∧
    ∃ c ∈ ofText "package p\ntype S interface \x7b mu() \x7d\n", c.Parsed ∧
      ∃ f, .func f ∈ c.spyDecls ⟨"Fake", true⟩ ∧ f.name = "mu" ∧
        "mu" ∈ (c.record ⟨"Fake", true⟩).type.fields.map Prod.fst := by
  -- Both are found by one search for a contract with the method and the field.
  have clash {text name : String} {o : SpyOptions} (found : (ofText text).any (fun c =>
      c.methods.any (fun m => decide (m.name = name)) &&
        decide (name ∈ (c.record o).type.fields.map Prod.fst)) = true) :
      ∃ c ∈ ofText text, c.Parsed ∧ ∃ f, .func f ∈ c.spyDecls o ∧ f.name = name ∧
        name ∈ (c.record o).type.fields.map Prod.fst := by
    obtain ⟨c, member, facts⟩ := List.any_eq_true.mp found
    simp only [Bool.and_eq_true, List.any_eq_true, decide_eq_true_eq] at facts
    obtain ⟨⟨m, inMethods, named⟩, field⟩ := facts
    have generated := (mem_spyDecls_func o c (c.spyMethod o m)).mpr ⟨m, inMethods, rfl⟩
    exact ⟨c, member, parsed_ofText member, _, generated, named, field⟩
  exact ⟨clash (by decide +kernel), clash (by decide +kernel)⟩

end Contract

end GoSpy
