import GoSpy.Proofs.Spy.Agreement
import GoSpy.Proofs.Spy.ParsedContracts
/- The names that a generated method declares: its receiver, the type parameters that come with
   the receiver's type, its parameters and its results. The names that are chosen here are clear
   of each other and of all names that are taken over. Names taken over from one method differ if
   they do in the contract, but nothing keeps them clear of the contract's type parameters. -/
namespace GoSpy

namespace Naming

theorem receiverCandidate_numbered (n : Nat) :
    receiverCandidate (n + 3) ∉ ["f", "fake", "spy"] := by
  have letters : (receiverCandidate (n + 3)).toList = 'f' :: (toString n).toList := by
    rw [receiverCandidate, String.toList_append]
    rfl
  obtain ⟨c, digit⟩ := exists_digit n
  intro member
  simp only [List.mem_cons, List.not_mem_nil, or_false] at member
  rcases member with same | same | same
  · rw [same] at letters
    rw [← (List.cons.inj letters).2] at digit
    cases digit
  · rw [same] at letters
    have letter : 'a' ∈ (toString n).toList := by
      rw [← (List.cons.inj letters).2]
      exact List.mem_cons_self
    exact absurd (isDigit_of_number letter) (by decide)
  · rw [same] at letters
    exact absurd (List.cons.inj letters).1 (by decide)

theorem receiverCandidate_injective : Function.Injective receiverCandidate := by
  have early : ∀ i, i < 3 → receiverCandidate i ∈ ["f", "fake", "spy"] := by decide
  have distinct : ∀ i, i < 3 → ∀ j, j < 3 → receiverCandidate i = receiverCandidate j → i = j := by
    decide
  intro i j same
  rcases Nat.lt_or_ge i 3 with first | numbered <;> rcases Nat.lt_or_ge j 3 with first' | numbered'
  · exact distinct i first j first' same
  · obtain ⟨n, rfl⟩ := Nat.exists_eq_add_of_le' numbered'
    exact absurd (same ▸ early i first) (receiverCandidate_numbered n)
  · obtain ⟨n, rfl⟩ := Nat.exists_eq_add_of_le' numbered
    exact absurd (same ▸ early j first') (receiverCandidate_numbered n)
  · obtain ⟨n, rfl⟩ := Nat.exists_eq_add_of_le' numbered
    obtain ⟨k, rfl⟩ := Nat.exists_eq_add_of_le' numbered'
    have numbers := number_text_injective (text_append_injective "f" same)
    omega

end Naming

def TypeExpr.receiverParams : TypeExpr → List String
  | .pointer (.generic _ args) => args.filterMap fun
    | .name param => some param
    | _ => none
  | _ => []

def FuncDecl.declared (d : FuncDecl) : List String :=
  (d.receiver.toList.flatMap fun r => r.names ++ r.type.receiverParams) ++
    (Contract.fieldNames d.signature.params ++ Contract.fieldNames d.signature.results)

/-- Names that differ from each other, blank ones aside. -/
def Apart (names : List String) : Prop := (names.filter (· != "_")).Nodup

instance (names : List String) : Decidable (Apart names) :=
  inferInstanceAs (Decidable (List.Nodup _))

theorem apart_append {front back : List String} :
    Apart (front ++ back) ↔
      Apart front ∧ Apart back ∧ ∀ name ∈ front, name ≠ "_" → name ∉ back := by
  rw [Apart, List.filter_append, List.nodup_append']
  refine and_congr_right fun _ => and_congr_right fun _ => ?_
  constructor
  · intro disjoint name inFront visible inBack
    have kept : (name != "_") = true := by simpa using visible
    exact disjoint (List.mem_filter.mpr ⟨inFront, kept⟩) (List.mem_filter.mpr ⟨inBack, kept⟩)
  · intro apart name inFront inBack
    obtain ⟨first, visible⟩ := List.mem_filter.mp inFront
    exact apart name first (by simpa using visible) (List.mem_filter.mp inBack).1

/-- The names that a method takes over from its contract: those of results, and those of parameters
    if each of them can be referred to. -/
def Method.keptNames (m : Method) : List String :=
  (if (slots m.signature.params).any Slot.isUnnamed then []
    else Contract.fieldNames m.signature.params) ++ Contract.fieldNames m.signature.results

namespace Contract

theorem fieldNames_append (front back : List Field) :
    fieldNames (front ++ back) = fieldNames front ++ fieldNames back := List.flatMap_append

theorem typeParamNames_eq (c : Contract) : c.typeParamNames = fieldNames c.typeParams :=
  slots_filterMap_name c.typeParams

theorem receiverName_fresh (c : Contract) : c.receiverName ∉ c.scopeNames :=
  firstFree_not_taken _ Naming.receiverCandidate_injective

theorem spyMethod_declared (o : SpyOptions) (c : Contract) (m : Method) :
    (c.spyMethod o m).declared =
      c.receiverName :: fieldNames c.typeParams ++
        (fieldNames (c.spyMethod o m).signature.params ++ fieldNames m.signature.results) := by
  have params : (TypeExpr.pointer (c.spyType o)).receiverParams = fieldNames c.typeParams := by
    rw [← typeParamNames_eq]
    unfold spyType
    split
    · rename_i none
      rw [List.isEmpty_iff.mp none]
      rfl
    · simp [TypeExpr.receiverParams, List.filterMap_map]
  have receiver : (c.spyMethod o m).declared =
      ([c.receiverName] ++ (TypeExpr.pointer (c.spyType o)).receiverParams) ++ [] ++
        (fieldNames (c.spyMethod o m).signature.params ++ fieldNames m.signature.results) := rfl
  rw [receiver, params, List.append_nil]
  rfl

theorem receiverName_clear (c : Contract) {m : Method} (member : m ∈ c.methods) :
    c.receiverName ∉ fieldNames c.typeParams ∧
      c.receiverName ∉ fieldNames m.signature.params ∧
        c.receiverName ∉ fieldNames m.signature.results := by
  have fresh := c.receiverName_fresh
  have within {f : Field} (inMethod : f ∈ m.signature.params ++ m.signature.results)
      (taken : c.receiverName ∈ f.names) : False := by
    refine fresh (List.mem_flatMap.mpr ⟨f, List.mem_append_left _ ?_, taken⟩)
    exact List.mem_flatMap.mpr ⟨m, member, inMethod⟩
  refine ⟨?_, ?_, ?_⟩
  · intro taken
    obtain ⟨f, inFields, inNames⟩ := List.mem_flatMap.mp taken
    exact fresh (List.mem_flatMap.mpr ⟨f, List.mem_append_right _ inFields, inNames⟩)
  · intro taken
    obtain ⟨f, inFields, inNames⟩ := List.mem_flatMap.mp taken
    exact within (List.mem_append_left _ inFields) inNames
  · intro taken
    obtain ⟨f, inFields, inNames⟩ := List.mem_flatMap.mp taken
    exact within (List.mem_append_right _ inFields) inNames

theorem params_clear (o : SpyOptions) (c : Contract) {m : Method} (member : m ∈ c.methods)
    (own : Apart (fieldNames (m.signature.params ++ m.signature.results))) :
    let names := fieldNames (c.spyMethod o m).signature.params ++ fieldNames m.signature.results
    c.receiverName ∉ names ∧ Apart names ∧
      ((∀ name ∈ names, name ≠ "_" → name ∉ fieldNames c.typeParams) ↔
        ∀ name ∈ m.keptNames, name ≠ "_" → name ∉ fieldNames c.typeParams) := by
  obtain ⟨_, clearParams, clearResults⟩ := receiverName_clear c member
  rw [fieldNames_append] at own
  let reserved := (c.receiver o).reserved m
  have params : (c.spyMethod o m).signature.params =
      Naming.callable reserved m.signature.params := rfl
  rw [params]
  rcases Naming.callable_cases reserved m.signature.params with
    ⟨named, kept⟩ | ⟨unnamed, underscores, renamed, free, _⟩
  · -- All parameters have names, and these are kept.
    have keptNames : m.keptNames =
        fieldNames m.signature.params ++ fieldNames m.signature.results := by
      have none : (slots m.signature.params).any Slot.isUnnamed = false := by simpa using named
      simp only [Method.keptNames, none, Bool.false_eq_true, if_false]
    rw [kept, keptNames]
    exact ⟨by simp [clearParams, clearResults], own, Iff.rfl⟩
  · -- All are numbered anew, out of the way of what is reserved; only results keep their names.
    have keptNames : m.keptNames = fieldNames m.signature.results := by
      have some : (slots m.signature.params).any Slot.isUnnamed = true := by simpa using unnamed
      simp only [Method.keptNames, some, if_true, List.nil_append]
    have new : ∀ name ∈ fieldNames (Naming.renumber (Naming.paramStem underscores) 0
        m.signature.params), name ∉ reserved := by
      intro name inNew
      rw [Naming.fieldNames_renumber] at inNew
      obtain ⟨i, inRange, rfl⟩ := List.mem_map.mp inNew
      exact free i (by simpa using inRange)
    have reserved_eq : reserved =
        fieldNames m.signature.results ++ fieldNames c.typeParams ++ [c.receiverName] := by
      rw [← typeParamNames_eq]
      rfl
    simp only [reserved_eq, List.mem_append, List.mem_singleton, not_or] at new
    rw [renamed, keptNames]
    refine ⟨?_, apart_append.mpr ⟨?_, (apart_append.mp own).2.1, ?_⟩, ?_⟩
    · intro taken
      rcases List.mem_append.mp taken with inNew | inResults
      · exact (new _ inNew).2 rfl
      · exact clearResults inResults
    · exact (Naming.fieldNames_renumber_nodup underscores 0 _).filter _
    · intro name inNew _
      exact (new name inNew).1.1
    · constructor
      · intro clear name inResults
        exact clear name (List.mem_append_right _ inResults)
      · intro clear name inNames
        rcases List.mem_append.mp inNames with inNew | inResults
        · intro _
          exact (new name inNew).1.2
        · exact clear name inResults

/-- Where names that come from one list of a contract differ, those of a generated method differ
    exactly if none that it keeps is also a type parameter. -/
theorem declared_apart_iff (o : SpyOptions) (c : Contract)
    (own : ∀ m ∈ c.methods, Apart (fieldNames (m.signature.params ++ m.signature.results)))
    (typeParams : Apart (fieldNames c.typeParams)) :
    ∀ m ∈ c.methods, Apart (c.spyMethod o m).declared ↔
      ∀ name ∈ m.keptNames, name ≠ "_" → name ∉ fieldNames c.typeParams := by
  intro m member
  obtain ⟨clear, apart, kept⟩ := params_clear o c member (own m member)
  obtain ⟨clearTypes, _⟩ := receiverName_clear c member
  have whole : (c.spyMethod o m).declared = [c.receiverName] ++ (fieldNames c.typeParams ++
      (fieldNames (c.spyMethod o m).signature.params ++ fieldNames m.signature.results)) :=
    spyMethod_declared o c m
  rw [whole, apart_append, apart_append, ← kept]
  constructor
  · rintro ⟨_, ⟨_, _, disjoint⟩, _⟩ name inNames visible inTypes
    exact disjoint name inTypes visible inNames
  · intro disjoint
    refine ⟨(List.nodup_singleton _).filter _, ⟨typeParams, apart, ?_⟩, ?_⟩
    · intro name inTypes visible inNames
      exact disjoint name inNames visible inTypes
    · intro name single _ taken
      obtain rfl := List.mem_singleton.mp single
      rcases List.mem_append.mp taken with inTypes | inNames
      · exact clearTypes inTypes
      · exact clear inNames

theorem archive_apart :
    (∀ m ∈ archive.methods, Apart (fieldNames (m.signature.params ++ m.signature.results))) ∧
      Apart (fieldNames archive.typeParams) ∧ put ∈ archive.methods ∧
      (archive.spyMethod {} put).declared =
        ["spy", "arg0", "f", "arg_0", "arg_1", "arg_2", "fake", "ok"] ∧
      Apart (archive.spyMethod {} put).declared := by
  have own : ∀ m ∈ archive.methods,
      Apart (fieldNames (m.signature.params ++ m.signature.results)) := by decide
  have typeParams : Apart (fieldNames archive.typeParams) := by decide
  have member : put ∈ archive.methods := List.mem_cons_self
  have kept : ∀ name ∈ put.keptNames, name ≠ "_" → name ∉ fieldNames archive.typeParams := by
    decide
  exact ⟨own, typeParams, member, by decide +kernel,
    (declared_apart_iff {} archive own typeParams put member).mpr kept⟩

theorem type_parameter_redeclared :
    ∃ c ∈ ofText "package p\ntype S[K any] interface \x7b Put(K string) \x7d\n", c.Parsed ∧
      (∀ m ∈ c.methods, Apart (fieldNames (m.signature.params ++ m.signature.results))) ∧
      Apart (fieldNames c.typeParams) ∧
      ∃ m ∈ c.methods, (c.spyMethod {} m).declared = ["f", "K", "K"] ∧
        ¬ Apart (c.spyMethod {} m).declared := by
  have found : (ofText "package p\ntype S[K any] interface \x7b Put(K string) \x7d\n").any
      (fun c => c.methods.all (fun m =>
          decide (Apart (fieldNames (m.signature.params ++ m.signature.results)))) &&
        decide (Apart (fieldNames c.typeParams)) &&
        c.methods.any fun m => decide ((c.spyMethod {} m).declared = ["f", "K", "K"])) = true := by
    decide +kernel
  obtain ⟨c, member, facts⟩ := List.any_eq_true.mp found
  simp only [Bool.and_eq_true, List.all_eq_true, List.any_eq_true, decide_eq_true_eq] at facts
  obtain ⟨⟨own, typeParams⟩, m, inMethods, declared⟩ := facts
  refine ⟨c, member, parsed_ofText member, own, typeParams, m, inMethods, declared, ?_⟩
  rw [declared]
  decide

end Contract

end GoSpy
