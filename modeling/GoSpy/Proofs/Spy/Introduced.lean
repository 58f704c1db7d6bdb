import GoSpy.Proofs.Spy.Scopes
import GoSpy.Proofs.Spy.Declarable
/- What generated code refers to without declaring it: in a method the value `true` of the flag, in a
   record the type `bool` of the flags and the package `sync` of the lock. Names that are chosen for
   a method keep clear of `true`, but names that are taken over are not looked at; so the contract
   has to keep clear of all three. -/
namespace GoSpy

mutual

/-- The identifiers of an expression in order. What is selected of a value is none. -/
def Expr.idents : Expr → List String
  | .ident name => [name]
  | .select base _ => base.idents
  | .call function args => function.idents ++ exprIdents args

def exprIdents : List Expr → List String
  | [] => []
  | expr :: rest => expr.idents ++ exprIdents rest

end

def Statement.idents : Statement → List String
  | .assign target value => target.idents ++ value.idents
  | .run call => call.idents
  | .defer call => call.idents
  | .give values => exprIdents values

def FuncDecl.freeIdents (d : FuncDecl) : List String :=
  ((d.body.getD []).flatMap Statement.idents).filter fun name => !d.declared.contains name

theorem exprIdents_of_base {base : String} {values : List Expr}
    (each : ∀ value ∈ values, value.idents = [base]) : ∀ name ∈ exprIdents values, name = base := by
  induction values with
  | nil => simp [exprIdents]
  | cons value rest ih =>
    obtain ⟨first, later⟩ := List.forall_mem_cons.mp each
    intro name member
    rw [exprIdents, first] at member
    rcases List.mem_append.mp member with here | there
    · exact List.mem_singleton.mp here
    · exact ih later name there

namespace Naming

theorem receiverCandidate_ne_true (n : Nat) : receiverCandidate n ≠ "true" := by
  match n with
  | 0 | 1 | 2 => decide
  | n + 3 =>
    intro same
    have first := congrArg (fun name : String => name.toList.head?) same
    simp [receiverCandidate] at first

theorem paramName_ne_true (underscores i : Nat) :
    paramName (paramStem underscores) i ≠ "true" := by
  intro same
  have first := congrArg (fun name : String => name.toList.head?) same
  simp [paramName, toList_paramStem] at first

end Naming

namespace Contract

theorem receiverName_ne_true (c : Contract) : c.receiverName ≠ "true" := by
  obtain ⟨n, chosen, _⟩ := firstFree_first c.scopeNames Naming.receiverCandidate_injective
  rw [receiverName, chosen]
  exact Naming.receiverCandidate_ne_true n

theorem true_mem_params (o : SpyOptions) (c : Contract) (m : Method) :
    "true" ∈ fieldNames (c.spyMethod o m).signature.params ++ fieldNames m.signature.results ↔
      "true" ∈ m.keptNames := by
  have params : (c.spyMethod o m).signature.params =
      Naming.callable ((c.receiver o).reserved m) m.signature.params := rfl
  rw [params]
  rcases Naming.callable_cases ((c.receiver o).reserved m) m.signature.params with
    ⟨named, kept⟩ | ⟨unnamed, underscores, renamed, _⟩
  · have none : (slots m.signature.params).any Slot.isUnnamed = false := by simpa using named
    simp only [kept, Method.keptNames, none, Bool.false_eq_true, if_false]
  · have some : (slots m.signature.params).any Slot.isUnnamed = true := by simpa using unnamed
    have chosen : "true" ∉
        fieldNames (Naming.renumber (Naming.paramStem underscores) 0 m.signature.params) := by
      intro member
      rw [Naming.fieldNames_renumber] at member
      obtain ⟨i, _, same⟩ := List.mem_map.mp member
      exact Naming.paramName_ne_true underscores i same
    simp only [renamed, Method.keptNames, some, if_true, List.nil_append, List.mem_append, chosen,
      false_or]

theorem true_mem_declared (o : SpyOptions) (c : Contract) (m : Method) :
    "true" ∈ (c.spyMethod o m).declared ↔
      "true" ∈ fieldNames c.typeParams ∨ "true" ∈ m.keptNames := by
  rw [spyMethod_declared, List.cons_append, List.mem_cons, List.mem_append, true_mem_params]
  constructor
  · rintro (same | inScope)
    · exact absurd same.symm c.receiverName_ne_true
    · exact inScope
  · exact Or.inr

end Contract

/- What bodies refer to -/

namespace Receiver

theorem lockCalls_idents (r : Receiver) (o : SpyOptions) :
    ∀ name ∈ (r.lockCalls o).flatMap Statement.idents, name = r.name := by
  intro name member
  unfold lockCalls at member
  split at member
  · simpa [Statement.idents, Expr.idents, exprIdents, field] using member
  · cases member

theorem captures_idents (r : Receiver) (m : Method) (params : List Field) :
    ∀ name ∈ (r.captures m params).flatMap Statement.idents,
      name = r.name ∨ name ∈ Contract.fieldNames params := by
  intro name member
  obtain ⟨s, inBody, used⟩ := List.mem_flatMap.mp member
  obtain ⟨slot, inSlots, found⟩ := List.mem_filterMap.mp inBody
  obtain ⟨argument, named, rfl⟩ := Option.map_eq_some_iff.mp found
  rcases List.mem_cons.mp used with receiver | own
  · exact Or.inl receiver
  · right
    rw [List.mem_singleton.mp own, ← slots_filterMap_name]
    exact List.mem_filterMap.mpr ⟨slot, inSlots, named⟩

theorem answers_idents (r : Receiver) (m : Method) :
    ∀ name ∈ (r.answers m).flatMap Statement.idents, name = r.name := by
  intro name member
  unfold answers at member
  split at member
  · cases member
  · rw [List.flatMap_singleton] at member
    refine exprIdents_of_base ?_ name member
    intro value inValues
    obtain ⟨slot, _, rfl⟩ := List.mem_map.mp inValues
    rfl

theorem filter_body_idents (r : Receiver) (o : SpyOptions) (m : Method) (params : List Field)
    {p : String → Bool} (receiver : p r.name = false)
    (own : ∀ name ∈ Contract.fieldNames params, p name = false) :
    ((r.body o m params).flatMap Statement.idents).filter p = ["true"].filter p := by
  have dropped {uses : List String} (none : ∀ name ∈ uses, p name = false) :
      uses.filter p = [] := by
    rw [List.filter_eq_nil_iff]
    intro name member
    simp [none name member]
  have lock : ((r.lockCalls o).flatMap Statement.idents).filter p = [] := by
    apply dropped
    intro name member
    rwa [r.lockCalls_idents o name member]
  have captures : ((r.captures m params).flatMap Statement.idents).filter p = [] := by
    apply dropped
    intro name member
    rcases r.captures_idents m params name member with same | inParams
    · rwa [same]
    · exact own name inParams
  have answers : ((r.answers m).flatMap Statement.idents).filter p = [] := by
    apply dropped
    intro name member
    rwa [r.answers_idents m name member]
  have flag : (Statement.assign (r.field (Naming.calledField m.name)) (.ident "true")).idents =
      [r.name, "true"] := rfl
  simp only [body, List.flatMap_append, List.flatMap_cons, List.filter_append, lock, captures,
    answers, flag, List.filter_cons_of_neg, receiver, List.nil_append, List.append_nil,
    Bool.false_eq_true, not_false_eq_true]

end Receiver

namespace Contract

theorem spyMethod_freeIdents (o : SpyOptions) (c : Contract) (m : Method) :
    (c.spyMethod o m).freeIdents =
      if "true" ∈ (c.spyMethod o m).declared then [] else ["true"] := by
  let d := c.spyMethod o m
  have declared := spyMethod_declared o c m
  have receiver : (!d.declared.contains c.receiverName) = false := by
    simp [d, declared]
  have own : ∀ name ∈ fieldNames d.signature.params, (!d.declared.contains name) = false := by
    intro name member
    simp [d, declared, show name ∈ fieldNames (c.spyMethod o m).signature.params from member]
  have free : d.freeIdents = ["true"].filter fun name => !d.declared.contains name :=
    (c.receiver o).filter_body_idents o m d.signature.params receiver own
  rw [free, List.filter_singleton]
  simp [d]

/-- What a spy's code introduces of its own accord stands for what it is meant to: no declaration
    of the spy gives it another meaning. -/
structure Hygienic (o : SpyOptions) (c : Contract) : Prop where
  value : ∀ f, .func f ∈ c.spyDecls o → "true" ∉ f.declared
  flag : ∀ d, .type d ∈ c.spyDecls o → ∀ spec ∈ d.specs, "bool" ∉ fieldNames spec.typeParams
  lock : o.threadSafe = true → ∀ d, .type d ∈ c.spyDecls o → ∀ spec ∈ d.specs,
    "sync" ∉ fieldNames spec.typeParams

theorem mem_spyDecls_typeParams (o : SpyOptions) (c : Contract) (name : String) :
    (∀ d, .type d ∈ c.spyDecls o → ∀ spec ∈ d.specs, name ∉ fieldNames spec.typeParams) ↔
      name ∉ fieldNames c.typeParams := by
  constructor
  · intro each
    exact each ⟨[c.record o], false, c.place⟩ List.mem_cons_self (c.record o) List.mem_cons_self
  · intro free d member spec inSpecs
    rcases List.mem_cons.mp member with same | later
    · obtain rfl := Decl.type.inj same
      obtain rfl := List.mem_singleton.mp inSpecs
      exact free
    · obtain ⟨_, _, other⟩ := List.mem_map.mp later
      cases other

theorem hygienic_iff (o : SpyOptions) (c : Contract) :
    c.Hygienic o ↔
      (∀ m ∈ c.methods, "true" ∉ fieldNames c.typeParams ∧ "true" ∉ m.keptNames) ∧
        "bool" ∉ fieldNames c.typeParams ∧
          (o.threadSafe = true → "sync" ∉ fieldNames c.typeParams) := by
  have value : (∀ f, .func f ∈ c.spyDecls o → "true" ∉ f.declared) ↔
      ∀ m ∈ c.methods, "true" ∉ fieldNames c.typeParams ∧ "true" ∉ m.keptNames := by
    simp only [mem_spyDecls_func, forall_exists_index, and_imp, forall_apply_eq_imp_iff₂,
      true_mem_declared, not_or]
  constructor
  · intro hygienic
    refine ⟨value.mp hygienic.value, (mem_spyDecls_typeParams o c "bool").mp hygienic.flag, ?_⟩
    intro threadSafe
    exact (mem_spyDecls_typeParams o c "sync").mp (hygienic.lock threadSafe)
  · rintro ⟨kept, flag, lock⟩
    refine ⟨value.mpr kept, (mem_spyDecls_typeParams o c "bool").mpr flag, ?_⟩
    intro threadSafe
    exact (mem_spyDecls_typeParams o c "sync").mpr (lock threadSafe)

/-- A generated method refers to nothing but what it declares and `true`, and what the spy's code
    introduces keeps its meaning exactly if the contract has no type parameter that is called so,
    and no method of it has a name `true` that is taken over. -/
theorem introduced_spared_iff (o : SpyOptions) (c : Contract) :
    (∀ f, .func f ∈ c.spyDecls o →
      f.freeIdents = if "true" ∈ f.declared then [] else ["true"]) ∧
    (c.Hygienic o ↔
      (∀ m ∈ c.methods, "true" ∉ fieldNames c.typeParams ∧ "true" ∉ m.keptNames) ∧
        "bool" ∉ fieldNames c.typeParams ∧
          (o.threadSafe = true → "sync" ∉ fieldNames c.typeParams)) := by
  constructor
  · intro f member
    obtain ⟨m, _, rfl⟩ := (mem_spyDecls_func o c f).mp member
    exact spyMethod_freeIdents o c m
  · exact hygienic_iff o c

/-- Each of the three is captured by a name that the contract is free to use: the value by a
    parameter, the type and the package by a type parameter. -/
theorem introduced_captured :
    (∃ c ∈ ofText "package p\ntype S interface \x7b Put(true string) \x7d\n", c.Parsed ∧
      (∃ f, .func f ∈ c.spyDecls {} ∧ f.declared = ["f", "true"] ∧ f.freeIdents = []) ∧
      ¬ c.Hygienic {}) ∧
    (∃ c ∈ ofText "package p\ntype S[bool any] interface \x7b Reset() \x7d\n", c.Parsed ∧
      ¬ c.Hygienic {}) ∧
    ∃ c ∈ ofText "package p\ntype S[sync any] interface \x7b Reset() \x7d\n", c.Parsed ∧
      ¬ c.Hygienic ⟨"Fake", true⟩ := by
  refine ⟨?_, ?_, ?_⟩
  · have found : (ofText "package p\ntype S interface \x7b Put(true string) \x7d\n").any
        (fun c => c.methods.any fun m => decide ((c.spyMethod {} m).declared = ["f", "true"] ∧
          (c.spyMethod {} m).freeIdents = [])) = true := by
      decide +kernel
    obtain ⟨c, member, facts⟩ := List.any_eq_true.mp found
    obtain ⟨m, inMethods, captured⟩ := List.any_eq_true.mp facts
    obtain ⟨declared, free⟩ := of_decide_eq_true captured
    have generated := (mem_spyDecls_func {} c (c.spyMethod {} m)).mpr ⟨m, inMethods, rfl⟩
    refine ⟨c, member, parsed_ofText member, ⟨_, generated, declared, free⟩, ?_⟩
    intro hygienic
    exact hygienic.value _ generated (declared ▸ by decide)
  · have found : (ofText "package p\ntype S[bool any] interface \x7b Reset() \x7d\n").any
        (fun c => decide ("bool" ∈ fieldNames c.typeParams)) = true := by
      decide +kernel
    obtain ⟨c, member, bound⟩ := List.any_eq_true.mp found
    refine ⟨c, member, parsed_ofText member, ?_⟩
    rw [hygienic_iff]
    rintro ⟨_, flag, _⟩
    exact flag (of_decide_eq_true bound)
  · have found : (ofText "package p\ntype S[sync any] interface \x7b Reset() \x7d\n").any
        (fun c => decide ("sync" ∈ fieldNames c.typeParams)) = true := by
      decide +kernel
    obtain ⟨c, member, bound⟩ := List.any_eq_true.mp found
    refine ⟨c, member, parsed_ofText member, ?_⟩
    rw [hygienic_iff]
    rintro ⟨_, _, lock⟩
    exact lock rfl (of_decide_eq_true bound)

end Contract

end GoSpy
