import GoSpy.Spy.Generation
import Mathlib.Data.List.Basic
/- The pass over a list of declarations. It visits the contracts of each group of contracts in the
   order of the text, stops at each of them and at each of its elements, and emits one thing at
   every stop: a record, a method, or a note that an element was skipped. What is generated is what
   was emitted, and what is emitted at a stop depends on nothing but the contract: not on the group
   that it is declared in, and not on the other contracts of that group. -/
namespace GoSpy

def TypeExpr.elements? : TypeExpr → Option (List Element)
  | .interface elements => some elements
  | _ => none

/-- A type that is declared by an interface literal and is no alias of it. -/
def TypeSpec.IsContract (spec : TypeSpec) : Prop :=
  spec.isAlias = false ∧ spec.type.elements?.isSome = true

instance (spec : TypeSpec) : Decidable spec.IsContract :=
  inferInstanceAs (Decidable (_ ∧ _))

def TypeSpec.contract (file : String) (spec : TypeSpec) : Contract :=
  ⟨spec.name, spec.typeParams, spec.type.elements?.getD [], ⟨file, spec.line⟩⟩

/-- A group of contracts: it is not empty, and each of its types is one. -/
def TypeDecl.IsContracts (group : TypeDecl) : Prop :=
  group.specs.isEmpty = false ∧ ∀ spec ∈ group.specs, spec.IsContract

instance (group : TypeDecl) : Decidable group.IsContracts :=
  inferInstanceAs (Decidable (_ ∧ _))

def Decl.visited : Decl → List Contract
  | type group =>
    if group.IsContracts then group.specs.map (TypeSpec.contract group.place.file) else []
  | func _ => []
  | value _ => []

inductive Stop where
  | contract (c : Contract)
  | element (c : Contract) (element : Element)

def Contract.stops (c : Contract) : List Stop := .contract c :: c.elements.map (.element c)

def Decl.typeSpecs : Decl → List TypeSpec
  | type group => group.specs
  | func _ => []
  | value _ => []

/-- What is emitted at a stop: for a contract a record that is called after it, for a method a
    method of that record with the same name, and for an embedded element its text. Each declaration
    has the file of the contract and the line of what it is for. -/
inductive Stop.Emits (o : SpyOptions) : Stop → Decl ⊕ Skipped → Prop where
  | record {c : Contract} {record : TypeSpec} (named : record.name = o.spyName c.name) :
      Emits o (.contract c) (.inl (.type ⟨[record], false, c.place⟩))
  | method {c : Contract} {name receiver : String} {signature : Signature} {line : Nat}
      {method : FuncDecl} (named : method.name = name)
      (received : method.receiver = some ⟨[receiver], .pointer (c.spyType o)⟩)
      (placed : method.place = ⟨c.place.file, line⟩) :
      Emits o (.element c (.method name signature line)) (.inl (.func method))
  | skipped {c : Contract} {type : TypeExpr} :
      Emits o (.element c (.embedded type)) (.inr ⟨c.name, type.spelling, .embedded⟩)

def Stop.emission (o : SpyOptions) : Stop → Decl ⊕ Skipped
  | contract c => .inl (.type ⟨[c.record o], false, c.place⟩)
  | element c (.method name signature line) =>
    .inl (.func ((c.receiver o).method o c.place.file ⟨name, signature, line⟩))
  | element c (.embedded type) => .inr ⟨c.name, type.spelling, .embedded⟩

namespace Generation

def append (front back : Generation) : Generation :=
  ⟨front.decls ++ back.decls, front.skipped ++ back.skipped, front.spies ++ back.spies⟩

def concat (parts : List Generation) : Generation := parts.foldr append ⟨[], [], []⟩

end Generation

theorem Stop.emission_emits (o : SpyOptions) (stop : Stop) : stop.Emits o (stop.emission o) := by
  cases stop with
  | contract c => exact .record rfl
  | element c element =>
    cases element with
    | method name signature line => exact .method rfl rfl rfl
    | embedded type => exact .skipped

/- The contracts of a declaration -/

theorem Contract.ofSpec?_eq (file : String) (spec : TypeSpec) :
    ofSpec? file spec = if spec.IsContract then some (spec.contract file) else none := by
  obtain ⟨name, typeParams, isAlias, type, line⟩ := spec
  cases type <;> cases isAlias <;> rfl

theorem TypeSpec.mapM_contract (file : String) (specs : List TypeSpec) :
    specs.mapM (Contract.ofSpec? file) =
      if ∀ spec ∈ specs, spec.IsContract then some (specs.map (contract file)) else none := by
  induction specs with
  | nil => rfl
  | cons spec rest ih =>
    rw [List.mapM_cons, ih, Contract.ofSpec?_eq]
    by_cases first : spec.IsContract
    · by_cases later : ∀ spec ∈ rest, spec.IsContract
      · rw [if_pos first, if_pos later, if_pos (List.forall_mem_cons.mpr ⟨first, later⟩)]
        rfl
      · rw [if_pos first, if_neg later, if_neg fun all => later (List.forall_mem_cons.mp all).2]
        rfl
    · rw [if_neg first, if_neg fun all => first (List.forall_mem_cons.mp all).1]
      rfl

theorem Decl.contracts_eq (d : Decl) : d.contracts = d.visited := by
  cases d with
  | func d => rfl
  | value d => rfl
  | type group =>
    have whole : (Decl.type group).contracts =
        (if group.specs.isEmpty then none
          else group.specs.mapM (Contract.ofSpec? group.place.file)).getD [] := rfl
    rw [whole, TypeSpec.mapM_contract, visited]
    -- In an empty group all types are contracts, so it is set apart.
    cases empty : group.specs.isEmpty with
    | true =>
      have none : ¬ group.IsContracts := by
        intro both
        rw [both.1] at empty
        cases empty
      rw [if_neg none]
      rfl
    | false =>
      by_cases all : ∀ spec ∈ group.specs, spec.IsContract
      · have both : group.IsContracts := ⟨empty, all⟩
        rw [if_pos all, if_pos both]
        rfl
      · rw [if_neg all, if_neg fun both : group.IsContracts => all both.2]
        rfl

theorem Decl.mem_contracts {d : Decl} {c : Contract} (member : c ∈ d.contracts) :
    ∃ group spec, d = .type group ∧ spec ∈ group.specs ∧
      Contract.ofSpec? group.place.file spec = some c := by
  rw [contracts_eq] at member
  cases d with
  | func d => cases member
  | value d => cases member
  | type group =>
    rw [visited] at member
    split at member
    · rename_i all
      obtain ⟨spec, inSpecs, rfl⟩ := List.mem_map.mp member
      refine ⟨group, spec, rfl, inSpecs, ?_⟩
      rw [Contract.ofSpec?_eq, if_pos (all.2 spec inSpecs)]
    · cases member

/- The emissions of a contract -/

namespace Contract

variable (o : SpyOptions) (c : Contract)

theorem spyDecls_emitted :
    c.spyDecls o = (c.stops.map (Stop.emission o)).filterMap Sum.getLeft? := by
  have methods : (c.elements.filterMap Element.method?).map
        (fun m => Decl.func ((c.receiver o).method o c.place.file m)) =
      ((c.elements.map (Stop.element c)).map (Stop.emission o)).filterMap Sum.getLeft? := by
    rw [List.map_filterMap, List.map_map, List.filterMap_map]
    refine congrArg (List.filterMap · c.elements) (funext fun element => ?_)
    cases element <;> rfl
  exact congrArg (List.cons _) methods

theorem skipped_emitted :
    c.skipped = (c.stops.map (Stop.emission o)).filterMap Sum.getRight? := by
  have embedded : (c.elements.filterMap Element.embedded?).map
        (fun type => Skipped.mk c.name type.spelling .embedded) =
      ((c.elements.map (Stop.element c)).map (Stop.emission o)).filterMap Sum.getRight? := by
    rw [List.map_filterMap, List.map_map, List.filterMap_map]
    refine congrArg (List.filterMap · c.elements) (funext fun element => ?_)
    cases element <;> rfl
  exact embedded

theorem spyDecls_typeSpecs : (c.spyDecls o).flatMap Decl.typeSpecs = [c.record o] := by
  have methods : (c.methods.map fun m =>
      Decl.func ((c.receiver o).method o c.place.file m)).flatMap Decl.typeSpecs = [] := by
    simp [Decl.typeSpecs]
  rw [spyDecls, List.flatMap_cons, methods]
  rfl

end Contract

namespace Generation

def ofContracts (o : SpyOptions) (contracts : List Contract) : Generation :=
  ⟨contracts.flatMap (Contract.spyDecls o), contracts.flatMap Contract.skipped,
    contracts.map fun c => o.spyName c.name⟩

variable (o : SpyOptions)

theorem of_eq (decls : List Decl) :
    Generation.of o decls = ofContracts o (decls.flatMap Decl.visited) := by
  have visited : decls.flatMap Decl.contracts = decls.flatMap Decl.visited :=
    List.flatMap_congr fun d _ => d.contracts_eq
  rw [Generation.of, visited]
  rfl

theorem ofContracts_append (front back : List Contract) :
    ofContracts o (front ++ back) = (ofContracts o front).append (ofContracts o back) := by
  simp [ofContracts, append]

theorem ofContracts_concat (contracts : List Contract) :
    ofContracts o contracts = concat (contracts.map fun c => ofContracts o [c]) := by
  induction contracts with
  | nil => rfl
  | cons c rest ih =>
    rw [List.map_cons, concat, List.foldr_cons, ← concat, ← ih]
    exact ofContracts_append o [c] rest

theorem of_append (front back : List Decl) :
    Generation.of o (front ++ back) = (Generation.of o front).append (Generation.of o back) := by
  rw [of_eq, of_eq, of_eq, List.flatMap_append, ofContracts_append]

theorem of_group (group : TypeDecl) :
    Generation.of o [.type group] =
      if group.IsContracts then
        concat (group.specs.map fun spec => Generation.of o [.type { group with specs := [spec] }])
      else concat [] := by
  rw [of_eq, List.flatMap_singleton, Decl.visited]
  by_cases all : group.IsContracts
  · -- A type of such a group is one in a group of its own as well.
    have alone : ∀ spec ∈ group.specs,
        Generation.of o [.type { group with specs := [spec] }] =
          ofContracts o [spec.contract group.place.file] := by
      intro spec member
      have single : ({ group with specs := [spec] } : TypeDecl).IsContracts :=
        ⟨rfl, by simpa using all.2 spec member⟩
      rw [of_eq, List.flatMap_singleton, Decl.visited, if_pos single]
      rfl
    rw [if_pos all, if_pos all, ofContracts_concat, List.map_map]
    exact congrArg concat (List.map_congr_left fun spec member => (alone spec member).symm)
  · rw [if_neg all, if_neg all]
    rfl

theorem spies_eq (decls : List Decl) :
    (Generation.of o decls).spies =
      ((Generation.of o decls).decls.flatMap Decl.typeSpecs).map TypeSpec.name := by
  have records : (Generation.of o decls).decls.flatMap Decl.typeSpecs =
      (decls.flatMap Decl.contracts).map (Contract.record o) := by
    simp only [Generation.of, List.flatMap_assoc, Contract.spyDecls_typeSpecs, List.map_eq_flatMap]
  rw [records, List.map_map]
  rfl

/-- The pass emits one thing at each of its stops, which depends on nothing but the contract there;
    the declarations and the notes are what was emitted, in order, and the spies are the types among
    it. So declarations generate the same in front of and behind any other ones, and a contract the
    same within its group and alone. -/
theorem of_emissions :
    (∃ emission : Stop → Decl ⊕ Skipped, (∀ stop : Stop, stop.Emits o (emission stop)) ∧
      ∀ decls : List Decl,
        let stops := (decls.flatMap Decl.visited).flatMap Contract.stops
        let emissions := stops.map emission
        (Generation.of o decls).decls = emissions.filterMap Sum.getLeft? ∧
          (Generation.of o decls).skipped = emissions.filterMap Sum.getRight? ∧
          (Generation.of o decls).spies =
            ((Generation.of o decls).decls.flatMap Decl.typeSpecs).map TypeSpec.name) ∧
    (∀ front back : List Decl,
      Generation.of o (front ++ back) =
        (Generation.of o front).append (Generation.of o back)) ∧
    ∀ group : TypeDecl, Generation.of o [.type group] =
      if group.IsContracts then
        concat (group.specs.map fun spec => Generation.of o [.type { group with specs := [spec] }])
      else concat [] := by
  refine ⟨⟨Stop.emission o, Stop.emission_emits o, ?_⟩, of_append o, of_group o⟩
  intro decls
  refine ⟨?_, ?_, spies_eq o decls⟩
  · rw [of_eq, List.map_flatMap, List.filterMap_flatMap]
    exact List.flatMap_congr fun c _ => c.spyDecls_emitted o
  · rw [of_eq, List.map_flatMap, List.filterMap_flatMap]
    exact List.flatMap_congr fun c _ => c.skipped_emitted o

-- Only the first contract of the group has a parameter that its receiver must keep clear of.
example :
    let putting (param : String) : TypeExpr :=
      .interface [.method "Put" ⟨[⟨[param], .name "int"⟩], []⟩ 2]
    let group : TypeDecl :=
      ⟨[⟨"Front", [], false, putting "f", 2⟩, ⟨"Back", [], false, putting "key", 3⟩], true,
        ⟨"store.go", 1⟩⟩
    (Generation.of ⟨"Fake", false⟩ [.type group]).decls.filterMap (fun
      | .func method => method.receiver.map Field.names
      | _ => none) = [["fake"], ["f"]] := by
  decide

end Generation

end GoSpy
