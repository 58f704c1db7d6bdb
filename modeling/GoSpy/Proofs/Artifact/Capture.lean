import GoSpy.Proofs.Artifact.Resolution
import GoSpy.Proofs.Spy.Scopes
/- Local names of imports against the other names of the declarations. The name of a path is a
   qualifier that some declaration uses for it, or such a qualifier with a number behind it. A
   qualifier of the first kind stands for a path in every file, so that only a numbered name can be
   one that stands for none. A declaration whose type parameters are not among its qualifiers can
   get a name that is one of them, either a numbered one or one that another declaration uses. -/
namespace GoSpy

/-- The type parameters that a declaration binds, those of a method by its receiver's type. -/
def Decl.typeParamNames : Decl → List String
  | .type d => d.specs.flatMap fun spec => Contract.fieldNames spec.typeParams
  | .func d =>
    d.receiver.toList.flatMap (fun r => r.type.receiverParams) ++ Contract.fieldNames d.typeParams
  | .value _ => []

def TypeParamsApart (decls : List Decl) : Prop :=
  ∀ d ∈ decls, ∀ name ∈ d.typeParamNames, name ∉ d.qualifiers

instance (decls : List Decl) : Decidable (TypeParamsApart decls) :=
  inferInstanceAs (Decidable (∀ d ∈ decls, ∀ name ∈ d.typeParamNames, name ∉ d.qualifiers))

namespace Binding

/-- The name is `wanted` with a number, and what is tried before it are names of other paths. -/
def NumberedFrom (table : List Binding) (wanted : String) (b : Binding) : Prop :=
  ∃ n, b.localName = candidate wanted (n + 1) ∧
    ∀ i ≤ n, ∃ other ∈ table, other.path ≠ b.path ∧ other.localName = candidate wanted i

theorem mem_add {table : List Binding} {b : Binding} (member : b ∈ table)
    (qualifier path : String) : b ∈ add table qualifier path := by
  unfold add
  split
  · exact member
  · exact List.mem_append_left _ member

theorem mem_foldl_add {uses : List (String × String)} {table : List Binding} {b : Binding}
    (member : b ∈ table) : b ∈ uses.foldl (fun t use => add t use.1 use.2) table := by
  induction uses generalizing table with
  | nil => exact member
  | cons use rest ih => exact ih (mem_add member use.1 use.2)

theorem freeName_cases {table : List Binding} {wanted path : String}
    (unknown : path ∉ table.map Binding.path) :
    freeName table wanted = wanted ∨ NumberedFrom table wanted ⟨freeName table wanted, path⟩ := by
  obtain ⟨n, found, _, before⟩ :=
    firstFree_first (table.map localName) (candidate_injective wanted)
  have name : freeName table wanted = candidate wanted n := found
  cases n with
  | zero => exact Or.inl name
  | succ n =>
    refine Or.inr ⟨n, name, ?_⟩
    intro i below
    obtain ⟨other, inTable, same⟩ := List.mem_map.mp (before i (by omega))
    refine ⟨other, inTable, ?_, same⟩
    intro samePath
    exact unknown (List.mem_map.mpr ⟨other, inTable, samePath⟩)

theorem NumberedFrom.mono {table larger : List Binding} {wanted : String} {b : Binding}
    (numbered : NumberedFrom table wanted b) (within : ∀ other ∈ table, other ∈ larger) :
    NumberedFrom larger wanted b := by
  obtain ⟨n, name, before⟩ := numbered
  refine ⟨n, name, ?_⟩
  intro i below
  obtain ⟨other, inTable, facts⟩ := before i below
  exact ⟨other, within other inTable, facts⟩

theorem foldl_add_named (uses : List (String × String)) (table : List Binding) :
    ∀ b ∈ uses.foldl (fun t use => add t use.1 use.2) table, b ∈ table ∨
      ∃ use ∈ uses, use.2 = b.path ∧ (b.localName = use.1 ∨
        NumberedFrom (uses.foldl (fun t use => add t use.1 use.2) table) use.1 b) := by
  induction uses generalizing table with
  | nil =>
    intro b member
    exact Or.inl member
  | cons use rest ih =>
    obtain ⟨qualifier, path⟩ := use
    intro b member
    rcases ih _ b member with early | ⟨later, inRest, facts⟩
    · change b ∈ add table qualifier path at early
      by_cases known : path ∈ table.map Binding.path
      · rw [add_known qualifier known] at early
        exact Or.inl early
      · rw [add_unknown qualifier known] at early
        rcases List.mem_append.mp early with old | new
        · exact Or.inl old
        · obtain rfl := List.mem_singleton.mp new
          refine Or.inr ⟨_, List.mem_cons_self, rfl, ?_⟩
          refine (freeName_cases known).imp id fun numbered => numbered.mono ?_
          intro other inTable
          exact mem_foldl_add inTable
    · exact Or.inr ⟨later, List.mem_cons_of_mem _ inRest, facts⟩

end Binding

namespace Scope

variable (scope : Scope) (decls : List Decl)

/-- Some declaration uses the path under its local name. -/
def Kept (b : Binding) : Prop := ∃ d ∈ decls, scope.Uses d b.localName b.path

/-- Some declaration uses the path under a name that was taken. -/
def Numbered (b : Binding) : Prop :=
  ∃ d ∈ decls, ∃ wanted, scope.Uses d wanted b.path ∧
    b.NumberedFrom (scope.bindings decls) wanted

theorem kept_or_numbered {b : Binding} (member : b ∈ scope.bindings decls) :
    scope.Kept decls b ∨ scope.Numbered decls b := by
  rcases Binding.foldl_add_named _ _ b member with none | ⟨use, inUses, path, named⟩
  · cases none
  · obtain ⟨d, inDecls, used⟩ := List.mem_flatMap.mp inUses
    have uses := (scope.mem_uses d use).mp used
    rw [path] at uses
    rcases named with same | numbered
    · exact Or.inl ⟨d, inDecls, same ▸ uses⟩
    · exact Or.inr ⟨d, inDecls, use.1, uses, numbered⟩

variable {scope decls}

theorem lookup_eq_none {qualifier : String} (file : String) :
    scope.lookup file qualifier = none ↔
      scope.anyBinding qualifier = none ∧ builtin qualifier = none := by
  have own : scope.anyBinding qualifier = none → scope.ownBinding file qualifier = none := by
    intro none
    rw [ownBinding, Option.bind_eq_none_iff]
    intro f found
    exact List.findSome?_eq_none_iff.mp none f (List.mem_of_find?_eq_some found)
  simp only [lookup, Option.orElse_eq_orElse, Option.orElse_eq_or, Option.or_eq_none_iff]
  constructor
  · rintro ⟨_, none⟩
    exact none
  · intro none
    exact ⟨own none.1, none⟩

theorem Kept.resolves {b : Binding} (kept : scope.Kept decls b) (file : String) :
    scope.lookup file b.localName ≠ none := by
  obtain ⟨d, _, _, found⟩ := kept
  rw [Ne, lookup_eq_none file, ← lookup_eq_none d.place.file, found]
  simp

variable (scope decls)

def SparesUnresolved : Prop :=
  ∀ d ∈ decls, ∀ q ∈ d.qualifiers, scope.lookup d.place.file q = none →
    q ∉ (scope.resolve decls).imports.map Import.localName

instance : Decidable (scope.SparesUnresolved decls) :=
  inferInstanceAs (Decidable (∀ d ∈ decls, ∀ q ∈ d.qualifiers,
    scope.lookup d.place.file q = none →
      q ∉ (scope.resolve decls).imports.map Import.localName))

def SparesTypeParams : Prop :=
  ∀ d ∈ decls, ∀ q ∈ d.qualifiers,
    scope.rename (scope.bindings decls) d.place.file q ≠ q →
      scope.rename (scope.bindings decls) d.place.file q ∉ d.typeParamNames

instance : Decidable (scope.SparesTypeParams decls) :=
  inferInstanceAs (Decidable (∀ d ∈ decls, ∀ q ∈ d.qualifiers,
    scope.rename (scope.bindings decls) d.place.file q ≠ q →
      scope.rename (scope.bindings decls) d.place.file q ∉ d.typeParamNames))

/-- A numbered name is a qualifier of the declaration that stands for no path. -/
def CapturesUnresolved (d : Decl) (b : Binding) : Prop :=
  scope.Numbered decls b ∧ b.localName ∈ d.qualifiers ∧
    scope.lookup d.place.file b.localName = none

/-- A path that the declaration uses has a name that is numbered or that another declaration uses
    for it, and the name is a type parameter of the declaration. -/
def CapturesTypeParam (d : Decl) (b : Binding) : Prop :=
  (∃ q, scope.Uses d q b.path) ∧
    (scope.Numbered decls b ∨ ∃ other ∈ decls, other ≠ d ∧ scope.Uses other b.localName b.path) ∧
    b.localName ∈ d.typeParamNames

theorem mem_localNames (name : String) :
    name ∈ (scope.resolve decls).imports.map Import.localName ↔
      ∃ b ∈ scope.bindings decls, b.localName = name := by
  have valid := bindings_oneToOne scope decls
  rw [List.mem_map]
  constructor
  · rintro ⟨i, line, rfl⟩
    obtain ⟨b, member, rfl⟩ := (importLines_eq valid i).mp line
    exact ⟨b, member, (Binding.localName_toImport b).symm⟩
  · rintro ⟨b, member, rfl⟩
    have line := (importLines_eq valid b.toImport).mpr ⟨b, member, rfl⟩
    exact ⟨b.toImport, line, Binding.localName_toImport b⟩

theorem sparesUnresolved_iff :
    scope.SparesUnresolved decls ↔
      ∀ b ∈ scope.bindings decls, ∀ d ∈ decls, ¬ scope.CapturesUnresolved decls d b := by
  constructor
  · rintro spares b member d inDecls ⟨_, inQualifiers, unresolved⟩
    apply spares d inDecls _ inQualifiers unresolved
    exact (mem_localNames scope decls _).mpr ⟨b, member, rfl⟩
  · intro none d inDecls q inQualifiers unresolved imported
    obtain ⟨b, member, rfl⟩ := (mem_localNames scope decls q).mp imported
    rcases kept_or_numbered scope decls member with kept | numbered
    · exact kept.resolves d.place.file unresolved
    · exact none b member d inDecls ⟨numbered, inQualifiers, unresolved⟩

theorem uses_of_renamed {d : Decl} (inDecls : d ∈ decls) {q : String}
    (inQualifiers : q ∈ d.qualifiers)
    (renamed : scope.rename (scope.bindings decls) d.place.file q ≠ q) :
    ∃ b ∈ scope.bindings decls, scope.Uses d q b.path := by
  cases found : scope.lookup d.place.file q with
  | none => exact absurd (rename_unresolved scope _ found) renamed
  | some path =>
    obtain ⟨b, member, rfl, _⟩ := binding_of_use scope inDecls ⟨inQualifiers, found⟩
    exact ⟨b, member, inQualifiers, found⟩

theorem sparesTypeParams_iff (apart : TypeParamsApart decls) :
    scope.SparesTypeParams decls ↔
      ∀ b ∈ scope.bindings decls, ∀ d ∈ decls, ¬ scope.CapturesTypeParam decls d b := by
  have valid := bindings_oneToOne scope decls
  constructor
  · rintro spares b member d inDecls ⟨⟨q, uses⟩, _, bound⟩
    have name := rename_bound scope valid member uses.2
    have renamed : scope.rename (scope.bindings decls) d.place.file q ≠ q := by
      intro same
      rw [← name, same] at bound
      exact apart d inDecls q bound uses.1
    exact spares d inDecls q uses.1 renamed (name.symm ▸ bound)
  · intro none d inDecls q inQualifiers renamed bound
    obtain ⟨b, member, uses⟩ := uses_of_renamed scope decls inDecls inQualifiers renamed
    rw [rename_bound scope valid member uses.2] at bound
    refine none b member d inDecls ⟨⟨q, uses⟩, ?_, bound⟩
    rcases kept_or_numbered scope decls member with ⟨other, inDecls', used⟩ | numbered
    · refine Or.inr ⟨other, inDecls', ?_, used⟩
      -- The declaration itself cannot be the one: its type parameters are no qualifiers of it.
      rintro rfl
      exact apart other inDecls _ bound used.1
    · exact Or.inl numbered

/-- Where no declaration has a type parameter among its qualifiers, unresolved qualifiers are
    spared exactly if no numbered name is one of them, and type parameters exactly if no name is
    one that is numbered or comes from another declaration. -/
theorem resolve_spares_iff (apart : TypeParamsApart decls) :
    (scope.SparesUnresolved decls ↔
      ∀ b ∈ scope.bindings decls, ∀ d ∈ decls, ¬ scope.CapturesUnresolved decls d b) ∧
    (scope.SparesTypeParams decls ↔
      ∀ b ∈ scope.bindings decls, ∀ d ∈ decls, ¬ scope.CapturesTypeParam decls d b) :=
  ⟨sparesUnresolved_iff scope decls, sparesTypeParams_iff scope decls apart⟩

def taking (file name : String) (typeParams : List Field) (types : List TypeExpr) : Decl :=
  .type ⟨[⟨name, typeParams, false,
    .interface [.method "Take" ⟨types.map (⟨[], ·⟩), []⟩ 3], 3⟩], false, ⟨file, 3⟩⟩

def keyedSpies : List Decl :=
  (Generation.of {} [taking "a.go" "A" [] [.qualified "template" "Tree"],
    taking "b.go" "B" [⟨["K"], .name "any"⟩]
      [.qualified "template" "HTML", .name "K", .qualified "page" "Size"]]).decls

theorem keyedSpies_spared :
    TypeParamsApart keyedSpies ∧
      (clashing.resolve keyedSpies).decls.map Decl.qualifiers =
        [["template"], ["template"], ["template2", "page"], ["template2", "page"]] ∧
      clashing.SparesUnresolved keyedSpies ∧ clashing.SparesTypeParams keyedSpies := by
  have apart : TypeParamsApart keyedSpies := by decide +kernel
  have resolved : ∀ b ∈ clashing.bindings keyedSpies, ∀ d ∈ keyedSpies,
      b.localName ∈ d.qualifiers → clashing.lookup d.place.file b.localName ≠ none := by
    decide +kernel
  have unbound : ∀ b ∈ clashing.bindings keyedSpies, ∀ d ∈ keyedSpies,
      b.localName ∉ d.typeParamNames := by
    decide +kernel
  obtain ⟨unresolved, typeParams⟩ := resolve_spares_iff clashing keyedSpies apart
  refine ⟨apart, by decide +kernel, unresolved.mpr ?_, typeParams.mpr ?_⟩
  · rintro b member d inDecls ⟨_, inQualifiers, none⟩
    exact resolved b member d inDecls inQualifiers none
  · rintro b member d inDecls ⟨_, _, bound⟩
    exact unbound b member d inDecls bound

def numberedSpies : List Decl :=
  (Generation.of {} [taking "a.go" "A" [] [.qualified "template" "Tree"],
    taking "b.go" "B" [] [.qualified "template" "HTML", .qualified "template2" "Page"]]).decls

def aliased : Scope :=
  ⟨[("a.go", [⟨some "tt", "text/template", 2⟩]), ("b.go", [⟨none, "text/template", 2⟩])]⟩

def aliasedSpies : List Decl :=
  (Generation.of {} [taking "a.go" "A" [] [.qualified "tt" "Tree"],
    taking "b.go" "B" [⟨["tt"], .name "any"⟩]
      [.qualified "template" "Tree", .name "tt"]]).decls

theorem resolve_captures :
    (¬ ∀ (scope : Scope) (decls : List Decl), TypeParamsApart decls →
      scope.SparesUnresolved decls) ∧
    ¬ ∀ (scope : Scope) (decls : List Decl), TypeParamsApart decls →
      scope.SparesTypeParams decls := by
  constructor
  · intro all
    have captured : ¬ clashing.SparesUnresolved numberedSpies := by decide +kernel
    exact captured (all clashing numberedSpies (by decide +kernel))
  · intro all
    have captured : ¬ aliased.SparesTypeParams aliasedSpies := by decide +kernel
    exact captured (all aliased aliasedSpies (by decide +kernel))

end Scope

end GoSpy
