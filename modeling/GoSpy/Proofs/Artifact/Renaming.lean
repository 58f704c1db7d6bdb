import GoSpy.Proofs.Artifact.ReadBack
import GoSpy.Proofs.Artifact.Resolution
import GoSpy.Proofs.Spy.Identifiers
import GoSpy.Proofs.Syntax.NormalQualifiers
/- Resolution keeps declarations printable: the local names it writes are identifiers as the
   qualifiers are, and the lines of its import block can be printed. -/
namespace GoSpy

section

variable (g : String → String)

theorem spansLines_requalify (t : TypeExpr) : (t.requalify g).spansLines = t.spansLines := by
  cases t with
  | struct members => cases members <;> rfl
  | interface elements => cases elements <;> rfl
  | _ => rfl

mutual

theorem TypeExpr.tagsFit_requalify : ∀ t : TypeExpr, (t.requalify g).tagsFit = t.tagsFit
  | .struct members => members_tagsFit_requalify members
  | .name _ | .qualified .. | .generic .. | .pointer _ | .slice _ | .array .. | .map .. => rfl
  | .chan .. | .func _ | .interface _ | .variadic _ | .paren _ | .union _ => rfl

theorem members_tagsFit_requalify : ∀ members : List Member,
    membersTagsFit (requalifyMembers g members) = membersTagsFit members
  | [] => rfl
  | ⟨_, type, _⟩ :: rest => by
    simp only [requalifyMembers, Member.requalify, membersTagsFit, spansLines_requalify,
      type.tagsFit_requalify, members_tagsFit_requalify rest]

end

theorem opensWord_requalify (t : TypeExpr) : (t.requalify g).opensWord = t.opensWord := by
  cases t <;> rfl

theorem opensConstraint_requalify (t : TypeExpr) :
    (t.requalify g).opensConstraint = t.opensConstraint := by
  cases t with
  | union terms =>
    cases terms with
    | nil => rfl
    | cons first rest =>
      obtain ⟨tilde, type⟩ := first
      exact congrArg (tilde || ·) (opensWord_requalify g type)
  | _ => rfl

theorem separable_requalify (fields : List Field) :
    separable (requalifyFields g fields) = separable fields := by
  cases fields with
  | nil => rfl
  | cons f rest =>
    cases f
    exact congrArg (_ || ·) (opensConstraint_requalify g _)

theorem requalifyFields_eq_map (fields : List Field) :
    requalifyFields g fields = fields.map (Field.requalify g) := by
  induction fields with
  | nil => rfl
  | cons f rest ih => exact congrArg (f.requalify g :: ·) ih

variable {g} (names : KeepsIdentifiers g)

include names

theorem Field.requalify_isTypeParam {f : Field} (fits : f.isTypeParam = true) :
    (f.requalify g).isTypeParam = true := by
  obtain ⟨fieldNames, type⟩ := f
  obtain ⟨front, constraint⟩ := Bool.and_eq_true_iff.mp fits
  refine Bool.and_eq_true_iff.mpr ⟨front, ?_⟩
  cases type with
  | union terms =>
    obtain ⟨all, set⟩ := Bool.and_eq_true_iff.mp constraint
    refine Bool.and_eq_true_iff.mpr ⟨terms_requalify_normal names terms all, ?_⟩
    rwa [isTypeSet_requalify]
  | _ => exact TypeExpr.requalify_normal names _ constraint

theorem TypeSpec.Printable.requalify {s : TypeSpec} (printable : s.Printable) :
    TypeSpec.Printable
      { s with typeParams := requalifyFields g s.typeParams, type := s.type.requalify g } where
  name := printable.name
  typeParams := by
    rw [requalifyFields_eq_map]
    intro f member
    obtain ⟨before, inParams, rfl⟩ := List.mem_map.mp member
    exact Field.requalify_isTypeParam names (printable.typeParams before inParams)
  apart := (separable_requalify g s.typeParams).trans printable.apart
  defined := printable.defined
  isStruct := by
    obtain ⟨members, shape⟩ := printable.isStruct
    exact ⟨requalifyMembers g members, by simp [shape, TypeExpr.requalify]⟩
  normal := TypeExpr.requalify_normal names s.type printable.normal
  tagsFit := (TypeExpr.tagsFit_requalify g s.type).trans printable.tagsFit

theorem FuncDecl.Printable.requalify {d : FuncDecl} (printable : d.Printable) :
    FuncDecl.Printable
      { d with
        receiver := d.receiver.map (Field.requalify g)
        typeParams := requalifyFields g d.typeParams
        signature := d.signature.requalify g } where
  receiver := by
    obtain ⟨r, given, one, normal⟩ := printable.receiver
    refine ⟨r.requalify g, by simp [given], ?_, Field.requalify_normalParam names r normal⟩
    cases r
    exact one
  name := printable.name
  typeParams := by simp [printable.typeParams, requalifyFields]
  normal := Signature.requalify_normal names d.signature printable.normal
  body := printable.body

theorem Decl.Printable.requalify {d : Decl} (printable : d.Printable) :
    (d.requalify g).Printable := by
  cases printable with
  | type place printable => exact .type place (printable.requalify names)
  | func printable => exact .func (printable.requalify names)

end

/- Qualifiers of printable declarations -/

theorem isConstraint_identifiers {t : TypeExpr} (fits : t.isConstraint = true) :
    AllIdentifiers t.qualifiers := by
  cases t with
  | union terms => exact terms_identifiers terms (Bool.and_eq_true_iff.mp fits).1
  | _ => exact TypeExpr.identifiers _ fits

theorem typeParams_identifiers {fields : List Field}
    (each : ∀ f ∈ fields, f.isTypeParam = true) : AllIdentifiers (fieldQualifiers fields) := by
  induction fields with
  | nil => exact .none
  | cons f rest ih =>
    obtain ⟨names, type⟩ := f
    have constraint := (Bool.and_eq_true_iff.mp (each _ List.mem_cons_self)).2
    exact (isConstraint_identifiers constraint).append
      (ih fun f member => each f (List.mem_cons_of_mem _ member))

theorem Decl.Printable.identifiers {d : Decl} (printable : d.Printable) :
    AllIdentifiers d.qualifiers := by
  cases printable with
  | @type spec place printable =>
    have own := (typeParams_identifiers printable.typeParams).append
      (spec.type.identifiers printable.normal)
    simpa [Decl.qualifiers, typeSpecQualifiers] using own
  | @func d printable =>
    obtain ⟨r, given, _, normal⟩ := printable.receiver
    have receiver := r.identifiersParam normal
    have signature := d.signature.identifiers printable.normal
    simpa [Decl.qualifiers, given, printable.typeParams, fieldQualifiers] using
      receiver.append signature

/- The table of a resolution -/

theorem Binding.add_each {good : Binding → Prop} {table : List Binding} {qualifier path : String}
    (each : ∀ b ∈ table, good b) (new : good ⟨freeName table qualifier, path⟩) :
    ∀ b ∈ add table qualifier path, good b := by
  unfold add
  split
  · exact each
  · intro b member
    rcases List.mem_append.mp member with old | last
    · exact each b old
    · exact List.mem_singleton.mp last ▸ new

namespace Scope

theorem lookup_path {scope : Scope} {file qualifier path : String}
    (found : scope.lookup file qualifier = some path) :
    (∃ f ∈ scope.files, ∃ i ∈ f.2, i.path = path) ∨ path = "sync" := by
  have own {imports : List ImportSpec} (bound : boundIn imports qualifier = some path) :
      ∃ i ∈ imports, i.path = path := by
    obtain ⟨i, taken, same⟩ := Option.map_eq_some_iff.mp bound
    exact ⟨i, List.mem_of_find?_eq_some taken, same⟩
  simp only [lookup, Option.orElse_eq_orElse, Option.orElse_eq_or, Option.or_eq_some_iff] at found
  rcases found with here | ⟨_, any | ⟨_, built⟩⟩
  · obtain ⟨f, taken, bound⟩ := Option.bind_eq_some_iff.mp here
    obtain ⟨i, member, same⟩ := own bound
    exact Or.inl ⟨f, List.mem_of_find?_eq_some taken, i, member, same⟩
  · obtain ⟨f, member, bound⟩ := List.exists_of_findSome?_eq_some any
    obtain ⟨i, inFile, same⟩ := own bound
    exact Or.inl ⟨f, member, i, inFile, same⟩
  · unfold builtin at built
    split at built
    · exact Or.inr (Option.some.inj built).symm
    · cases built

theorem bindings_each {scope : Scope} {decls : List Decl}
    (identifiers : ∀ d ∈ decls, AllIdentifiers d.qualifiers) :
    ∀ b ∈ scope.bindings decls, isIdentifier b.localName = true ∧
      ((∃ f ∈ scope.files, ∃ i ∈ f.2, i.path = b.path) ∨ b.path = "sync") := by
  have uses : ∀ use ∈ decls.flatMap scope.uses, isIdentifier use.1 = true ∧
      ((∃ f ∈ scope.files, ∃ i ∈ f.2, i.path = use.2) ∨ use.2 = "sync") := by
    intro use member
    obtain ⟨d, inDecls, inUses⟩ := List.mem_flatMap.mp member
    obtain ⟨inQualifiers, found⟩ := (scope.mem_uses d use).mp inUses
    exact ⟨identifiers d inDecls use.1 inQualifiers, lookup_path found⟩
  have run (table : List Binding) (each : ∀ b ∈ table, isIdentifier b.localName = true ∧
      ((∃ f ∈ scope.files, ∃ i ∈ f.2, i.path = b.path) ∨ b.path = "sync")) :
      ∀ b ∈ (decls.flatMap scope.uses).foldl (fun t use => Binding.add t use.1 use.2) table,
        isIdentifier b.localName = true ∧
          ((∃ f ∈ scope.files, ∃ i ∈ f.2, i.path = b.path) ∨ b.path = "sync") := by
    generalize decls.flatMap scope.uses = all at uses
    induction all generalizing table with
    | nil => exact each
    | cons use rest ih =>
      obtain ⟨⟨identifier, path⟩, later⟩ := List.forall_mem_cons.mp uses
      exact ih _ (Binding.add_each each ⟨Binding.candidate_identifier identifier _, path⟩) later
  exact run [] (by simp)

theorem rename_identifier {scope : Scope} {table : List Binding}
    (each : ∀ b ∈ table, isIdentifier b.localName = true) {file name : String}
    (identifier : isIdentifier name = true) :
    isIdentifier (scope.rename table file name) = true := by
  unfold rename
  cases found : (scope.lookup file name).bind (Binding.localName? table) with
  | none => exact identifier
  | some new =>
    obtain ⟨path, _, named⟩ := Option.bind_eq_some_iff.mp found
    obtain ⟨b, taken, rfl⟩ := Option.map_eq_some_iff.mp named
    exact each b (List.mem_of_find?_eq_some taken)

theorem importLines_printable {table : List Binding}
    (each : ∀ b ∈ table, isIdentifier b.localName = true ∧ isQuotable b.path = true) :
    ∀ i ∈ importLines table, i.Printable := by
  intro i member
  obtain ⟨path, _, taken⟩ := List.mem_filterMap.mp member
  obtain ⟨b, found, rfl⟩ := Option.map_eq_some_iff.mp taken
  obtain ⟨identifier, quotable⟩ := each b (List.mem_of_find?_eq_some found)
  refine ⟨fun name given => ?_, quotable⟩
  unfold Binding.toImport at given
  split at given
  · cases given
  · exact Option.some.inj given ▸ identifier

theorem resolve_printable {scope : Scope} {decls : List Decl} {package : String}
    (identifier : isIdentifier package = true) (each : ∀ d ∈ decls, d.Printable)
    (paths : ∀ f ∈ scope.files, ∀ i ∈ f.2, isQuotable i.path = true) :
    Artifact.Printable
      ⟨package, (scope.resolve decls).imports, (scope.resolve decls).decls⟩ := by
  have table := scope.bindings_each fun d member => (each d member).identifiers
  refine ⟨identifier, importLines_printable fun b member => ⟨(table b member).1, ?_⟩, ?_⟩
  · rcases (table b member).2 with ⟨f, inFiles, i, inFile, same⟩ | sync
    · exact same ▸ paths f inFiles i inFile
    · rw [sync]
      rfl
  · intro d member
    obtain ⟨before, inDecls, rfl⟩ := List.mem_map.mp member
    refine (each before inDecls).requalify fun name free => ?_
    exact rename_identifier (fun b inTable => (table b inTable).1) free

end Scope

end GoSpy
