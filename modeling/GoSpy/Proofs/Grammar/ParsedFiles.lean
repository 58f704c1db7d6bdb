import GoSpy.Proofs.Grammar.Inversion
import GoSpy.Proofs.Grammar.SafeTexts
import GoSpy.Proofs.Syntax.Occurrences
/- What holds throughout a source file that is read, at any depth: of each list, of each form of
   type in the roles it stands in, and of each name. -/
namespace GoSpy

namespace Decl

def parts : Decl → List (Role × TypeExpr)
  | type d =>
    d.specs.flatMap fun spec => spec.typeParams.map (Field.part true) ++ [(.plain, spec.type)]
  | func d =>
    d.receiver.toList.map (Field.part false) ++ d.typeParams.map (Field.part true)
      ++ d.signature.parts
  | value d => d.specs.flatMap fun spec => spec.type.toList.map (Role.plain, ·)

def lists : Decl → List (List Field)
  | type d => d.specs.map TypeSpec.typeParams
  | func d => d.receiver.toList :: d.typeParams :: d.signature.lists
  | value _ => []

def ownNames : Decl → List String
  | type d => d.specs.map TypeSpec.name
  | func d => [d.name]
  | value d => d.specs.flatMap ValueSpec.names

end Decl

namespace SourceFile

inductive Occurs (file : SourceFile) : Role → TypeExpr → Prop where
  | declared {d : Decl} {role : Role} {t : TypeExpr} (inFile : d ∈ file.decls)
      (here : (role, t) ∈ d.parts) : Occurs file role t
  | inside {outer role : Role} {t u : TypeExpr} (occurs : Occurs file outer t)
      (here : (role, u) ∈ t.parts) : Occurs file role u

inductive HasList (file : SourceFile) (fields : List Field) : Prop where
  | declared {d : Decl} (inFile : d ∈ file.decls) (here : fields ∈ d.lists) : HasList file fields
  | inside {role : Role} {t : TypeExpr} (occurs : file.Occurs role t)
      (here : fields ∈ t.lists) : HasList file fields

/-- The file names something so, or refers to something by the name. A dot in place of an import's
    name is no name. -/
inductive HasName (file : SourceFile) (name : String) : Prop where
  | package (same : name = file.package) : HasName file name
  | imported {i : ImportSpec} (inFile : i ∈ file.imports) (here : i.name = some name)
      (notDot : name ≠ ".") : HasName file name
  | declared {d : Decl} (inFile : d ∈ file.decls) (here : name ∈ d.ownNames) : HasName file name
  | entry {fields : List Field} {f : Field} (list : file.HasList fields) (inList : f ∈ fields)
      (here : name ∈ f.names) : HasName file name
  | inside {role : Role} {t : TypeExpr} (occurs : file.Occurs role t)
      (here : name ∈ t.ownNames) : HasName file name

/-- What the generator and the printers rely on wherever they look. -/
structure Orderly (file : SourceFile) : Prop where
  lists : ∀ fields, file.HasList fields →
    (∀ f ∈ fields, f.names = []) ∨ ∀ f ∈ fields, f.names ≠ []
  methods : ∀ role elements, file.Occurs role (.interface elements) →
    (Grammar.methodNames elements).Nodup
  generics : ∀ role base args, file.Occurs role (.generic base args) →
    base.isNamed = true ∧ args ≠ []
  unions : ∀ role terms, file.Occurs role (.union terms) →
    (2 ≤ terms.length ∨ ∃ type, terms = [⟨true, type⟩]) ∧
      (∀ x ∈ terms, ∀ others, x.type ≠ .union others) ∧ (role = .element ∨ role = .entry true)
  variadics : ∀ role inner, file.Occurs role (.variadic inner) →
    ∃ constrained, role = .entry constrained
  channels : ∀ role element, file.Occurs role (.chan .both element) →
    ∀ inner, element ≠ .chan .receive inner
  arrays : ∀ role length element, file.Occurs role (.array length element) → length ≠ ""
  embedded : ∀ t, file.Occurs .embedded t → t.isEmbeddable = true
  names : ∀ name, file.HasName name → isIdentifier name = true
  specs : ∀ d, .type d ∈ file.decls → d.grouped = false → d.specs.length = 1
  receivers : ∀ d, .func d ∈ file.decls → ∀ r ∈ d.receiver, r.arity = 1
  bodies : ∀ d, .func d ∈ file.decls → d.body = none

end SourceFile

/- Declarations -/

def Decl.SingleUngrouped (d : Decl) : Prop :=
  ∀ types, d = .type types → types.grouped = false → types.specs.length = 1

theorem fitList_of_typeParams {fields : List Field}
    (each : ∀ f ∈ fields, f.isWellFormedTypeParam = true)
    (naming : sameNaming fields = true) : FitList true fields where
  identifiers f member := (Bool.and_eq_true_iff.mp (each f member)).1
  types f member := (Bool.and_eq_true_iff.mp (each f member)).2
  naming := naming

theorem fitList_of_receiver {receiver : Option Field}
    (each : ∀ r ∈ receiver, r.isWellFormed = true) : FitList false receiver.toList := by
  cases receiver with
  | none => exact ⟨by simp, by simp, rfl⟩
  | some r =>
    have single : sameNaming [r] = true := by
      simp only [sameNaming, List.all_cons, List.all_nil, Bool.and_true]
      cases r.names.isEmpty <;> rfl
    exact fitList_of_wellFormed (fieldsWellFormed_iff.mpr (by simpa using each)) single

namespace Decl.WellFormed

variable {d : Decl}

theorem lists (wellFormed : d.WellFormed) :
    ∀ fields ∈ d.lists, ∃ constrained, FitList constrained fields := by
  intro fields member
  cases d with
  | type d =>
    obtain ⟨spec, inSpecs, rfl⟩ := List.mem_map.mp member
    have own := wellFormed spec inSpecs
    exact ⟨true, fitList_of_typeParams own.typeParams own.sameNaming⟩
  | func d =>
    have own : d.WellFormed := wellFormed
    rcases List.mem_cons.mp member with rfl | later
    · exact ⟨false, fitList_of_receiver fun r isReceiver => (own.receiver r isReceiver).1⟩
    · rcases List.mem_cons.mp later with rfl | inSignature
      · exact ⟨true, fitList_of_typeParams own.typeParams own.sameNaming⟩
      · exact ⟨false, Signature.fit_lists own.signature fields inSignature⟩
  | value d => cases member

theorem parts (wellFormed : d.WellFormed) : ∀ p ∈ d.parts, p.2.fits p.1 = true := by
  intro p member
  cases d with
  | type d =>
    obtain ⟨spec, inSpecs, inside⟩ := List.mem_flatMap.mp member
    have own := wellFormed spec inSpecs
    rcases List.mem_append.mp inside with inParams | isType
    · exact (fitList_of_typeParams own.typeParams own.sameNaming).parts p inParams
    · obtain rfl := List.mem_singleton.mp isType
      exact own.type
  | func d =>
    have own : d.WellFormed := wellFormed
    rcases List.mem_append.mp member with outer | inSignature
    · rcases List.mem_append.mp outer with inReceiver | inParams
      · exact (fitList_of_receiver fun r isReceiver => (own.receiver r isReceiver).1).parts p
          inReceiver
      · exact (fitList_of_typeParams own.typeParams own.sameNaming).parts p inParams
    · exact Signature.fit_parts own.signature p inSignature
  | value d =>
    obtain ⟨spec, inSpecs, inside⟩ := List.mem_flatMap.mp member
    obtain ⟨t, isType, rfl⟩ := List.mem_map.mp inside
    exact (wellFormed spec inSpecs).type t (by simpa using isType)

theorem ownNames (wellFormed : d.WellFormed) : ∀ n ∈ d.ownNames, isIdentifier n = true := by
  intro n member
  cases d with
  | type d =>
    obtain ⟨spec, inSpecs, rfl⟩ := List.mem_map.mp member
    exact (wellFormed spec inSpecs).name
  | func d =>
    have own : d.WellFormed := wellFormed
    obtain rfl := List.mem_singleton.mp member
    exact own.name
  | value d =>
    obtain ⟨spec, inSpecs, inNames⟩ := List.mem_flatMap.mp member
    exact List.all_eq_true.mp (wellFormed spec inSpecs).names n inNames

end Decl.WellFormed

/- Files -/

namespace SourceFile.WellFormed

variable {file : SourceFile}

theorem occurs (wellFormed : file.WellFormed) {role : Role} {t : TypeExpr}
    (occurs : file.Occurs role t) : t.fits role = true := by
  induction occurs with
  | declared inFile here => exact (wellFormed.decls _ inFile).parts _ here
  | inside _ here ih => exact TypeExpr.fits_parts ih _ here

theorem lists (wellFormed : file.WellFormed) {fields : List Field}
    (list : file.HasList fields) : ∃ constrained, FitList constrained fields := by
  cases list with
  | declared inFile here => exact (wellFormed.decls _ inFile).lists fields here
  | inside occurs here =>
    exact ⟨false, TypeExpr.fits_lists (wellFormed.occurs occurs) fields here⟩

theorem names (wellFormed : file.WellFormed) {name : String} (has : file.HasName name) :
    isIdentifier name = true := by
  cases has with
  | package same => exact same ▸ wellFormed.package
  | imported inFile here notDot =>
    rcases wellFormed.imports _ inFile name here with dot | identifier
    · exact absurd dot notDot
    · exact identifier
  | declared inFile here => exact (wellFormed.decls _ inFile).ownNames name here
  | entry list inList here =>
    obtain ⟨constrained, fit⟩ := wellFormed.lists list
    exact List.all_eq_true.mp (fit.identifiers _ inList) name here
  | inside occurs here => exact TypeExpr.fits_names (wellFormed.occurs occurs) name here

end SourceFile.WellFormed

namespace Grammar

theorem valueDecl_value {kind : ValueKind} {place : Place} {s next : Cursor} {d : Decl}
    (run : valueDecl kind place s = .ok (d, next)) : ∃ v, d = .value v := by
  unfold valueDecl at run
  obtain ⟨⟨⟨specs, grouped⟩, s₁⟩, _, run⟩ := bind_eq_ok.mp run
  exact ⟨_, (Prod.mk.inj (Except.ok.inj run)).1.symm⟩

theorem group_single {α : Type} {item : Reader α} {s next : Cursor} {xs : List α}
    (run : Reader.group item s = .ok ((xs, false), next)) : xs.length = 1 := by
  unfold Reader.group at run
  split at run
  · obtain ⟨⟨x, s₁⟩, _, run⟩ := bind_eq_ok.mp run
    obtain ⟨⟨rfl, _⟩, _⟩ := Prod.mk.inj (Except.ok.inj run) |>.imp Prod.mk.inj id
    rfl
  · obtain ⟨⟨xs', s₁⟩, _, run⟩ := bind_eq_ok.mp run
    obtain ⟨s₂, _, run⟩ := bind_eq_ok.mp run
    have grouped := congrArg (fun r => r.1.2) (Except.ok.inj run)
    cases grouped

theorem decl_single {file : String} {s next : Cursor} {d : Decl}
    (run : decl file s = .ok (d, next)) : d.SingleUngrouped := by
  intro types isType ungrouped
  subst isType
  unfold decl at run
  dsimp only at run
  split at run
  · obtain ⟨⟨⟨specs, grouped⟩, s₁⟩, items, run⟩ := bind_eq_ok.mp run
    obtain ⟨same, _⟩ := Prod.mk.inj (Except.ok.inj run)
    obtain rfl := Decl.type.inj same
    obtain rfl : grouped = false := ungrouped
    exact group_single items
  · obtain ⟨⟨func, s₁⟩, _, run⟩ := bind_eq_ok.mp run
    cases run
  iterate 2
    obtain ⟨v, same⟩ := valueDecl_value run
    cases same
  iterate 3 cases run

theorem decls_each {file : String} {good : Decl → Prop}
    (each : ∀ {s next d}, decl file s = .ok (d, next) → good d) {fuel : Nat} {s next : Cursor}
    {ds : List Decl} (run : decls file fuel s = .ok (ds, next)) : ∀ d ∈ ds, good d := by
  induction fuel generalizing s next ds with
  | zero => cases run
  | succ fuel ih =>
    unfold decls at run
    dsimp only at run
    split at run
    · obtain ⟨rfl, _⟩ := Prod.mk.inj (Except.ok.inj run)
      simp
    · obtain ⟨⟨first, s₁⟩, head, run⟩ := bind_eq_ok.mp run
      obtain ⟨s₂, _, run⟩ := bind_eq_ok.mp run
      obtain ⟨⟨rest, s₃⟩, tail, run⟩ := bind_eq_ok.mp run
      obtain ⟨rfl, _⟩ := Prod.mk.inj (Except.ok.inj run)
      intro d member
      rcases List.mem_cons.mp member with rfl | later
      · exact each head
      · exact ih tail d later

theorem sourceFile_single {path : String} {s next : Cursor} {file : SourceFile}
    (run : sourceFile path s = .ok (file, next)) : ∀ d ∈ file.decls, d.SingleUngrouped := by
  unfold sourceFile at run
  obtain ⟨s₁, _, run⟩ := bind_eq_ok.mp run
  obtain ⟨⟨package, s₂⟩, _, run⟩ := bind_eq_ok.mp run
  obtain ⟨s₃, _, run⟩ := bind_eq_ok.mp run
  obtain ⟨⟨imports, s₄⟩, _, run⟩ := bind_eq_ok.mp run
  obtain ⟨⟨ds, s₅⟩, declared, run⟩ := bind_eq_ok.mp run
  obtain ⟨rfl, _⟩ := Prod.mk.inj (Except.ok.inj run)
  exact decls_each decl_single declared

end Grammar

namespace SourceFile

theorem ofText_single {file text : String} {f : SourceFile} (run : ofText file text = .ok f) :
    ∀ d ∈ f.decls, d.SingleUngrouped := by
  obtain ⟨lexemes, _, parsed⟩ := bind_eq_ok.mp (mapError_eq_ok.mp run)
  obtain ⟨⟨_, next⟩, read, rfl⟩ := map_eq_ok.mp parsed
  exact Grammar.sourceFile_single read

/-- A source file that is read is orderly throughout. -/
theorem ofText_orderly {file text : String} {f : SourceFile} (run : ofText file text = .ok f) :
    f.Orderly := by
  have wellFormed := ofText_wellFormed run
  have func {d : FuncDecl} (member : .func d ∈ f.decls) : d.WellFormed :=
    wellFormed.decls (.func d) member
  constructor
  case lists =>
    intro fields list
    obtain ⟨constrained, fit⟩ := wellFormed.lists list
    have naming := fit.naming
    simp only [sameNaming, Bool.or_eq_true, List.all_eq_true] at naming
    simpa using naming
  case methods =>
    intro role elements occurs
    exact TypeExpr.fits_interface (wellFormed.occurs occurs)
  case generics =>
    intro role base args occurs
    exact TypeExpr.fits_generic (wellFormed.occurs occurs)
  case unions =>
    intro role terms occurs
    exact TypeExpr.fits_union (wellFormed.occurs occurs)
  case variadics =>
    intro role inner occurs
    exact TypeExpr.fits_variadic (wellFormed.occurs occurs)
  case channels =>
    intro role element occurs
    exact TypeExpr.fits_chan (wellFormed.occurs occurs)
  case arrays =>
    intro role length element occurs
    exact TypeExpr.fits_array (wellFormed.occurs occurs)
  case embedded =>
    intro t occurs
    exact (Bool.and_eq_true_iff.mp (wellFormed.occurs occurs)).2
  case names =>
    intro name has
    exact wellFormed.names has
  case specs =>
    intro d member ungrouped
    exact ofText_single run _ member d rfl ungrouped
  case receivers =>
    intro d member r isReceiver
    exact ((func member).receiver r isReceiver).2
  case bodies =>
    intro d member
    exact (func member).body

def shelfText : String :=
  "package shelf\nimport . \"io\"\n"
    ++ "type Shelf[K, V ~int | string] interface \x7b\n  Closer; ~int | ~string\n"
    ++ "  Each(visit func(at [2]K, more ...V) (ok bool), c chan (<-chan V))\n\x7d\n"
    ++ "func (s *rack[K]) Len() int \x7b return 0 \x7d\nvar ( size, depth int = 1, 2 )\n"

theorem shelf_orderly :
    ∃ f, ofText "shelf.go" shelfText = .ok f ∧
      f.decls.flatMap Decl.ownNames = ["Shelf", "Len", "size", "depth"] ∧
      (f.decls.flatMap fun d => d.lists.map List.length) = [1, 1, 0, 0, 1] ∧ f.Orderly := by
  have read : (ofText "shelf.go" shelfText).toOption.any (fun f =>
      f.decls.flatMap Decl.ownNames == ["Shelf", "Len", "size", "depth"] &&
        (f.decls.flatMap fun d => d.lists.map List.length) == [1, 1, 0, 0, 1]) = true := by
    decide +kernel
  cases run : ofText "shelf.go" shelfText with
  | error =>
    rw [run] at read
    cases read
  | ok f =>
    rw [run] at read
    simp only [Except.toOption, Option.any_some, Bool.and_eq_true, beq_iff_eq] at read
    exact ⟨f, rfl, read.1, read.2, ofText_orderly run⟩

end SourceFile

end GoSpy
