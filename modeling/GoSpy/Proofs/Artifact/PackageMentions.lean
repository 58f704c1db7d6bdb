import GoSpy.Proofs.Artifact.Renaming
import GoSpy.Proofs.Grammar.RoundTrip
import GoSpy.Proofs.Grammar.SafeTexts
import GoSpy.Proofs.Syntax.SpelledMentions
/- What the qualifiers of a type tell about the packages in its spelling. They are all of them but
   for those in the lengths of arrays, which resolution therefore neither imports nor renames. -/
namespace GoSpy

/- Declarations and their types -/

namespace Decl

def types : Decl → List TypeExpr
  | type d => d.specs.flatMap fun spec => spec.typeParams.map Field.type ++ [spec.type]
  | func d =>
    (d.receiver.toList ++ d.typeParams ++ d.signature.params ++ d.signature.results).map Field.type
  | value d => d.specs.flatMap fun spec => spec.type.toList

theorem fieldQualifiers_types (fields : List Field) :
    fieldQualifiers fields = (fields.map Field.type).flatMap TypeExpr.qualifiers := by
  induction fields with
  | nil => rfl
  | cons f rest ih =>
    cases f
    simp [fieldQualifiers, Field.qualifiers, ih]

theorem qualifiers_types (d : Decl) : d.qualifiers = d.types.flatMap TypeExpr.qualifiers := by
  cases d with
  | type d =>
    simp only [qualifiers, types, List.flatMap_assoc]
    refine congrArg (List.flatMap · d.specs) (funext fun spec => ?_)
    simp [typeSpecQualifiers, fieldQualifiers_types]
  | func d =>
    obtain ⟨receiver, name, typeParams, ⟨params, results⟩, body, place⟩ := d
    simp [qualifiers, types, Signature.qualifiers, fieldQualifiers_types]
  | value d => simp only [qualifiers, types, List.flatMap_assoc]

@[simp] theorem fieldType_requalify (g : String → String) (f : Field) :
    (f.requalify g).type = f.type.requalify g := by
  cases f
  rfl

theorem fieldTypes_requalify (g : String → String) (fields : List Field) :
    (requalifyFields g fields).map Field.type =
      (fields.map Field.type).map (TypeExpr.requalify g) := by
  simp [requalifyFields_eq_map]

theorem types_requalify (g : String → String) (d : Decl) :
    (d.requalify g).types = d.types.map (TypeExpr.requalify g) := by
  cases d with
  | type d =>
    simp only [requalify, types, List.flatMap_map, List.map_flatMap]
    refine congrArg (List.flatMap · d.specs) (funext fun spec => ?_)
    simp only [fieldTypes_requalify, List.map_append, List.map_cons, List.map_nil]
  | func d =>
    obtain ⟨receiver, name, typeParams, ⟨params, results⟩, body, place⟩ := d
    have own : (receiver.map (Field.requalify g)).toList.map Field.type =
        (receiver.toList.map Field.type).map (TypeExpr.requalify g) := by
      cases receiver <;> simp
    simp only [requalify, types, Signature.requalify, List.map_append, fieldTypes_requalify, own]
  | value d =>
    simp only [requalify, types, List.flatMap_map, List.map_flatMap]
    refine congrArg (List.flatMap · d.specs) (funext fun spec => ?_)
    cases spec.type <;> rfl

end Decl

/- Types that are read -/

theorem TypeExpr.isWellFormedEntry_constrained {t : TypeExpr} {constrained : Bool}
    (wellFormed : t.isWellFormedEntry constrained = true) : t.isWellFormedEntry true = true := by
  cases constrained with
  | true => exact wellFormed
  | false => cases t <;> first | exact wellFormed | cases wellFormed

theorem TypeExpr.isWellFormedEntry_plain {t : TypeExpr} (wellFormed : t.isWellFormed = true) :
    t.isWellFormedEntry true = true := by
  cases t <;> first | exact wellFormed | cases wellFormed

theorem Field.isWellFormed_type {f : Field} (wellFormed : f.isWellFormed = true) :
    f.type.isWellFormedEntry true = true := by
  rw [Field.isWellFormed_eq] at wellFormed
  exact TypeExpr.isWellFormedEntry_constrained (Bool.and_eq_true_iff.mp wellFormed).2

theorem Decl.WellFormed.types {d : Decl} (wellFormed : d.WellFormed) :
    ∀ t ∈ d.types, t.isWellFormedEntry true = true := by
  cases d with
  | type d =>
    intro t member
    obtain ⟨spec, inSpecs, occurs⟩ := List.mem_flatMap.mp member
    have good : spec.WellFormed := wellFormed spec inSpecs
    rcases List.mem_append.mp occurs with param | own
    · obtain ⟨f, inParams, rfl⟩ := List.mem_map.mp param
      exact (Bool.and_eq_true_iff.mp (good.typeParams f inParams)).2
    · obtain rfl := List.mem_singleton.mp own
      exact TypeExpr.isWellFormedEntry_plain good.type
  | func d =>
    obtain ⟨receiver, name, typeParams, ⟨params, results⟩, body, place⟩ := d
    have good : FuncDecl.WellFormed _ := wellFormed
    obtain ⟨front, _⟩ := Bool.and_eq_true_iff.mp good.signature
    obtain ⟨front, goodResults⟩ := Bool.and_eq_true_iff.mp front
    have goodParams := (Bool.and_eq_true_iff.mp front).1
    intro t member
    obtain ⟨f, inFields, rfl⟩ := List.mem_map.mp member
    simp only [List.mem_append, Option.mem_toList] at inFields
    rcases inFields with ((own | typeParam) | param) | result
    · exact Field.isWellFormed_type (good.receiver f own).1
    · exact (Bool.and_eq_true_iff.mp (good.typeParams f typeParam)).2
    · exact Field.isWellFormed_type (fieldsWellFormed_iff.mp goodParams f param)
    · exact Field.isWellFormed_type (fieldsWellFormed_iff.mp goodResults f result)
  | value d =>
    intro t member
    obtain ⟨spec, inSpecs, occurs⟩ := List.mem_flatMap.mp member
    have good : spec.WellFormed := wellFormed spec inSpecs
    exact TypeExpr.isWellFormedEntry_plain (good.type t (Option.mem_toList.mp occurs))

/-- A type that comes out of reading a text: in a declaration of a file, or from one of the
    readers of types anywhere in the text. -/
inductive TypeExpr.Parsed : TypeExpr → Prop where
  | declared {path text : String} {file : SourceFile} {d : Decl} {t : TypeExpr}
      (run : SourceFile.ofText path text = .ok file) (member : d ∈ file.decls)
      (occurs : t ∈ d.types) : TypeExpr.Parsed t
  | entry {text : String} {lexemes : Lexemes} {s s' : Cursor} {constrained : Bool} {t : TypeExpr}
      (scan : Lexemes.ofText text = .ok lexemes) (there : (Cursor.ofLexemes lexemes).Past 0 s)
      (run : Grammar.entryType Grammar.type constrained s = .ok (t, s')) : TypeExpr.Parsed t
  | member {text : String} {lexemes : Lexemes} {s s' : Cursor} {names : List String}
      {t : TypeExpr} (scan : Lexemes.ofText text = .ok lexemes)
      (there : (Cursor.ofLexemes lexemes).Past 0 s)
      (run : Grammar.memberType Grammar.type s = .ok ((names, t), s')) : TypeExpr.Parsed t

theorem TypeExpr.Parsed.wellFormed {t : TypeExpr} (parsed : t.Parsed) :
    t.isWellFormedEntry true = true := by
  cases parsed with
  | declared run member occurs =>
    exact ((SourceFile.ofText_wellFormed run).decls _ member).types t occurs
  | @entry text lexemes s s' constrained t scan there run =>
    have scanned := there.scanned (Lexemes.ofText_scanned scan)
    have yields := Grammar.entryType_yields (fun s all _ => Grammar.type_yields all) scanned
      constrained (Nat.lt_succ_self _)
    unfold Reader.Yields at yields
    rw [run] at yields
    exact isWellFormedEntry_constrained yields.2.1
  | @member text lexemes s s' names t scan there run =>
    have scanned := there.scanned (Lexemes.ofText_scanned scan)
    have yields := Grammar.memberType_yields (fun s all _ => Grammar.type_yields all) scanned
      (Nat.lt_succ_self _)
    unfold Reader.Yields at yields
    rw [run] at yields
    exact isWellFormedEntry_plain yields.2.2.1

/- Their spelling -/

theorem TypeExpr.dots_entry {g : String → String} (keeps : KeepsIdentifiers g) {t : TypeExpr}
    (wellFormed : t.isWellFormedEntry true = true) (close : t.lengthsClose = true) :
    Dots (t.requalify g).spelling ((t.requalify g).mentions.map Mention.name) := by
  cases t with
  | variadic element => exact (element.dots keeps wellFormed close).variadic
  | union terms =>
    obtain ⟨all, set⟩ := Bool.and_eq_true_iff.mp wellFormed
    exact .union (by rwa [isTypeSet_requalify]) (terms_dots keeps terms all close)
  | _ => exact TypeExpr.dots keeps _ wellFormed close

theorem Dots.ofText {text : String} {names : List String} (dots : Dots text names) :
    dottedNames text = .ok names := by
  obtain ⟨tokens, spells, rfl, _⟩ := dots
  obtain ⟨lexemes, run, shape⟩ := spells.ofText
  have semicolon : dotted (tokens ++ [.semicolon]) = dotted tokens := by
    rw [dotted_between rfl]
    exact List.append_nil _
  rw [dottedNames, run, Except.map, shape, semicolon]

/-- What a resolution of declarations makes of a type in one of them. Each qualifier that stands
    for a path is written as the local name of an import of that path; a package that an array
    length mentions keeps its name. -/
structure TypeExpr.ResolvedIn (scope : Scope) (decls : List Decl) (file : String) (t : TypeExpr) :
    Prop where
  occurs : ∃ d ∈ (scope.resolve decls).decls,
    t.requalify (scope.rename (scope.bindings decls) file) ∈ d.types
  text : dottedNames (t.requalify (scope.rename (scope.bindings decls) file)).spelling =
    .ok ((t.mentions.map (Mention.rename (scope.rename (scope.bindings decls) file))).map
      Mention.name)
  imported : ∀ m ∈ t.mentions, m.inLength = false → ∀ path, scope.lookup file m.name = some path →
    ∃ i ∈ (scope.resolve decls).imports, i.path = path ∧
      i.localName = scope.rename (scope.bindings decls) file m.name

theorem TypeExpr.resolvedIn {t : TypeExpr} (wellFormed : t.isWellFormedEntry true = true)
    (close : t.lengthsClose = true) {scope : Scope} {decls : List Decl} {d : Decl}
    (inDecls : d ∈ decls) (occurs : t ∈ d.types)
    (identifiers : ∀ e ∈ decls, AllIdentifiers e.qualifiers) :
    t.ResolvedIn scope decls d.place.file := by
  have table := scope.bindings_each identifiers
  have valid := scope.bindings_oneToOne decls
  refine ⟨⟨_, List.mem_map_of_mem inDecls, ?_⟩, ?_, ?_⟩
  · rw [Decl.types_requalify]
    exact List.mem_map_of_mem occurs
  · rw [← mentions_requalify]
    refine (dots_entry (fun name free => ?_) wellFormed close).ofText
    exact Scope.rename_identifier (fun b inTable => (table b inTable).1) free
  · intro m member outside path found
    have qualifier : m.name ∈ d.qualifiers := by
      rw [d.qualifiers_types]
      refine List.mem_flatMap.mpr ⟨t, occurs, ?_⟩
      rw [t.qualifiers_eq_mentions]
      exact List.mem_map_of_mem (List.mem_filter.mpr ⟨member, by simp [outside]⟩)
    obtain ⟨b, inTable, rfl⟩ := List.mem_map.mp
      ((scope.mem_bindings_path decls path).mpr ⟨d, inDecls, m.name, qualifier, found⟩)
    refine ⟨b.toImport, (Scope.importLines_eq valid b.toImport).mpr ⟨b, inTable, rfl⟩, rfl, ?_⟩
    rw [Binding.localName_toImport, scope.rename_bound valid inTable found]

/-- The packages in the spelling of a type that is read are its qualifiers and those that its array
    lengths mention. Exactly where there are none of the latter, the qualifiers are all of them. -/
theorem TypeExpr.spelled_packages {t : TypeExpr} (parsed : t.Parsed)
    (close : t.lengthsClose = true) :
    dottedNames t.spelling = .ok (t.mentions.map Mention.name) ∧
    t.qualifiers = (t.mentions.filter fun m => !m.inLength).map Mention.name ∧
    (dottedNames t.spelling = .ok t.qualifiers ↔ ∀ m ∈ t.mentions, m.inLength = false) ∧
    ∀ (scope : Scope) (decls : List Decl), ∀ d ∈ decls, t ∈ d.types →
      (∀ e ∈ decls, AllIdentifiers e.qualifiers) → t.ResolvedIn scope decls d.place.file := by
  have wellFormed := parsed.wellFormed
  have text : dottedNames t.spelling = .ok (t.mentions.map Mention.name) := by
    have dots := dots_entry (fun _ free => free) wellFormed close (g := id)
    rw [requalify_self] at dots
    exact dots.ofText
  refine ⟨text, t.qualifiers_eq_mentions, ?_, fun scope decls d inDecls occurs identifiers =>
    resolvedIn wellFormed close inDecls occurs identifiers⟩
  rw [text, ← t.qualifiers_complete_iff, Except.ok.injEq, eq_comm]

def keyedBySum : TypeExpr :=
  .map (.qualified "ast" "Name") (.array "sha256.Size" (.pointer (.qualified "ast" "Node")))

def keyedBySumLexemes : Lexemes :=
  ⟨[.word "map", .openBracket, .word "ast", .dot, .word "Name", .closeBracket, .openBracket,
    .word "sha256", .dot, .word "Size", .closeBracket, .star, .word "ast", .dot, .word "Node",
    .semicolon].map (⟨·, 1⟩), 1⟩

theorem keyedBySum_parsed : keyedBySum.Parsed :=
  have scan : Lexemes.ofText "map[ast.Name][sha256.Size]*ast.Node" = .ok keyedBySumLexemes := by
    decide +kernel
  .entry scan (.refl _)
    (show Grammar.entryType Grammar.type false _ = .ok (keyedBySum, ⟨[⟨.semicolon, 1⟩], 1⟩)
      from rfl)

def keyedScope : Scope :=
  ⟨[("k.go", [⟨none, "go/ast", 2⟩, ⟨none, "crypto/sha256", 3⟩])]⟩

def keyedDecl : Decl := .type ⟨[⟨"Keyed", [], false, keyedBySum, 4⟩], false, ⟨"k.go", 4⟩⟩

theorem keyedBySum_packages :
    keyedBySum.Parsed ∧ keyedBySum.lengthsClose = true ∧
    dottedNames keyedBySum.spelling = .ok ["ast", "sha256", "ast"] ∧
    keyedBySum.qualifiers = ["ast", "ast"] ∧
    keyedBySum.ResolvedIn keyedScope [keyedDecl] "k.go" ∧
    (keyedScope.resolve [keyedDecl]).imports = [⟨none, "go/ast"⟩] := by
  have close : keyedBySum.lengthsClose = true := by decide +kernel
  obtain ⟨text, visited, _, resolved⟩ := keyedBySum.spelled_packages keyedBySum_parsed close
  have mentions : keyedBySum.mentions = [⟨"ast", false⟩, ⟨"sha256", true⟩, ⟨"ast", false⟩] := by
    decide +kernel
  have identifiers : ∀ e ∈ [keyedDecl], AllIdentifiers e.qualifiers := by
    have each : [keyedDecl].all (fun e => e.qualifiers.all isIdentifier) = true := by decide +kernel
    simpa [AllIdentifiers] using each
  rw [mentions] at text visited
  exact ⟨keyedBySum_parsed, close, text, visited,
    resolved keyedScope [keyedDecl] keyedDecl List.mem_cons_self List.mem_cons_self identifiers,
    by decide +kernel⟩

def digest : TypeExpr := .array "sha256.Size" (.name "byte")

theorem digest_package_missed :
    ¬ ∀ t : TypeExpr, t.Parsed → dottedNames t.spelling = .ok t.qualifiers := by
  intro all
  have scan : Lexemes.ofText "[sha256.Size]byte" =
      .ok ⟨[.openBracket, .word "sha256", .dot, .word "Size", .closeBracket, .word "byte",
        .semicolon].map (⟨·, 1⟩), 1⟩ := by
    decide +kernel
  have parsed : digest.Parsed := .entry scan (.refl _)
    (show Grammar.entryType Grammar.type false _ = .ok (digest, ⟨[⟨.semicolon, 1⟩], 1⟩) from rfl)
  have spelled : dottedNames digest.spelling = .ok ["sha256"] := by decide +kernel
  have none : digest.qualifiers = [] := rfl
  rw [all digest parsed, none] at spelled
  cases spelled

end GoSpy
