import GoSpy.Proofs.Grammar.Types
import GoSpy.Proofs.Syntax.WrittenDeclarations
/- Declarations, imports and whole files are read from the tokens they are written with. Bodies
   are passed over, and what is read has none. -/
namespace GoSpy.Grammar

open Cursor Reader

/- Type declarations -/

abbrev SameSpec : TypeSpec → TypeSpec → Prop := TypeSpec.Alike Eq fun _ _ => True

theorem typeParams_reads {fields : List Field} {entries : List Entry} {runs : List (List Token)}
    (grouped : fieldsOf entries = some fields)
    (all : List.Forall₂ (Entry.Written TypeExpr.WrittenConstraint) entries runs) :
    Reads (typeParams Grammar.type) (listTokens .openBracket .closeBracket runs) (fun _ => True)
      (List.Forall₂ SameField fields) :=
  fieldList_reads (constraintTypes fun _ _ inner _ => type_reads inner) (Or.inr rfl) grouped all
    le_rfl

theorem startsTypeParams_written {s : Cursor} {runs : List (List Token)} {rest : List Token}
    (opens : opensTypeParams (parted .comma runs) = true)
    (shape : s.tokens = listTokens .openBracket .closeBracket runs ++ rest) :
    (s.peek = some .openBracket && startsTypeParams s) = true := by
  unfold opensTypeParams at opens
  split at opens
  · rename_i name t more inside
    simp only [Bool.and_eq_true, Bool.not_eq_true'] at opens
    rw [listTokens, inside] at shape
    simp only [startsTypeParams, peek_eq, peekAt_eq, shape]
    simp only [List.cons_append, List.head?_cons, List.getElem?_cons_succ, List.getElem?_cons_zero,
      Option.any_some, Token.isName, opens.1]
    cases t <;> first | rfl | simp at opens
  · cases opens

theorem noAssign {s : Cursor} {t : TypeExpr} {tokens rest : List Token}
    (written : TypeExpr.Written t tokens) (shape : s.tokens = tokens ++ rest) :
    s.eat? .assign = none := by
  refine eat_other ?_
  rw [shape]
  obtain ⟨first, more, rfl, starts⟩ := written.starts
  rintro assign
  obtain rfl : first = .assign := by simpa using assign
  cases starts

theorem typeSpec_reads {spec : TypeSpec} {tokens : List Token}
    (written : TypeSpec.Written spec tokens) :
    Reads typeSpec tokens Stops (SameSpec spec) := by
  intro s rest shape stops
  cases written with
  | @mk name params t line front tokens free paramsWritten written apart =>
    rw [List.cons_append, List.append_assoc] at shape
    have behind := advance_cons shape
    cases paramsWritten with
    | none =>
      have noList : (s.advance.peek = some .openBracket && startsTypeParams s.advance) = false := by
        rw [peek_eq, behind]
        obtain ⟨first, more, rfl, _⟩ := written.starts
        simpa using fun bracket => absurd (congrArg some bracket) apart
      obtain ⟨t', s', run, behind', same⟩ := type_reads written s.advance rest behind stops
      refine ⟨⟨name, [], false, t', s.line⟩, s', ?_, behind', rfl, .nil, rfl, same, trivial⟩
      simp [typeSpec, name_cons free shape, noList, noAssign written behind, run, bind,
        Except.bind]
    | list grouped all opens =>
      have list := startsTypeParams_written opens behind
      obtain ⟨params', s₂, paramsRun, behind₂, sameParams⟩ :=
        typeParams_reads grouped all s.advance _ behind trivial
      obtain ⟨t', s', run, behind', same⟩ := type_reads written s₂ rest behind₂ stops
      refine ⟨⟨name, params', false, t', s.line⟩, s', ?_, behind', rfl, sameParams, rfl, same,
        trivial⟩
      simp [typeSpec, name_cons free shape, list, paramsRun, noAssign written behind₂, run, bind,
        Except.bind]

/- Methods -/

theorem behindBlock_braceFree {inner rest : List Token} (braceFree : BraceFree inner)
    {lexemes : List Lexeme} (shape : lexemes.map Lexeme.token = inner ++ .closeBrace :: rest) :
    ∃ more, behindBlock 1 lexemes = some more ∧ more.map Lexeme.token = rest := by
  induction inner generalizing lexemes with
  | nil =>
    obtain ⟨x, more, rfl, token, tokens⟩ := List.map_eq_cons_iff.mp shape
    exact ⟨more, by simp [behindBlock, token], tokens⟩
  | cons t inner ih =>
    obtain ⟨x, more, rfl, token, tokens⟩ := List.map_eq_cons_iff.mp shape
    obtain ⟨noOpen, noClose⟩ := braceFree t List.mem_cons_self
    obtain ⟨behind, run, same⟩ := ih (fun u member => braceFree u (List.mem_cons_of_mem _ member))
      tokens
    refine ⟨behind, ?_, same⟩
    rw [behindBlock.eq_def]
    dsimp only
    rw [token]
    cases t <;> first | exact run | contradiction

theorem skipBlock_reads {inner : List Token} (braceFree : BraceFree inner) {s : Cursor}
    {rest : List Token} (shape : s.tokens = .openBrace :: (inner ++ .closeBrace :: rest)) :
    ∃ s', skipBlock s = .ok s' ∧ s'.tokens = rest := by
  obtain ⟨x, lexemes, first, token, tokens⟩ := List.map_eq_cons_iff.mp shape
  obtain ⟨more, run, same⟩ := behindBlock_braceFree braceFree tokens
  exact ⟨{ s with rest := more }, by simp [skipBlock, first, behindBlock, token, run], same⟩

abbrev SameFunc : FuncDecl → FuncDecl → Prop :=
  FuncDecl.Alike Eq (fun _ _ => True) (fun _ _ => True) fun _ body => body = none

theorem receiver_reads (line : Nat) {f : Field} {tokens : List Token} (one : f.arity = 1)
    (written : WrittenParams [f] tokens) :
    Reads (receiver line) tokens (fun _ => True) (fun r => Option.Rel SameField (some f) r) := by
  intro s rest shape _
  obtain ⟨fields, s', run, behind, same⟩ :=
    params_reads (fun _ _ inner _ => type_reads inner) written le_rfl s rest shape trivial
  obtain ⟨more, rfl⟩ := written.opens
  obtain _ | ⟨first, none⟩ := same
  cases none
  refine ⟨_, s', ?_, behind, .some first⟩
  cases first
  simp [receiver, peek_cons shape, run, bind, Except.bind]
  exact one

theorem funcDecl_reads (place : Place) {d : FuncDecl} {tokens : List Token}
    (written : FuncDecl.Written d tokens) :
    Reads (funcDecl place) tokens (fun _ => True) (SameFunc d) := by
  intro s rest shape _
  cases written with
  | @method f name signature body _ front tokens inner one receiverWritten free written braceFree =>
    rw [List.append_assoc] at shape
    obtain ⟨receiver', s₁, run₁, behind₁, same₁⟩ :=
      receiver_reads place.line one receiverWritten s _ shape trivial
    rw [List.cons_append, List.append_assoc] at behind₁
    have behind₂ := advance_cons behind₁
    have noList : s₁.advance.peek ≠ some .openBracket := by
      obtain ⟨more, opens⟩ := written.opens
      rw [peek_eq, behind₂, opens]
      simp
    obtain ⟨signature', s₃, run₃, behind₃, same₃⟩ :=
      signature_reads_all written s₁.advance _ behind₂ rfl
    have brace : s₃.peek = some .openBrace := by
      rw [peek_eq, behind₃]
      rfl
    rw [List.cons_append, List.append_assoc] at behind₃
    obtain ⟨s₄, run₄, behind₄⟩ := skipBlock_reads braceFree behind₃
    refine ⟨⟨receiver', name, [], signature', none, place⟩, s₄, ?_, behind₄, same₁, rfl, .nil,
      same₃, rfl, trivial⟩
    simp [funcDecl, run₁, name_cons free behind₁, noList, run₃, brace, run₄, bind, Except.bind]

/- Lists of declarations -/

/-- Declarations that are the same apart from places and lines, the second without a body. -/
abbrev SameDecl : Decl → Decl → Prop :=
  Decl.Alike Eq (fun _ _ => True) (fun _ _ => True) fun _ body => body = none

theorem decl_reads (file : String) {d : Decl} {tokens : List Token}
    (written : Decl.Written d tokens) :
    Reads (decl file) tokens (fun rest => rest.head? = some .semicolon) (SameDecl d) := by
  intro s rest shape ends
  cases written with
  | @type spec place tokens written =>
    have behind := advance_cons shape
    obtain ⟨spec', s', run, behind', same⟩ :=
      typeSpec_reads written s.advance rest behind (stops_of_head rfl ends)
    have single : s.advance.eat? .openParen = none := by
      refine eat_other ?_
      rw [behind]
      cases written
      simp
    refine ⟨.type ⟨[spec'], false, ⟨file, s.line⟩⟩, s', ?_, behind',
      .type false (.cons same .nil) trivial⟩
    simp [decl, peek_cons shape, Reader.group, single, run, bind, Except.bind]
  | func written =>
    obtain ⟨d', s', run, behind', same⟩ :=
      funcDecl_reads ⟨file, s.line⟩ written s.advance rest (advance_cons shape) trivial
    refine ⟨.func d', s', ?_, behind', .func same⟩
    simp [decl, peek_cons shape, run, bind, Except.bind]

theorem decl_starts {d : Decl} {tokens : List Token} (written : Decl.Written d tokens) :
    ∃ w more, tokens = .word w :: more ∧ w ≠ "import" := by
  cases written with
  | type | func => exact ⟨_, _, rfl, by decide⟩

theorem decls_reads (file : String) {ds : List Decl} {runs : List (List Token)}
    (all : List.Forall₂ Decl.Written ds runs) {fuel : Nat} (enough : runs.length < fuel) :
    Reads (decls file fuel) (ended runs) (· = []) (List.Forall₂ SameDecl ds) := by
  induction all generalizing fuel with
  | nil =>
    rintro s rest shape rfl
    obtain ⟨fuel, rfl⟩ := Nat.exists_eq_add_one_of_ne_zero (by omega : fuel ≠ 0)
    have done : s.tokens = [] := shape
    have stays : s.skipSemicolons = s := skipSemicolons_other (by simp [done])
    have atEnd : s.peek = none := by simp [peek_eq, done]
    exact ⟨[], s, by simp [decls, stays, atEnd], done, .nil⟩
  | @cons d tokens ds runs written _ ih =>
    rintro s rest shape rfl
    obtain ⟨fuel, rfl⟩ := Nat.exists_eq_add_one_of_ne_zero (by omega : fuel ≠ 0)
    simp only [List.length_cons] at enough
    rw [ended_cons] at shape
    obtain ⟨d', s₁, run, behind, same⟩ := decl_reads file written s _ shape rfl
    have shorter : runs.length < fuel := by omega
    obtain ⟨ds', s₂, runs', behind₂, later⟩ :=
      ih shorter s₁.advance [] (advance_cons behind) rfl
    obtain ⟨w, more, rfl, _⟩ := decl_starts written
    have stays : s.skipSemicolons = s := skipSemicolons_other (by simp [shape])
    have going : s.peek ≠ none := by simp [peek_eq, shape]
    have ends : endDecl s₁ = .ok s₁.advance := by
      simp [endDecl, peek_cons behind, expect_cons behind]
    refine ⟨d' :: ds', s₂, ?_, behind₂, .cons same later⟩
    simp [decls, stays, going, run, ends, runs', bind, Except.bind]

/- Imports -/

def SameImport (i : Import) (spec : ImportSpec) : Prop :=
  spec.name = i.name ∧ spec.path = i.path

theorem unquote_quoted (path : String) : unquote ("\"" ++ path ++ "\"") = path := by
  have text : ("\"" ++ path ++ "\"").toList = '"' :: (path.toList ++ ['"']) := by simp
  simp [unquote, text]

theorem importSpec_reads {i : Import} (free : ∀ name ∈ i.name, isKeyword name = false) :
    Reads importSpec i.tokens (fun _ => True) (SameImport i) := by
  intro s rest shape _
  obtain ⟨name, path⟩ := i
  cases name with
  | none =>
    refine ⟨⟨none, unquote ("\"" ++ path ++ "\""), s.line⟩, s.advance, ?_, advance_cons shape, rfl,
      unquote_quoted path⟩
    have noName : importName s = .ok (none, s) := by
      simp only [importName, peek_cons shape]
    simp only [importSpec, noName, string, peek_cons shape, bind, Except.bind]
  | some name =>
    have behind := advance_cons shape
    refine ⟨⟨some name, unquote ("\"" ++ path ++ "\""), s.line⟩, s.advance.advance, ?_,
      advance_cons behind, rfl, unquote_quoted path⟩
    have named : importName s = .ok (some name, s.advance) := by
      simp only [importName, peek_cons shape, name_cons (free name rfl) shape, bind, Except.bind]
    simp only [importSpec, named, string, peek_cons behind, bind, Except.bind]

theorem import_starts (i : Import) : Starts .closeParen i.tokens ∧ Starts .semicolon i.tokens ∧
    Starts .openParen i.tokens := by
  obtain ⟨name, path⟩ := i
  cases name with
  | none => exact ⟨⟨_, _, rfl, by simp⟩, ⟨_, _, rfl, by simp⟩, ⟨_, _, rfl, by simp⟩⟩
  | some name => exact ⟨⟨_, _, rfl, by simp⟩, ⟨_, _, rfl, by simp⟩, ⟨_, _, rfl, by simp⟩⟩

theorem importGroup_reads {is : List Import}
    (free : ∀ i ∈ is, ∀ name ∈ i.name, isKeyword name = false) {s : Cursor} {rest : List Token}
    (shape : s.tokens = .openParen :: (ended (is.map Import.tokens) ++ .closeParen :: rest)) :
    ∃ specs s', Reader.group importSpec s = .ok ((specs, true), s') ∧ s'.tokens = rest ∧
      List.Forall₂ SameImport is specs := by
  have behind := advance_cons shape
  have each : List.Forall₂ (fun i run => Starts .closeParen run ∧ Starts .semicolon run ∧
      ∀ (_ : List ImportSpec) (_ : List Import), True →
        Reads importSpec run (fun _ => True) (SameImport i)) is (is.map Import.tokens) := by
    refine List.forall₂_map_right_iff.mpr (List.forall₂_same.mpr fun i member => ?_)
    obtain ⟨close, semicolon, _⟩ := import_starts i
    exact ⟨close, semicolon, fun _ _ _ => importSpec_reads (free i member)⟩
  have enough : (is.map Import.tokens).length < s.advance.fuel := by
    have : (is.map Import.tokens).length ≤ (ended (is.map Import.tokens)).length :=
      length_lines (lines_ended _) fun run member => by
        obtain ⟨i, _, rfl⟩ := List.mem_map.mp member
        exact (import_starts i).1.nonempty
    rw [fuel_eq, behind, List.length_append]
    omega
  obtain ⟨specs, s', run, behind₂, same⟩ := entries_reads (fun _ _ => True) []
    (fun _ _ => trivial) (fun _ _ => trivial) (Or.inl rfl) (fun _ _ _ _ _ _ => trivial) each
    (lines_ended _) trivial enough s.advance _ behind rfl
  refine ⟨specs, s'.advance, ?_, advance_cons behind₂, same⟩
  simp [Reader.group, eat_cons shape, run, expect_cons behind₂, bind, Except.bind]

theorem imports_end {s : Cursor} {fuel : Nat} (there : s.tokens.head? ≠ some .semicolon)
    (done : s.tokens.head? ≠ some (.word "import")) : imports (fuel + 1) s = .ok ([], s) := by
  simp only [imports, skipSemicolons_other there, eat_other done]

theorem imports_single {s s' : Cursor} {specs : List ImportSpec} {grouped : Bool} {fuel : Nat}
    {tokens rest : List Token} (shape : s.tokens = .word "import" :: tokens)
    (run : Reader.group importSpec s.advance = .ok ((specs, grouped), s'))
    (behind : s'.tokens = .semicolon :: rest) (there : rest.head? ≠ some .semicolon)
    (done : rest.head? ≠ some (.word "import")) :
    imports (fuel + 2) s = .ok (specs, s'.advance) := by
  have last := advance_cons behind
  have ends : imports (fuel + 1) s'.advance = .ok ([], s'.advance) :=
    imports_end (last ▸ there) (last ▸ done)
  have stays : s.skipSemicolons = s := skipSemicolons_other (by simp [shape])
  rw [imports]
  simp [stays, eat_cons shape, run, endEntry_semicolon behind, ends, bind, Except.bind]

theorem imports_reads {is : List Import}
    (free : ∀ i ∈ is, ∀ name ∈ i.name, isKeyword name = false) {fuel : Nat}
    (enough : (importTokens is).length < fuel) :
    Reads (imports fuel) (importTokens is)
      (fun rest => rest.head? ≠ some .semicolon ∧ rest.head? ≠ some (.word "import"))
      (List.Forall₂ SameImport is) := by
  rintro s rest shape ⟨there, done⟩
  match is with
  | [] =>
    obtain ⟨fuel, rfl⟩ := Nat.exists_eq_add_of_le' enough
    have same : s.tokens = rest := shape
    exact ⟨[], s, imports_end (same ▸ there) (same ▸ done), same, .nil⟩
  | [only] =>
    have two : 2 ≤ fuel := by simp only [importTokens, List.length_cons] at enough; omega
    obtain ⟨fuel, rfl⟩ := Nat.exists_eq_add_of_le' two
    simp only [importTokens, List.cons_append, List.append_assoc, List.nil_append] at shape
    have next := advance_cons shape
    obtain ⟨spec, s', run, behind, same⟩ :=
      importSpec_reads (free only (by simp)) s.advance _ next trivial
    have single : s.advance.eat? .openParen = none := by
      refine eat_other ?_
      rw [next]
      exact (import_starts only).2.2.head _
    have group : Reader.group importSpec s.advance = .ok (([spec], false), s') := by
      simp [Reader.group, single, run, bind, Except.bind]
    exact ⟨[spec], s'.advance, imports_single shape group behind there done, advance_cons behind,
      .cons same .nil⟩
  | first :: second :: others =>
    have two : 2 ≤ fuel := by simp only [importTokens, List.length_cons] at enough; omega
    obtain ⟨fuel, rfl⟩ := Nat.exists_eq_add_of_le' two
    simp only [importTokens, List.cons_append, List.append_assoc, List.nil_append] at shape
    obtain ⟨specs, s', group, behind, same⟩ := importGroup_reads free (advance_cons shape)
    exact ⟨specs, s'.advance, imports_single shape group behind there done, advance_cons behind, same⟩

/- Files -/

/-- A file that says the same as the parts of a generated one. -/
structure SameFile (package : String) (is : List Import) (ds : List Decl) (file : SourceFile) :
    Prop where
  package : file.package = package
  imports : List.Forall₂ SameImport is file.imports
  decls : List.Forall₂ SameDecl ds file.decls

theorem sourceFile_reads (path : String) {package : String} {is : List Import} {ds : List Decl}
    {runs : List (List Token)} (freePackage : isKeyword package = false)
    (free : ∀ i ∈ is, ∀ name ∈ i.name, isKeyword name = false)
    (all : List.Forall₂ Decl.Written ds runs) :
    Reads (sourceFile path) (fileTokens package is runs) (· = [])
      (SameFile package is ds) := by
  rintro s rest shape rfl
  simp only [fileTokens, List.append_nil] at shape
  have stays : s.skipSemicolons = s := skipSemicolons_other (by simp [shape])
  have behind₁ := advance_cons shape
  have behind₂ := advance_cons behind₁
  have behind₃ := advance_cons behind₂
  have next : (ended runs).head? ≠ some .semicolon ∧
      (ended runs).head? ≠ some (.word "import") := by
    cases all with
    | nil => simp [ended]
    | cons written =>
      obtain ⟨w, more, rfl, apart⟩ := decl_starts written
      simp [ended, apart]
  have fuelImports : (importTokens is).length < s.advance.advance.advance.fuel := by
    rw [fuel_eq, behind₃, List.length_append]
    omega
  obtain ⟨specs, s₁, importRun, behind₄, sameImports⟩ :=
    imports_reads free fuelImports s.advance.advance.advance _ behind₃ next
  have fuelDecls : runs.length < s₁.fuel := by
    have : runs.length ≤ (ended runs).length := length_lines (lines_ended runs)
      fun run member => by
        obtain ⟨d, _, written⟩ := exists_of_forall₂ all member
        obtain ⟨w, more, rfl, _⟩ := decl_starts written
        simp
    rw [fuel_eq, behind₄]
    omega
  obtain ⟨ds', s₂, declRun, behind₅, sameDecls⟩ :=
    decls_reads path all fuelDecls s₁ [] (by rw [behind₄, List.append_nil]) rfl
  refine ⟨⟨package, specs, ds'⟩, s₂, ?_, behind₅, rfl, sameImports, sameDecls⟩
  simp [sourceFile, stays, expect_cons shape, name_cons freePackage behind₁,
    endEntry_semicolon behind₂, importRun, declRun, bind, Except.bind]

end GoSpy.Grammar
