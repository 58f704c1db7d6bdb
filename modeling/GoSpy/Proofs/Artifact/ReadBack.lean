import GoSpy.Artifact.File
import GoSpy.Proofs.Artifact.DeclarationLines
import GoSpy.Proofs.Grammar.Declarations
import GoSpy.Proofs.Grammar.RoundTrip
/- A generated file is read back as what it was put together from: its head, its imports and its
   declarations are lines that give one run of tokens, and that run is read as a file. -/
namespace GoSpy

open Scan Layout

def isQuotable (path : String) : Bool :=
  path.toList.all fun c => c != '"' && c != '\\' && c != '\n'

theorem quotedBody_quotable {path : List Char}
    (clear : ∀ c ∈ path, c ≠ '"' ∧ c ≠ '\\' ∧ c ≠ '\n') :
    quotedBody '"' (path ++ ['"']) = some (path ++ ['"'], []) := by
  induction path with
  | nil => rfl
  | cons c rest ih =>
    obtain ⟨quote, slash, line⟩ := clear c List.mem_cons_self
    rw [List.cons_append, quotedBody.eq_2 _ _ _ fun _ _ same _ => slash same]
    simp [quote, slash, line, ih fun d member => clear d (List.mem_cons_of_mem _ member)]

theorem isStringLiteral_quotable {path : String} (quotable : isQuotable path = true) :
    isStringLiteral ("\"" ++ path ++ "\"") = true := by
  have clear : ∀ c ∈ path.toList, c ≠ '"' ∧ c ≠ '\\' ∧ c ≠ '\n' := by
    simpa [isQuotable, and_assoc] using quotable
  have text : ("\"" ++ path ++ "\"").toList = '"' :: (path.toList ++ ['"']) := by simp
  have blank : Text.isBlank '"' = false := by decide
  simp [isStringLiteral, text, piece, blank, quotedBody_quotable clear]

structure Import.Printable (i : Import) : Prop where
  name : ∀ name ∈ i.name, isIdentifier name = true
  path : isQuotable i.path = true

namespace Artifact

theorem import_spells {i : Import} (printable : i.Printable) (owed : Bool) (rest : List Char) :
    Flows owed (importText i).toList i.tokens true rest := by
  obtain ⟨name, path⟩ := i
  have literal := isStringLiteral_flows (isStringLiteral_quotable printable.path)
  cases name with
  | none => exact literal owed rest
  | some name =>
    obtain ⟨word, free⟩ := (isIdentifier_iff name).mp (printable.name name rfl)
    have text : importText ⟨some name, path⟩ = name ++ (" " ++ ("\"" ++ path ++ "\"")) := by
      have quote : " \"" = " " ++ "\"" := rfl
      simp only [importText, quote, String.append_assoc]
    rw [text]
    exact (Spells.word word free owed _ (boundary_text (by decide))).cons_text
      (.space_text (literal true rest))

theorem empty_lined : Lined [""] [] := by
  have line : Lined [""] ([] ++ due false) := .single false fun _ => .nothing false _
  exact line

theorem single_import_lined {i : Import} (printable : i.Printable) :
    Lined ["import " ++ importText i] (.word "import" :: (i.tokens ++ [.semicolon])) := by
  have keyword : "import " = "import" ++ " " := rfl
  rw [← List.cons_append]
  refine Lined.single true fun rest => ?_
  rw [keyword, String.append_assoc]
  refine (keyword_flows (w := "import") rfl rfl false (boundary_text (by decide))).cons_text ?_
  exact .space_text (import_spells printable _ _)

theorem importEntries_lined {imports : List Import} (each : ∀ i ∈ imports, i.Printable) :
    Lined (imports.map fun i => "\t" ++ importText i) (ended (imports.map Import.tokens)) := by
  rw [← List.flatMap_pure_eq_map]
  refine .flatMap ?_
  rw [List.map_map, List.forall₂_map_right_iff, List.forall₂_same]
  intro i member
  have line : Lined ["\t" ++ importText i] ([] ++ i.tokens ++ due true) :=
    .single true fun rest =>
      (Flows.tab false _).append_text (import_spells (each i member) false _)
  exact line

theorem importLines_lined {imports : List Import} (each : ∀ i ∈ imports, i.Printable) :
    Lined (importLines imports) (importTokens imports) := by
  match imports with
  | [] => exact .nil
  | [only] =>
    exact empty_lined.append (single_import_lined (each only List.mem_cons_self))
  | first :: second :: others =>
    have opening : Lined ["import ("] ([.word "import", .openParen] ++ due false) := by
      have parts : "import (" = "import" ++ (" " ++ "(") := rfl
      refine .single false fun rest => ?_
      rw [parts]
      refine (keyword_flows (w := "import") rfl rfl false (boundary_text (by decide))).cons_text ?_
      exact .space_text (.mark (t := .openParen) rfl false _)
    have closing : Lined [")"] ([.closeParen] ++ due true) :=
      .single true fun rest => .mark (t := .closeParen) rfl false _
    have whole := empty_lined.append
      (opening.append ((importEntries_lined each).append closing))
    simpa [importLines, importTokens, due] using whole

theorem mark_lined : Lined [mark] [] := by
  have line : Lined [mark] ([] ++ due false) :=
    .single false fun rest => .gap false rfl (by decide) (by decide)
  exact line

theorem package_lined {package : String} (identifier : isIdentifier package = true) :
    Lined ["package " ++ package] [.word "package", .word package, .semicolon] := by
  obtain ⟨word, free⟩ := (isIdentifier_iff package).mp identifier
  have keyword : "package " = "package" ++ " " := rfl
  have line : Lined ["package " ++ package] ([.word "package", .word package] ++ due true) := by
    refine Lined.single true fun rest => ?_
    rw [keyword, String.append_assoc]
    refine (keyword_flows (w := "package") rfl rfl false (boundary_text (by decide))).cons_text ?_
    exact .space_text (Spells.word word free false _ (boundary_cons (by decide)))
  exact line

theorem decls_lined {decls : List Decl} (each : ∀ d ∈ decls, d.Printable) :
    ∃ runs, List.Forall₂ Decl.Written decls runs ∧
      Lined (decls.flatMap fun d => "" :: declLines d) (ended runs) := by
  induction decls with
  | nil => exact ⟨[], .nil, .nil⟩
  | cons d rest ih =>
    obtain ⟨run, written, lined⟩ := Decl.lined (each d List.mem_cons_self)
    obtain ⟨runs, all, later⟩ := ih fun e member => each e (List.mem_cons_of_mem _ member)
    refine ⟨run :: runs, .cons written all, ?_⟩
    have shape : ended (run :: runs) = [] ++ (run ++ [.semicolon]) ++ ended runs := rfl
    rw [List.flatMap_cons, shape]
    exact (empty_lined.append lined).append later

theorem text_eq (a : Artifact) :
    a.text = unlines (headLines a ++ a.decls.flatMap fun d => "" :: declLines d) := by
  have block (d : Decl) : "\n" ++ d.text = unlines ("" :: declLines d) := by
    simp [Decl.text, unlines]
  rw [text, unlines_append]
  congr 1
  induction a.decls with
  | nil => rfl
  | cons d rest ih =>
    rw [List.flatMap_cons, unlines_append, ← ih, ← block]
    simp

/-- What the parts of a file must be for its text to say them. -/
structure Printable (a : Artifact) : Prop where
  package : isIdentifier a.package = true
  imports : ∀ i ∈ a.imports, i.Printable
  decls : ∀ d ∈ a.decls, d.Printable

theorem lexed {a : Artifact} (printable : a.Printable) :
    ∃ runs lexemes, List.Forall₂ Decl.Written a.decls runs ∧
      Lexemes.ofText a.text = .ok lexemes ∧
      (Cursor.ofLexemes lexemes).tokens = fileTokens a.package a.imports runs := by
  obtain ⟨runs, all, declsLined⟩ := decls_lined printable.decls
  have lined : Lined (headLines a ++ a.decls.flatMap fun d => "" :: declLines d)
      (fileTokens a.package a.imports runs) := by
    have head := (mark_lined.append empty_lined).append (package_lined printable.package)
    have whole := (head.append (importLines_lined printable.imports)).append declsLined
    simpa [fileTokens, headLines] using whole
  obtain ⟨ps, cuts, flows⟩ := lined []
  rw [List.append_nil, ← text_eq] at cuts
  have pieces : ps ≠ [] := by
    rintro rfl
    cases (Prod.mk.inj flows).1
  refine ⟨runs, _, all, Lexemes.ofText_of_cuts pieces cuts, ?_⟩
  refine (Scan.settle_tokens false 1 ps).trans ?_
  rw [flows]
  simp [due]

theorem read_back (path : String) {a : Artifact} (printable : a.Printable) :
    ∃ file, SourceFile.ofText path a.text = .ok file ∧
      Grammar.SameFile a.package a.imports a.decls file := by
  obtain ⟨runs, lexemes, all, lexed, shape⟩ := a.lexed printable
  have free := ((isIdentifier_iff a.package).mp printable.package).2
  have names : ∀ i ∈ a.imports, ∀ name ∈ i.name, isKeyword name = false :=
    fun i member name given =>
      ((isIdentifier_iff name).mp ((printable.imports i member).name name given)).2
  obtain ⟨file, behind, run, _, same⟩ := Grammar.sourceFile_reads path free names all
    (Cursor.ofLexemes lexemes) [] (by rw [shape, List.append_nil]) rfl
  refine ⟨file, ?_, same⟩
  simp [SourceFile.ofText, SourceFile.ofLexemes, lexed, run, Except.bind, Except.map,
    Except.mapError]

end Artifact

end GoSpy
