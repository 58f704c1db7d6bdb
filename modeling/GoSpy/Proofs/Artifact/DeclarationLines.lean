import GoSpy.Proofs.Artifact.Lines
import GoSpy.Proofs.Syntax.Bodies
import GoSpy.Proofs.Syntax.TypeParameters
/- Generated declarations on their lines: a struct with its type parameters, and a method with a
   body. Each gives the tokens that it is written with, and a semicolon behind them. -/
namespace GoSpy

open Scan Layout

/-- A struct type whose text says all of it. -/
structure TypeSpec.Printable (s : TypeSpec) : Prop where
  name : isIdentifier s.name = true
  typeParams : ∀ f ∈ s.typeParams, f.isTypeParam = true
  apart : separable s.typeParams = true
  defined : s.isAlias = false
  isStruct : ∃ members, s.type = .struct members
  normal : s.type.isNormal = true
  tagsFit : s.type.tagsFit = true

structure FuncDecl.Printable (d : FuncDecl) : Prop where
  receiver : ∃ r, d.receiver = some r ∧ r.arity = 1 ∧ r.isNormalParam = true
  name : isIdentifier d.name = true
  typeParams : d.typeParams = []
  normal : d.signature.isNormal = true
  body : ∃ first others, d.body = some (first :: others) ∧
    ∀ s ∈ first :: others, s.isNamed = true

inductive Decl.Printable : Decl → Prop where
  | type {spec : TypeSpec} (place : Place) (printable : spec.Printable) :
      Decl.Printable (.type ⟨[spec], false, place⟩)
  | func {d : FuncDecl} (printable : d.Printable) : Decl.Printable (.func d)

theorem struct_head {members : List Member} {tokens : List Token}
    (written : TypeExpr.Written (.struct members) tokens) :
    tokens.head? ≠ some .openBracket := by
  cases written
  simp

theorem typeDecl_lined {spec : TypeSpec} (printable : spec.Printable) (place : Place) :
    ∃ run, Decl.Written (.type ⟨[spec], false, place⟩) run ∧
      Lined (declLines (.type ⟨[spec], false, place⟩)) (run ++ [.semicolon]) := by
  obtain ⟨name, typeParams, isAlias, type, line⟩ := spec
  obtain ⟨identifier, each, apart, defined, ⟨members, rfl⟩, normal, fit⟩ := printable
  obtain rfl : isAlias = false := defined
  obtain ⟨front, paramsWritten, nameSpells⟩ := typeParams_spelled identifier each apart
  obtain ⟨tokens, written, spells⟩ := TypeExpr.block_spelled 0 (.struct members) normal fit
  refine ⟨_, .type (.mk ((isIdentifier_iff name).mp identifier).2 paramsWritten written
    (struct_head written)), ?_⟩
  have head (rest : List Char) :
      Flows false ("type " ++ (name ++ typeParamsText typeParams ++ " ")).toList
        (.word "type" :: .word name :: front) true rest := by
    have keyword : "type " = "type" ++ " " := rfl
    rw [keyword, String.append_assoc]
    refine (keyword_flows (w := "type") rfl rfl false (boundary_text (by decide))).cons_text ?_
    refine .space_text ?_
    rw [← List.append_nil (.word name :: front)]
    exact (nameSpells false _ (boundary_cons (by decide))).append_text (.space true rest)
  have block := spells _ _ _ fun rest => head _
  have lines : declLines (.type ⟨[⟨name, typeParams, false, .struct members, line⟩], false,
      place⟩) = ((typeBlock 0 (.struct members)).behind
        ("type " ++ (name ++ typeParamsText typeParams ++ " "))).toLines := by
    simp [declLines, typeDeclLines, specBlock, Block.behind, String.append_assoc]
  rw [lines]
  simpa using block

theorem bodyLines_lined {statements : List Statement}
    (named : ∀ s ∈ statements, s.isNamed = true) :
    ∃ tokens, BraceFree tokens ∧
      Lined (statements.map fun s => indent 1 ++ s.spelling) tokens := by
  induction statements with
  | nil => exact ⟨[], by simp [BraceFree], .nil⟩
  | cons s rest ih =>
    obtain ⟨tokens, free, spells⟩ := Statement.plain (named s List.mem_cons_self)
    obtain ⟨later, freeLater, lined⟩ := ih fun t member => named t (List.mem_cons_of_mem _ member)
    have first : Lined [indent 1 ++ s.spelling] (tokens ++ due true) :=
      .single true fun rest =>
        (indent_flows 1 false _).append_text (spells false _ (boundary_cons (by decide)))
    exact ⟨_, (free.append (by simp [BraceFree, due])).append freeLater, first.append lined⟩

theorem methodHead_flows {d : FuncDecl} {r : Field} {front tokens : List Token}
    (receiver : d.receiver = some r) (plain : d.typeParams = [])
    (identifier : isIdentifier d.name = true)
    (receiverFlows : ∀ owed rest,
      Flows owed ("(" ++ listSpelling [r] ++ ")").toList front true rest)
    (spells : Spells d.signature.spelling tokens) (rest : List Char) :
    Flows false (funcHead d ++ " \x7b").toList
      (.word "func" :: (front ++ .word d.name :: (tokens ++ [.openBrace]))) false rest := by
  obtain ⟨word, free⟩ := (isIdentifier_iff d.name).mp identifier
  have text : funcHead d ++ " \x7b" = "func" ++ (" " ++ (("(" ++ listSpelling [r] ++ ")") ++
      (" " ++ (d.name ++ (d.signature.spelling ++ (" " ++ "\x7b")))))) := by
    have keyword : "func " = "func" ++ " " := rfl
    have closing : ") " = ")" ++ " " := rfl
    have opening : " \x7b" = " " ++ "\x7b" := rfl
    have single : listSpelling [r] = r.spelling := rfl
    simp only [funcHead, receiver, plain, typeParamsText, keyword, closing, opening, single,
      List.isEmpty_nil, if_true, String.append_assoc, String.empty_append]
  rw [text]
  refine (keyword_flows (w := "func") rfl rfl false (boundary_text (by decide))).cons_text ?_
  refine .space_text ?_
  refine (receiverFlows false _).append_text (.space_text ?_)
  obtain ⟨more, opens⟩ := d.signature.opens_spelling
  refine (Spells.word word free true _ ?_).cons_text ?_
  · rw [String.toList_append, opens]
    exact boundary_cons (by decide)
  · refine (spells true _ (boundary_text (by decide))).append_text (.space_text ?_)
    exact .mark (t := .openBrace) rfl true rest

theorem method_lined {d : FuncDecl} (printable : d.Printable) :
    ∃ run, Decl.Written (.func d) run ∧ Lined (declLines (.func d)) (run ++ [.semicolon]) := by
  obtain ⟨⟨r, receiver, one, fits⟩, identifier, plain, normal, first, others, body, named⟩ :=
    printable
  have each : ∀ f ∈ [r], f.SpelledParam := by simpa using r.spelledParam fits
  have same : sameNaming [r] = true := by
    cases h : r.names <;> simp [sameNaming, h]
  obtain ⟨front, receiverWritten, receiverFlows⟩ := params_spelled same each
  obtain ⟨tokens, written, spells⟩ := d.signature.spelled normal
  obtain ⟨inner, braceFree, lined⟩ := bodyLines_lined named
  have opening : Lined [funcHead d ++ " \x7b"]
      (.word "func" :: (front ++ .word d.name :: (tokens ++ [.openBrace])) ++ due false) :=
    .single false fun rest =>
      methodHead_flows receiver plain identifier receiverFlows spells _
  have closing : Lined ["\x7d"] ([.closeBrace] ++ due true) :=
    .single true fun rest => .mark (t := .closeBrace) rfl false _
  have lines : declLines (.func d) = [funcHead d ++ " \x7b"] ++
      ((first :: others).map (fun s => indent 1 ++ s.spelling) ++ ["\x7d"]) := by
    simp [declLines, funcDeclLines, body]
  obtain ⟨_, name, typeParams, signature, _, place⟩ := d
  obtain rfl : typeParams = [] := plain
  obtain rfl := receiver
  refine ⟨_, .func (.method one receiverWritten ((isIdentifier_iff name).mp identifier).2 written
    braceFree), ?_⟩
  rw [lines]
  simpa [due] using opening.append (lined.append closing)

theorem Decl.lined {d : Decl} (printable : d.Printable) :
    ∃ run, Decl.Written d run ∧ Lined (declLines d) (run ++ [.semicolon]) := by
  cases printable with
  | type place printable => exact typeDecl_lined printable place
  | func printable => exact method_lined printable

end GoSpy
