import GoSpy.Proofs.Syntax.Fields
/- The spelling of each form of type gives the tokens of its parts and those in between. This is
   so whatever the parts are spelled as, as long as they stand for some run of tokens. -/
namespace GoSpy

open Scan

/-- What may stand behind a star without making another operator of it. -/
def AfterStar (text : String) : Prop := ∃ c more, text.toList = c :: more ∧ c ≠ '='

theorem AfterStar.append {text : String} (front : AfterStar text) (back : String) :
    AfterStar (text ++ back) := by
  obtain ⟨c, more, shape, apart⟩ := front
  exact ⟨c, more ++ back.toList, by simp [shape], apart⟩

theorem afterStar_identifier {text : String} (identifier : isIdentifier text = true) :
    AfterStar text := by
  obtain ⟨c, more, shape, starts, _⟩ :=
    (Text.isWord_iff text).mp ((isIdentifier_iff text).mp identifier).1
  refine ⟨c, more, shape, ?_⟩
  rintro rfl
  exact absurd starts (by decide)

def TypeExpr.opensFree : TypeExpr → Bool
  | .name word | .qualified word _ | .generic (.name word) _ | .generic (.qualified word _) _ =>
    isIdentifier word
  | .generic .. | .variadic _ | .union _ => false
  | _ => true

theorem afterStar {t : TypeExpr} (opens : t.opensFree = true) : AfterStar t.spelling := by
  have literal {front back : String} (starts : AfterStar front) : AfterStar (front ++ back) :=
    starts.append back
  cases t with
  | name => exact afterStar_identifier opens
  | qualified => exact literal (literal (afterStar_identifier opens))
  | generic base args =>
    cases base with
    | name => exact literal (literal (literal (afterStar_identifier opens)))
    | qualified =>
      exact literal (literal (literal (literal (literal (afterStar_identifier opens)))))
    | _ => cases opens
  | pointer | slice | func => exact literal ⟨_, _, rfl, by decide⟩
  | array | map => exact literal (literal (literal ⟨_, _, rfl, by decide⟩))
  | paren => exact literal (literal ⟨_, _, rfl, by decide⟩)
  | chan direction => cases direction <;> exact literal ⟨_, _, rfl, by decide⟩
  | interface elements =>
    cases elements with
    | nil => exact ⟨_, _, rfl, by decide⟩
    | cons => exact literal (literal ⟨_, _, rfl, by decide⟩)
  | struct members =>
    cases members with
    | nil => exact ⟨_, _, rfl, by decide⟩
    | cons => exact literal (literal ⟨_, _, rfl, by decide⟩)
  | variadic | union => cases opens

theorem isWord_of_isKeyword {w : String} (keyword : isKeyword w = true) :
    Text.isWord w = true := by
  have words : keywords.all Text.isWord = true := by decide +kernel
  exact List.all_eq_true.mp words w (by simpa [isKeyword] using keyword)

theorem keyword_flows {w : String} (keyword : isKeyword w = true)
    (goesOn : (Token.word w).endsStatement = false) (owed : Bool) {rest : List Char}
    (boundary : Boundary rest) : Flows owed w.toList [.word w] false rest := by
  have flows := Flows.word (isWord_of_isKeyword keyword) owed boundary
  rwa [goesOn] at flows

/- Types -/

namespace Spells

theorem qualified {package name : String} (packageIdentifier : isIdentifier package = true)
    (identifier : isIdentifier name = true) :
    Spells (TypeExpr.qualified package name).spelling [.word package, .dot, .word name] := by
  obtain ⟨packageWord, packageFree⟩ := (isIdentifier_iff package).mp packageIdentifier
  obtain ⟨word, free⟩ := (isIdentifier_iff name).mp identifier
  intro owed rest boundary
  change Flows owed (package ++ "." ++ name).toList _ true rest
  rw [String.append_assoc, String.toList_append, String.toList_append]
  have first : Flows owed package.toList [.word package] true ('.' :: name.toList ++ rest) :=
    Spells.word packageWord packageFree owed _ (boundary_cons (by decide))
  obtain ⟨c, more, shape, starts, _⟩ := (Text.isWord_iff name).mp word
  have dot : Flows true ['.'] [.dot] false (name.toList ++ rest) := by
    rw [shape]
    exact .dot true starts
  exact first.append (dot.append (Spells.word word free false rest boundary))

variable {t u : TypeExpr} {front tokens : List Token} (spells : Spells t.spelling tokens)

theorem generic (base : Spells u.spelling front) {args : List TypeExpr}
    {runs : List (List Token)} (spell : List.Forall₂ Spells (args.map TypeExpr.spelling) runs) :
    Spells (TypeExpr.generic u args).spelling
      (front ++ .openBracket :: (parted .comma runs ++ [.closeBracket])) := by
  intro owed rest boundary
  have shape : (TypeExpr.generic u args).spelling =
      u.spelling ++ (Token.openBracket.spelling ++ GoSpy.joined ", " (args.map TypeExpr.spelling)
        ++ Token.closeBracket.spelling) := by
    change u.spelling ++ "[" ++ GoSpy.joined ", " (typeSpellings args) ++ "]" = _
    rw [typeSpellings_eq_map]
    simp only [String.append_assoc]
    rfl
  rw [shape, String.toList_append]
  refine (base owed _ ?_).append (.listed rfl rfl spell true rest)
  simp only [String.append_assoc, String.toList_append]
  exact boundary_cons (by decide)

include spells

theorem pointer (after : AfterStar t.spelling) :
    Spells (TypeExpr.pointer t).spelling (.star :: tokens) := by
  obtain ⟨c, more, shape, apart⟩ := after
  change Spells ("*" ++ t.spelling) _
  refine Spells.behind false [.star] (fun owed rest => ?_) spells
  rw [shape]
  exact .star owed apart

theorem slice : Spells (TypeExpr.slice t).spelling (.openBracket :: .closeBracket :: tokens) := by
  change Spells ("[]" ++ t.spelling) _
  refine Spells.behind true [.openBracket, .closeBracket] (fun owed rest => ?_) spells
  exact (Flows.mark (t := .openBracket) rfl owed _).append (.mark (t := .closeBracket) rfl _ _)

theorem array {length : String} (flows : ∀ rest,
    Flows false (length ++ "]").toList (front ++ [.closeBracket]) true rest) :
    Spells (TypeExpr.array length t).spelling
      (.openBracket :: (front ++ .closeBracket :: tokens)) := by
  have shape : Token.openBracket :: (front ++ .closeBracket :: tokens) =
      .openBracket :: (front ++ [.closeBracket]) ++ tokens := by simp
  change Spells ("[" ++ length ++ "]" ++ t.spelling) _
  rw [shape]
  refine Spells.behind true _ (fun owed rest => ?_) spells
  rw [String.append_assoc]
  exact (Flows.mark (t := .openBracket) rfl owed _).cons_text (flows _)

theorem map (key : Spells u.spelling front) :
    Spells (TypeExpr.map u t).spelling
      (.word "map" :: .openBracket :: (front ++ .closeBracket :: tokens)) := by
  have shape : Token.word "map" :: .openBracket :: (front ++ .closeBracket :: tokens) =
      [.word "map"] ++ ([.openBracket] ++ (front ++ [.closeBracket])) ++ tokens := by simp
  change Spells ("map" ++ "[" ++ u.spelling ++ "]" ++ t.spelling) _
  rw [shape]
  refine Spells.behind true _ (fun owed rest => ?_) spells
  rw [String.append_assoc, String.append_assoc, String.toList_append, String.toList_append]
  refine (keyword_flows rfl rfl owed (boundary_cons (by decide))).append ?_
  exact (Flows.mark (t := .openBracket) rfl false _).append
    (key.closed (t := .closeBracket) rfl false _)

theorem chan (direction : Direction) :
    Spells (TypeExpr.chan direction t).spelling (direction.tokens ++ tokens) := by
  change Spells (direction.spelling ++ t.spelling) _
  refine Spells.behind false _ (fun owed rest => ?_) spells
  have word {rest : List Char} (owed : Bool) (boundary : Boundary rest) :
      Flows owed "chan".toList [.word "chan"] false rest :=
    keyword_flows rfl rfl owed boundary
  cases direction with
  | both => exact (word owed (boundary_cons (by decide))).append (.space false _)
  | send =>
    have arrow := (Flows.mark (t := .arrow) rfl false _).append
      (.space false (t.spelling.toList ++ rest))
    exact (word owed (boundary_cons (by decide))).append arrow
  | receive =>
    have behind := (word false (boundary_cons (by decide))).append
      (.space false (t.spelling.toList ++ rest))
    exact (Flows.mark (t := .arrow) rfl owed _).append behind

theorem paren : Spells (TypeExpr.paren t).spelling (.openParen :: (tokens ++ [.closeParen])) := by
  intro owed rest _
  change Flows owed ("(" ++ t.spelling ++ ")").toList _ true rest
  rw [String.append_assoc]
  exact (Flows.mark (t := .openParen) rfl owed _).cons_text
    (spells.closed (t := .closeParen) rfl false rest)

theorem variadic : Spells (TypeExpr.variadic t).spelling (.ellipsis :: tokens) := by
  change Spells ("..." ++ t.spelling) _
  exact Spells.behind false _ (fun owed rest => .mark (t := .ellipsis) rfl owed _) spells

theorem plainTerm : Spells (Term.spelling ⟨false, t⟩) tokens := by
  change Spells ("" ++ t.spelling) tokens
  rwa [String.empty_append]

theorem tildeTerm : Spells (Term.spelling ⟨true, t⟩) (.tilde :: tokens) :=
  Spells.behind false _ (fun owed _ => .mark (t := .tilde) rfl owed _) spells

end Spells

theorem Spells.union {terms : List Term} {runs : List (List Token)} (some : terms ≠ [])
    (spell : List.Forall₂ Spells (terms.map Term.spelling) runs) :
    Spells (TypeExpr.union terms).spelling (parted .pipe runs) := by
  change Spells (GoSpy.joined " | " (termSpellings terms)) _
  rw [termSpellings_eq_map]
  exact .joined separates_pipe (by simpa using some) spell

/- Signatures -/

theorem Signature.spelling_several (params : List Field) {results : List Field}
    (some : results ≠ []) (several : ∀ t, results ≠ [⟨[], t⟩]) :
    Signature.spelling ⟨params, results⟩ =
      "(" ++ listSpelling params ++ ")" ++ (" " ++ ("(" ++ listSpelling results ++ ")")) := by
  have parts : ") (" = ")" ++ (" " ++ "(") := rfl
  have shape : Signature.spelling ⟨params, results⟩ =
      "(" ++ listSpelling params ++ ") (" ++ listSpelling results ++ ")" := by
    cases results with
    | nil => exact absurd rfl some
    | cons first others =>
      obtain ⟨names, t⟩ := first
      cases others with
      | cons => cases names <;> rfl
      | nil =>
        cases names with
        | nil => exact absurd rfl (several t)
        | cons => rfl
  rw [shape, parts]
  simp only [String.append_assoc]

theorem Signature.spelling_single (params : List Field) (t : TypeExpr) :
    Signature.spelling ⟨params, [⟨[], t⟩]⟩ =
      "(" ++ listSpelling params ++ ")" ++ (" " ++ t.spelling) := by
  have parts : ") " = ")" ++ " " := rfl
  change "(" ++ listSpelling params ++ ") " ++ t.spelling = _
  rw [parts]
  simp only [String.append_assoc]

theorem Signature.opens_spelling (s : Signature) :
    ∃ more, s.spelling.toList = '(' :: more := by
  obtain ⟨params, results⟩ := s
  have opens (text back : String) : ∃ more, ("(" ++ text ++ back).toList = '(' :: more :=
    ⟨text.toList ++ back.toList, by simp⟩
  by_cases none : results = []
  · subst none
    exact opens (listSpelling params) ")"
  by_cases single : ∃ t, results = [⟨[], t⟩]
  · obtain ⟨t, rfl⟩ := single
    rw [spelling_single, String.append_assoc]
    exact opens _ _
  · rw [spelling_several params none fun t same => single ⟨t, same⟩, String.append_assoc]
    exact opens _ _

theorem Spells.func {s : Signature} {tokens : List Token} (spells : Spells s.spelling tokens) :
    Spells (TypeExpr.func s).spelling (.word "func" :: tokens) := by
  obtain ⟨more, shape⟩ := s.opens_spelling
  change Spells ("func" ++ s.spelling) _
  refine Spells.behind false [.word "func"] (fun owed rest => ?_) spells
  refine keyword_flows rfl rfl owed ?_
  rw [shape]
  exact boundary_cons (by decide)

theorem Spells.method {name : String} {s : Signature} (line : Nat)
    (identifier : isIdentifier name = true) {tokens : List Token}
    (spells : Spells s.spelling tokens) :
    Spells (Element.spelling (.method name s line)) (.word name :: tokens) := by
  obtain ⟨word, free⟩ := (isIdentifier_iff name).mp identifier
  obtain ⟨more, shape⟩ := s.opens_spelling
  change Spells (name ++ s.spelling) _
  refine Spells.behind true [.word name] (fun owed rest => ?_) spells
  refine Spells.word word free owed _ ?_
  rw [shape]
  exact boundary_cons (by decide)

/- Interfaces and structs -/

theorem tag_spells {text : String} {tokens : List Token} (spells : Spells text tokens)
    {tag : String} (literal : isStringLiteral tag = true) :
    Spells (text ++ " " ++ tag) (tokens ++ [.string tag]) := by
  intro owed rest boundary
  rw [String.append_assoc, String.toList_append, String.toList_append]
  refine (spells owed _ (boundary_cons (by decide))).append ?_
  exact (Flows.space true _).append (isStringLiteral_flows literal true rest)

theorem Spells.member {names : List String} {t : TypeExpr} {tag : Option String}
    {tokens : List Token} (identifiers : names.all isIdentifier = true)
    (spells : Spells t.spelling tokens) (literal : tag.all isStringLiteral = true) :
    Spells (Member.spelling ⟨names, t, tag⟩)
      (parted .comma (names.map fun name => [.word name]) ++ tokens
        ++ (tag.map Token.string).toList) := by
  have line := withNames_spells identifiers spells
  cases tag with
  | none =>
    rw [Option.map_none, Option.toList_none, List.append_nil]
    exact line
  | some tag => exact tag_spells line literal

theorem block_spells {w : String} (keyword : isKeyword w = true)
    (goesOn : (Token.word w).endsStatement = false) {texts : List String}
    {runs : List (List Token)} (some : texts ≠ []) (all : List.Forall₂ Spells texts runs) :
    Spells (w ++ "\x7b " ++ joined "; " texts ++ " \x7d")
      (.word w :: .openBrace :: (parted .semicolon runs ++ [.closeBrace])) := by
  have opens : "\x7b " = "\x7b" ++ " " := rfl
  have closes : " \x7d" = " " ++ "\x7d" := rfl
  intro owed rest _
  rw [opens, closes]
  simp only [String.append_assoc]
  refine (keyword_flows keyword goesOn owed (boundary_text (by decide))).cons_text ?_
  refine (Flows.mark (t := .openBrace) rfl false _).cons_text (.space_text ?_)
  refine (Spells.joined separates_semicolon some all false _ ?_).append_text ?_
  · exact boundary_text (by decide)
  · exact .space_text (.mark (t := .closeBrace) rfl true rest)

theorem emptyBlock_spells {w : String} (keyword : isKeyword w = true)
    (goesOn : (Token.word w).endsStatement = false) :
    Spells (w ++ "\x7b\x7d") [.word w, .openBrace, .closeBrace] := by
  have braces : "\x7b\x7d" = "\x7b" ++ "\x7d" := rfl
  intro owed rest _
  rw [braces]
  refine (keyword_flows keyword goesOn owed (boundary_text (by decide))).cons_text ?_
  exact (Flows.mark (t := .openBrace) rfl false _).cons_text
    (.mark (t := .closeBrace) rfl false rest)

def blockTokens (w : String) (runs : List (List Token)) : List Token :=
  .word w :: .openBrace :: (parted .semicolon runs ++ [.closeBrace])

theorem Spells.interface {elements : List Element} {runs : List (List Token)}
    (spell : List.Forall₂ Spells (elements.map Element.spelling) runs) :
    Spells (TypeExpr.interface elements).spelling (blockTokens "interface" runs) := by
  cases elements with
  | nil =>
    cases spell
    exact emptyBlock_spells (w := "interface") rfl rfl
  | cons e elements =>
    have block := block_spells (w := "interface") rfl rfl (by simp) spell
    rw [← elementSpellings_eq_map] at block
    exact block

theorem Spells.struct {members : List Member} {runs : List (List Token)}
    (spell : List.Forall₂ Spells (members.map Member.spelling) runs) :
    Spells (TypeExpr.struct members).spelling (blockTokens "struct" runs) := by
  cases members with
  | nil =>
    cases spell
    exact emptyBlock_spells (w := "struct") rfl rfl
  | cons m members =>
    have block := block_spells (w := "struct") rfl rfl (by simp) spell
    rw [← memberSpellings_eq_map] at block
    exact block

end GoSpy
