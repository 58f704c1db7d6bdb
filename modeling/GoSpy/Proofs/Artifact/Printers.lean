import GoSpy.Proofs.Artifact.Lines
import GoSpy.Proofs.Grammar.RoundTrip
import GoSpy.Proofs.Syntax.Trimmed
/- A type on one line and the same type on lines of its own. The semicolons in front of closing
   braces aside, both give the same tokens, unless a tag belongs to a field whose type takes several
   lines: on one line the tag stands behind the type, laid out it stands on the type's first line.
   Each such tag ends a line and so gives one more semicolon. -/
namespace GoSpy

open Scan Layout
open Reader (Starts)

mutual

/-- How many tags stand on the first line of a type that takes several, where the type is laid
    out. -/
def TypeExpr.displacedTags : TypeExpr → Nat
  | .struct members => membersDisplacedTags members
  | _ => 0

def membersDisplacedTags : List Member → Nat
  | [] => 0
  | ⟨_, type, tag⟩ :: rest =>
    type.displacedTags + (if tag.isSome && type.spansLines then 1 else 0)
      + membersDisplacedTags rest

end

mutual

theorem TypeExpr.displacedTags_eq_zero : ∀ t : TypeExpr,
    t.displacedTags = 0 ↔ t.tagsFit = true
  | .struct members => membersDisplacedTags_eq_zero members
  | .name _ | .qualified .. | .generic .. | .pointer _ | .slice _ | .array .. | .map .. => by
    simp [TypeExpr.displacedTags, TypeExpr.tagsFit]
  | .chan .. | .func _ | .interface _ | .variadic _ | .paren _ | .union _ => by
    simp [TypeExpr.displacedTags, TypeExpr.tagsFit]

theorem membersDisplacedTags_eq_zero : ∀ members : List Member,
    membersDisplacedTags members = 0 ↔ membersTagsFit members = true
  | [] => by simp [membersDisplacedTags, membersTagsFit]
  | ⟨_, type, tag⟩ :: rest => by
    simp only [membersDisplacedTags, membersTagsFit, Bool.and_eq_true,
      ← type.displacedTags_eq_zero, ← membersDisplacedTags_eq_zero rest]
    cases tag with
    | none => simp
    | some => cases type.spansLines <;> simp

end

theorem TypeExpr.Written.solid {t : TypeExpr} {tokens : List Token}
    (written : TypeExpr.Written t tokens) (spells : Spells t.spelling tokens) : Solid tokens := by
  obtain ⟨first, more, shape, starts⟩ := written.starts
  constructor
  · refine ⟨first, more, shape, ?_⟩
    rintro rfl
    cases starts
  · exact spells.ends

/- Blocks -/

inductive Block.Laid : Bool → Block → List Token → Prop where
  | oneLine {text : String} {tokens : List Token} (spells : GoSpy.Spells text tokens) :
      Laid false (.oneLine text) tokens
  | braced {w : String} (keyword : isKeyword w = true)
      (goesOn : (Token.word w).endsStatement = false) (depth : Nat) {lines : List String}
      {body : List Token} (starts : Starts .closeBrace body) (inner : Lined lines body) :
      Laid true ⟨w ++ " \x7b", lines ++ [indent depth ++ "\x7d"]⟩
        (.word w :: .openBrace :: (body ++ [.closeBrace]))

theorem Block.Laid.spells {spans : Bool} {b : Block} {tokens : List Token}
    (laid : b.Laid spans tokens) : b.Spells tokens := by
  cases laid with
  | oneLine spells => exact .oneLine spells
  | braced keyword goesOn depth _ inner => exact .braced keyword goesOn depth inner

theorem Block.Laid.joined {spans : Bool} {b : Block} {tokens : List Token}
    (laid : b.Laid spans tokens) (rest : List Char) (boundary : Boundary rest) :
    Flows false (GoSpy.joined "\n" b.toLines).toList tokens true rest := by
  cases laid with
  | oneLine spells => exact spells false rest boundary
  | @braced w keyword goesOn depth lines body _ inner =>
    have opening : Lined [w ++ " \x7b"] ([.word w, .openBrace] ++ due false) :=
      Lined.single false fun rest => opening_flows keyword goesOn false _
    rw [toLines, ← List.cons_append, joined_newline]
    exact ((opening.append inner) _).append_text (closing_flows depth false rest)

theorem rowLines_tagged (depth names types : Nat) {row : Row} {tag : String}
    (tagged : row.tag = some tag) :
    rowLines depth names types row =
      [indent depth ++ (if row.isEmbedded then "" else padded names row.names ++ " ")
        ++ (padded types row.type.first ++ " " ++ tag)] ++ row.type.rest := by
  rw [rowLines, tagged]
  rfl

theorem row_displaced {names : List String} {w tag : String}
    (identifiers : names.all isIdentifier = true) (literal : isStringLiteral tag = true)
    (keyword : isKeyword w = true) (goesOn : (Token.word w).endsStatement = false) (depth : Nat)
    {lines : List String} {body : List Token} (inner : Lined lines body) :
    RowLined
      ⟨GoSpy.joined ", " names, ⟨w ++ " \x7b", lines ++ [indent depth ++ "\x7d"]⟩, some tag⟩
      (parted .comma (names.map fun name => [.word name])
        ++ .word w :: .openBrace :: .string tag :: .semicolon :: (body ++ [.closeBrace])) := by
  intro outer width types
  have shape : parted .comma (names.map fun name => [.word name])
        ++ .word w :: .openBrace :: .string tag :: .semicolon :: (body ++ [.closeBrace])
        ++ [.semicolon] =
      (parted .comma (names.map fun name => [.word name])
        ++ ([.word w, .openBrace] ++ [.string tag]) ++ due true)
        ++ (body ++ ([.closeBrace] ++ due true)) := by
    simp [due]
  rw [shape, rowLines_tagged outer width types rfl]
  apply Lined.append
  · apply Lined.single true
    intro rest
    apply (rowHead_flows outer width identifiers rfl _).append_text
    have column := column_flows (fun rest _ => opening_flows keyword goesOn (!names.isEmpty) rest)
      types (tag.toList ++ '\n' :: rest)
    exact column.append_text (isStringLiteral_flows literal false _)
  · exact inner.append (Lined.single true fun rest => closing_flows depth false _)

/- Both printers -/

def Lexemes.tokens (l : Lexemes) : List Token := (Cursor.ofLexemes l).tokens

/-- A text on one line and a block for the same type, the tokens of the block drifting by `n`. -/
def Printed (n : Nat) (spans : Bool) (text : String) (b : Block) : Prop :=
  ∃ shown laid, Spells text shown ∧ b.Laid spans laid ∧ Drift n shown laid

theorem Member.printed {names : List String} {t : TypeExpr} {tag : Option String} {b : Block}
    {n : Nat} (identifiers : names.all isIdentifier = true)
    (literal : tag.all isStringLiteral = true)
    (printed : Printed n t.spansLines t.spelling b) :
    ∃ shown laid, Spells (Member.spelling ⟨names, t, tag⟩) shown ∧
      RowLined ⟨joined ", " names, b, tag⟩ laid ∧
      Drift (n + if tag.isSome && t.spansLines then 1 else 0) shown laid := by
  obtain ⟨shown, laid, spells, lays, drift⟩ := printed
  have onOneLine := Spells.member identifiers spells literal
  cases tag with
  | none =>
    rw [Option.map_none, Option.toList_none, List.append_nil] at onOneLine
    exact ⟨_, _, onOneLine, row_plain identifiers lays.spells, drift.names names⟩
  | some tag =>
    rw [Option.map_some, Option.toList_some, List.append_assoc] at onOneLine
    generalize t.spansLines = spans at lays ⊢
    cases lays with
    | oneLine laidOut =>
      have row := row_tagged identifiers laidOut literal
      rw [List.append_assoc] at row
      exact ⟨_, _, onOneLine, row, (drift.tagged tag).names names⟩
    | braced keyword goesOn depth starts inner =>
      have row := row_displaced identifiers literal keyword goesOn depth inner
      exact ⟨_, _, onOneLine, row, (drift.displaced tag starts).names names⟩

theorem interface_printed (depth : Nat) (e : Element) (es : List Element)
    (normal : elementsNormal (e :: es) = true) :
    Printed 0 true (TypeExpr.interface (e :: es)).spelling
      (typeBlock depth (.interface (e :: es))) := by
  obtain ⟨runs, written, spell⟩ := exists_runs (elements_spelled (e :: es) normal)
  have solid : ∀ run ∈ runs, Solid run := by
    intro run member
    obtain ⟨_, _, elementWritten⟩ := exists_of_forall₂ written member
    obtain ⟨_, _, spells⟩ := exists_of_forall₂ spell member
    exact ⟨(Grammar.element_starts elementWritten).1, spells.ends⟩
  obtain ⟨run, others, rfl⟩ : ∃ run others, runs = run :: others := by
    cases written
    exact ⟨_, _, rfl⟩
  have laid : (typeBlock depth (.interface (e :: es))).Laid true
      (.word "interface" :: .openBrace :: (ended (run :: others) ++ [.closeBrace])) := by
    have starts := ended_starts (solid run List.mem_cons_self) others
    refine .braced (w := "interface") rfl rfl depth starts ?_
    rw [elementSpellings_eq_map]
    exact elementLines_lined (depth + 1) spell
  exact ⟨_, _, .interface spell, laid,
    (Drifts.refl solid).block "interface" (lines_block _) (lines_ended _)⟩

theorem printed_oneLine (depth : Nat) {t : TypeExpr} (oneLine : t.spansLines = false)
    (none : t.displacedTags = 0) (normal : t.isNormal = true) :
    Printed t.displacedTags t.spansLines t.spelling (typeBlock depth t) := by
  obtain ⟨tokens, written, spells⟩ := t.spelled normal
  rw [typeBlock_oneLine depth oneLine, oneLine, none]
  exact ⟨tokens, tokens, spells, .oneLine spells, .refl (written.solid spells)⟩

mutual

theorem TypeExpr.printed (depth : Nat) : ∀ t : TypeExpr, t.isNormal = true →
    Printed t.displacedTags t.spansLines t.spelling (typeBlock depth t)
  | .struct (⟨names, type, tag⟩ :: ms), normal => by
    obtain ⟨shown, laid, spell, rows, drifts⟩ :=
      members_printed (depth + 1) (⟨names, type, tag⟩ :: ms) normal
    obtain ⟨run, others, rfl⟩ : ∃ run others, laid = run :: others := by
      cases rows
      exact ⟨_, _, rfl⟩
    have starts := ended_starts (drifts.solid.2 run List.mem_cons_self) others
    exact ⟨_, _, .struct spell,
      .braced (w := "struct") rfl rfl depth starts (rowsLines_lined (depth + 1) rows),
      drifts.block "struct" (lines_block _) (lines_ended _)⟩
  | .interface (e :: es), normal =>
    interface_printed depth e es (Bool.and_eq_true_iff.mp normal).1
  | .struct [], normal => printed_oneLine depth rfl rfl normal
  | .interface [], normal => printed_oneLine depth rfl rfl normal
  | .name _, normal | .qualified .., normal | .generic .., normal =>
    printed_oneLine depth rfl rfl normal
  | .pointer _, normal | .slice _, normal | .array .., normal =>
    printed_oneLine depth rfl rfl normal
  | .map .., normal | .chan .., normal | .func _, normal =>
    printed_oneLine depth rfl rfl normal
  | .variadic _, normal | .paren _, normal | .union _, normal =>
    printed_oneLine depth rfl rfl normal

theorem members_printed (depth : Nat) : ∀ members : List Member, membersNormal members = true →
    ∃ shown laid, List.Forall₂ Spells (members.map Member.spelling) shown ∧
      List.Forall₂ RowLined (memberRows depth members) laid ∧
      Drifts (membersDisplacedTags members) shown laid
  | [], _ => ⟨[], [], .nil, .nil, .nil⟩
  | ⟨names, type, tag⟩ :: rest, allNormal => by
    obtain ⟨first, later⟩ := Bool.and_eq_true_iff.mp allNormal
    obtain ⟨front, literal⟩ := Bool.and_eq_true_iff.mp first
    obtain ⟨front, _⟩ := Bool.and_eq_true_iff.mp front
    obtain ⟨identifiers, normal⟩ := Bool.and_eq_true_iff.mp front
    obtain ⟨shown, laid, spell, rows, drifts⟩ := members_printed depth rest later
    obtain ⟨run, run', spells, row, drift⟩ :=
      Member.printed identifiers literal (type.printed depth normal)
    exact ⟨run :: shown, run' :: laid, .cons spells spell, .cons row rows, .cons drift drifts⟩

end

/-- On one line and on lines of its own a type in normal form gives the same tokens, the semicolons
    in front of closing braces aside, exactly if each field with a tag has its type on one line.
    Otherwise each tag that stands on another line gives one more semicolon. -/
theorem TypeExpr.printers_agree_iff (t : TypeExpr) (normal : t.isNormal = true) (depth : Nat) :
    ∃ shown laid, Lexemes.ofText t.spelling = .ok shown ∧
      Lexemes.ofText (joined "\n" (typeBlock depth t).toLines) = .ok laid ∧
      (trimmed laid.tokens).length = (trimmed shown.tokens).length + t.displacedTags ∧
      (trimmed laid.tokens = trimmed shown.tokens ↔ t.tagsFit = true) := by
  obtain ⟨tokens, tokens', spells, lays, drift⟩ := t.printed depth normal
  obtain ⟨shown, cut, shape⟩ := spells.ofText
  obtain ⟨laid, cut', shape'⟩ := (lays.joined [] (by simp [Boundary])).ofText
  have trimmedShown : trimmed shown.tokens = trimmed tokens ++ [.semicolon] := by
    rw [Lexemes.tokens, shape, trimmed_ended]
  have trimmedLaid : trimmed laid.tokens = trimmed tokens' ++ [.semicolon] := by
    rw [Lexemes.tokens, shape', trimmed_ended]
  have longer := drift.longer
  refine ⟨shown, laid, cut, cut', ?_, ?_⟩
  · rw [trimmedShown, trimmedLaid, List.length_append, List.length_append]
    omega
  · rw [trimmedShown, trimmedLaid, List.append_cancel_right_eq, ← t.displacedTags_eq_zero]
    constructor
    · intro same
      rw [same] at longer
      omega
    · exact drift.same

def cabinet : TypeExpr :=
  .struct
    [⟨["key", "old"], .map (.name "string") (.slice (.name "T")), some "`json:\"key\"`"⟩,
     ⟨[], .pointer (.generic (.qualified "sync" "Pool") [.name "T"]), some "\"pool\""⟩,
     ⟨["drawer"], .struct
       [⟨["size"], .array "len(keys[0])" (.struct [⟨["n"], .name "int", none⟩]), some "\"n\""⟩,
        ⟨["none"], .struct [], some "\"none\""⟩,
        ⟨["lock"], .interface
          [.method "Open" ⟨[⟨["by"], .name "string"⟩], [⟨[], .name "bool"⟩]⟩ 0,
           .embedded (.union [⟨true, .name "int"⟩, ⟨false, .qualified "fmt" "Stringer"⟩])],
          none⟩], none⟩]

theorem cabinet_printed :
    cabinet.isNormal = true ∧ cabinet.tagsFit = true ∧
      ∃ shown laid, Lexemes.ofText cabinet.spelling = .ok shown ∧
        Lexemes.ofText (joined "\n" (typeBlock 2 cabinet).toLines) = .ok laid ∧
        trimmed laid.tokens = trimmed shown.tokens := by
  have normal : cabinet.isNormal = true := by decide +kernel
  have fits : cabinet.tagsFit = true := by decide +kernel
  obtain ⟨shown, laid, cut, cut', _, agree⟩ := cabinet.printers_agree_iff normal 2
  exact ⟨normal, fits, shown, laid, cut, cut', agree.mpr fits⟩

def labelled : TypeExpr :=
  .struct [⟨["a"], .struct [⟨["b"], .name "int", none⟩], some "\"t\""⟩]

theorem labelled_printed_apart :
    ¬ ∀ (t : TypeExpr) (depth : Nat) (shown laid : Lexemes), t.isNormal = true →
      t.spansLines = true → Lexemes.ofText t.spelling = .ok shown →
      Lexemes.ofText (joined "\n" (typeBlock depth t).toLines) = .ok laid →
        trimmed laid.tokens = trimmed shown.tokens := by
  intro all
  have cut : Lexemes.ofText labelled.spelling =
      .ok ⟨[.word "struct", .openBrace, .word "a", .word "struct", .openBrace, .word "b",
        .word "int", .closeBrace, .string "\"t\"", .closeBrace, .semicolon].map (⟨·, 1⟩), 1⟩ := by
    decide +kernel
  have cut' : Lexemes.ofText (joined "\n" (typeBlock 0 labelled).toLines) =
      .ok ⟨[⟨.word "struct", 1⟩, ⟨.openBrace, 1⟩, ⟨.word "a", 2⟩, ⟨.word "struct", 2⟩,
        ⟨.openBrace, 2⟩, ⟨.string "\"t\"", 2⟩, ⟨.semicolon, 2⟩, ⟨.word "b", 3⟩, ⟨.word "int", 3⟩,
        ⟨.semicolon, 3⟩, ⟨.closeBrace, 4⟩, ⟨.semicolon, 4⟩, ⟨.closeBrace, 5⟩, ⟨.semicolon, 5⟩],
        5⟩ := by
    decide +kernel
  have same := all labelled 0 _ _ (by decide) rfl cut cut'
  revert same
  decide

end GoSpy
