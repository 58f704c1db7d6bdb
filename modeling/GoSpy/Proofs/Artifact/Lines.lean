import GoSpy.Proofs.Syntax.Spelled
import GoSpy.Artifact.Layout
/- Types on lines of their own. A struct or an interface over several lines gives the tokens that
   it is written with: indents and columns are gaps, and each line ends its entry. -/
namespace GoSpy

open Scan Layout

/-- Lines that give the tokens from one line start to another, with nothing owed at either. -/
def Lined (lines : List String) (tokens : List Token) : Prop :=
  ∀ rest, Flows false (unlines lines).toList tokens false rest

theorem unlines_append (front back : List String) :
    unlines (front ++ back) = unlines front ++ unlines back := by
  rw [unlines, List.map_append, String.join_append]
  rfl

theorem joined_newline (lines : List String) (last : String) :
    joined "\n" (lines ++ [last]) = unlines lines ++ last := by
  induction lines with
  | nil => simp [joined, unlines]
  | cons line lines ih =>
    have front : unlines (line :: lines) = line ++ "\n" ++ unlines lines := by simp [unlines]
    rw [List.cons_append, joined_cons _ _ (by simp), ih, front]
    simp only [String.append_assoc]

namespace Lined

theorem nil : Lined [] [] := fun rest => .nothing false rest

theorem append {front back : List String} {ts us : List Token} (first : Lined front ts)
    (second : Lined back us) : Lined (front ++ back) (ts ++ us) := by
  intro rest
  rw [unlines_append]
  exact (first _).append_text (second rest)

theorem single {line : String} {tokens : List Token} (owes : Bool)
    (flows : ∀ rest, Flows false line.toList tokens owes ('\n' :: rest)) :
    Lined [line] (tokens ++ due owes) := by
  intro rest
  have text : unlines [line] = line ++ "\n" := by simp [unlines]
  rw [text]
  exact (flows _).append_text (.newline owes rest)

theorem flatMap {α : Type} {lines : α → List String} {xs : List α} {runs : List (List Token)}
    (each : List.Forall₂ (fun x run => Lined (lines x) run) xs runs) :
    Lined (xs.flatMap lines) runs.flatten := by
  induction each with
  | nil => exact nil
  | cons first _ ih => exact first.append ih

end Lined

theorem repeated_flows {c : Char} (one : ∀ owed rest, Flows owed [c] [] owed rest) (n : Nat)
    (owed : Bool) (rest : List Char) :
    Flows owed (String.ofList (List.replicate n c)).toList [] owed rest := by
  rw [String.toList_ofList]
  induction n with
  | zero => exact .nothing owed rest
  | succ n ih => exact (one owed _).append ih

theorem indent_flows (depth : Nat) (owed : Bool) (rest : List Char) :
    Flows owed (indent depth).toList [] owed rest :=
  repeated_flows Flows.tab depth owed rest

theorem boundary_spaces (n : Nat) (rest : List Char) :
    Boundary ((String.ofList (List.replicate n ' ') ++ " ").toList ++ rest) := by
  have ends : Text.continuesName ' ' = false := by decide
  rw [String.toList_append, String.toList_ofList]
  cases n with
  | zero => exact boundary_cons ends
  | succ n => exact boundary_cons ends

theorem column_flows {text : String} {tokens : List Token} {owed owes : Bool}
    (flows : ∀ rest, Boundary rest → Flows owed text.toList tokens owes rest) (width : Nat)
    (rest : List Char) : Flows owed (padded width text ++ " ").toList tokens owes rest := by
  have gap : Flows owes (String.ofList (List.replicate (width - text.length) ' ') ++ " ").toList
      ([] ++ []) owes rest :=
    (repeated_flows Flows.space _ owes _).append_text (.space owes rest)
  rw [padded, String.append_assoc, ← List.append_nil tokens]
  exact (flows _ (boundary_spaces _ rest)).append_text gap

theorem padded_flows {text : String} {tokens : List Token} (spells : Spells text tokens)
    (width : Nat) (owed : Bool) (rest : List Char) :
    Flows owed (padded width text ++ " ").toList tokens true rest :=
  column_flows (spells owed) width rest

/- Types over several lines -/

def Block.Spells (b : Block) (tokens : List Token) : Prop :=
  ∀ (front : String) (ts : List Token) (owes : Bool),
    (∀ rest, Flows false front.toList ts owes (b.first.toList ++ rest)) →
      Lined (b.behind front).toLines (ts ++ tokens ++ [.semicolon])

theorem Block.Spells.oneLine {text : String} {tokens : List Token}
    (spells : GoSpy.Spells text tokens) : (Block.oneLine text).Spells tokens := by
  intro front ts owes flows
  refine Lined.single true fun rest => ?_
  exact (flows _).append_text (spells owes _ (boundary_cons (by decide)))

theorem opening_flows {w : String} (keyword : isKeyword w = true)
    (goesOn : (Token.word w).endsStatement = false) (owed : Bool) (rest : List Char) :
    Flows owed (w ++ " \x7b").toList [.word w, .openBrace] false rest := by
  have opens : " \x7b" = " " ++ "\x7b" := rfl
  rw [opens]
  refine (keyword_flows keyword goesOn owed (boundary_text (by decide))).cons_text ?_
  exact .space_text (.mark (t := .openBrace) rfl false _)

theorem closing_flows (depth : Nat) (owed : Bool) (rest : List Char) :
    Flows owed (indent depth ++ "\x7d").toList [.closeBrace] true rest :=
  (indent_flows depth owed _).append_text (.mark (t := .closeBrace) rfl owed rest)

theorem Block.Spells.braced {w : String} (keyword : isKeyword w = true)
    (goesOn : (Token.word w).endsStatement = false) (depth : Nat) {lines : List String}
    {tokens : List Token} (inner : Lined lines tokens) :
    Block.Spells ⟨w ++ " \x7b", lines ++ [indent depth ++ "\x7d"]⟩
      (.word w :: .openBrace :: (tokens ++ [.closeBrace])) := by
  intro front ts owes flows
  have opening : Lined [front ++ (w ++ " \x7b")] (ts ++ [.word w, .openBrace] ++ []) := by
    refine Lined.single false fun rest => ?_
    exact (flows _).append_text (opening_flows keyword goesOn owes _)
  have closing : Lined [indent depth ++ "\x7d"] ([.closeBrace] ++ [.semicolon]) :=
    Lined.single true fun rest => closing_flows depth false _
  have whole := opening.append (inner.append closing)
  have shape : ts ++ [.word w, .openBrace] ++ [] ++ (tokens ++ ([.closeBrace] ++ [.semicolon])) =
      ts ++ (.word w :: .openBrace :: (tokens ++ [.closeBrace])) ++ [.semicolon] := by simp
  exact shape ▸ whole

namespace TypeExpr

/-- Whether the type takes several lines where it starts a line or stands in a column. -/
def spansLines : TypeExpr → Bool
  | struct (_ :: _) | interface (_ :: _) => true
  | _ => false

end TypeExpr

mutual

def TypeExpr.tagsFit : TypeExpr → Bool
  | .struct members => membersTagsFit members
  | _ => true

def membersTagsFit : List Member → Bool
  | [] => true
  | ⟨_, type, tag⟩ :: rest =>
    (tag.isNone || !type.spansLines) && type.tagsFit && membersTagsFit rest

end

theorem typeBlock_oneLine (depth : Nat) {t : TypeExpr} (oneLine : t.spansLines = false) :
    typeBlock depth t = .oneLine t.spelling := by
  cases t with
  | struct members =>
    cases members with
    | nil => rfl
    | cons => cases oneLine
  | interface elements =>
    cases elements with
    | nil => rfl
    | cons => cases oneLine
  | _ => rfl

/- Rows -/

def RowLined (row : Row) (run : List Token) : Prop :=
  ∀ depth names types, Lined (rowLines depth names types row) (run ++ [.semicolon])

theorem joined_names_some {names : List String} (identifiers : names.all isIdentifier = true)
    (some : names ≠ []) : (joined ", " names).isEmpty = false := by
  obtain ⟨name, others, rfl⟩ := List.exists_cons_of_ne_nil some
  have first := (isIdentifier_iff name).mp (List.all_eq_true.mp identifiers name (by simp))
  obtain ⟨c, more, shape, _⟩ := (Text.isWord_iff name).mp first.1
  have nonempty : ∃ more', (joined ", " (name :: others)).toList = c :: more' := by
    cases others with
    | nil => exact ⟨more, shape⟩
    | cons second others =>
      exact ⟨_, by rw [joined_cons _ _ (by simp), String.append_assoc, String.toList_append,
        shape, List.cons_append]⟩
  obtain ⟨more', whole⟩ := nonempty
  rw [← Bool.not_eq_true, String.isEmpty_iff]
  rintro empty
  rw [empty] at whole
  cases whole

theorem rowHead_flows (depth names : Nat) {row : Row} {fieldNames : List String}
    (identifiers : fieldNames.all isIdentifier = true) (shape : row.names = joined ", " fieldNames)
    (rest : List Char) :
    Flows false
      (indent depth ++ (if row.isEmbedded then "" else padded names row.names ++ " ")).toList
      (parted .comma (fieldNames.map fun name => [.word name])) (!fieldNames.isEmpty) rest := by
  refine (indent_flows depth false _).append_text ?_
  by_cases none : fieldNames = []
  · subst none
    have embedded : row.isEmbedded = true := by simp [Row.isEmbedded, shape, joined]
    rw [if_pos embedded]
    exact .nothing false rest
  · have named : row.isEmbedded = false := by
      rw [Row.isEmbedded, shape]
      exact joined_names_some identifiers none
    have owes : (!fieldNames.isEmpty) = true := by simpa using none
    rw [named, owes, shape]
    exact padded_flows (.joined separates_comma none (names_spell identifiers)) names false rest

theorem row_plain {names : List String} {b : Block} {tokens : List Token}
    (identifiers : names.all isIdentifier = true) (spells : b.Spells tokens) :
    RowLined ⟨joined ", " names, b, none⟩
      (parted .comma (names.map fun name => [.word name]) ++ tokens) := by
  intro depth width types
  exact spells _ _ _ fun rest => rowHead_flows depth width identifiers rfl _

theorem row_tagged {names : List String} {text tag : String} {tokens : List Token}
    (identifiers : names.all isIdentifier = true) (spells : Spells text tokens)
    (literal : isStringLiteral tag = true) :
    RowLined ⟨joined ", " names, .oneLine text, some tag⟩
      (parted .comma (names.map fun name => [.word name]) ++ tokens ++ [.string tag]) := by
  intro depth width types
  refine Lined.single true fun rest => ?_
  rw [List.append_assoc]
  refine (rowHead_flows depth width identifiers rfl _).append_text ?_
  exact (padded_flows spells types _ _).append_text (isStringLiteral_flows literal true _)

theorem sections_flatten (rows : List Row) : (sections rows).flatten = rows := by
  induction rows with
  | nil => rfl
  | cons row rest ih =>
    unfold sections
    split
    · rename_i next others current sections' same
      rw [same] at ih
      split <;> exact congrArg (row :: ·) ih
    · exact congrArg (row :: ·) ih

theorem rows_lined (depth names types : Nat) {rows : List Row} {runs : List (List Token)}
    (each : List.Forall₂ RowLined rows runs) :
    Lined (rows.flatMap (rowLines depth names types)) (ended runs) := by
  refine .flatMap (List.forall₂_map_right_iff.mpr ?_)
  exact each.imp fun row run lined => lined depth names types

theorem rowsLines_lined (depth : Nat) {rows : List Row} {runs : List (List Token)}
    (each : List.Forall₂ RowLined rows runs) :
    Lined (rowsLines depth rows) (ended runs) := by
  rw [← sections_flatten rows] at each
  rw [rowsLines]
  generalize sections rows = parts at each
  induction parts generalizing runs with
  | nil =>
    cases each
    exact .nil
  | cons part parts ih =>
    rw [List.flatten_cons] at each
    have first := List.forall₂_take_append runs _ _ each.flip
    have later := List.forall₂_drop_append runs _ _ each.flip
    rw [← List.take_append_drop part.length runs, ended_append]
    exact (rows_lined depth _ _ first.flip).append (ih later.flip)

theorem elementLines_lined (depth : Nat) {texts : List String} {runs : List (List Token)}
    (each : List.Forall₂ Spells texts runs) :
    Lined (texts.map (indent depth ++ ·)) (ended runs) := by
  rw [← List.flatMap_pure_eq_map]
  refine .flatMap (List.forall₂_map_right_iff.mpr (each.imp fun text run spells => ?_))
  refine Lined.single true fun rest => ?_
  exact (indent_flows depth false _).append_text (spells false _ (boundary_cons (by decide)))

/- All types -/

theorem oneLine_spelled (depth : Nat) {t : TypeExpr} (oneLine : t.spansLines = false)
    (normal : t.isNormal = true) :
    ∃ tokens, TypeExpr.Written t tokens ∧ (typeBlock depth t).Spells tokens := by
  obtain ⟨tokens, written, spells⟩ := t.spelled normal
  rw [typeBlock_oneLine depth oneLine]
  exact ⟨tokens, written, .oneLine spells⟩

mutual

theorem TypeExpr.block_spelled (depth : Nat) : ∀ t : TypeExpr, t.isNormal = true →
    t.tagsFit = true →
      ∃ tokens, TypeExpr.Written t tokens ∧ (typeBlock depth t).Spells tokens
  | .struct (m :: ms), normal, fit => by
    obtain ⟨runs, written, rows⟩ := members_rows (depth + 1) (m :: ms) normal fit
    exact ⟨_, .struct written (lines_ended runs),
      .braced (w := "struct") rfl rfl depth (rowsLines_lined (depth + 1) rows)⟩
  | .interface (e :: es), normal, _ => by
    obtain ⟨all, distinct⟩ := Bool.and_eq_true_iff.mp normal
    obtain ⟨runs, written, spell⟩ := exists_runs (elements_spelled (e :: es) all)
    refine ⟨_, .interface (of_decide_eq_true distinct) written (lines_ended runs),
      .braced (w := "interface") rfl rfl depth ?_⟩
    rw [elementSpellings_eq_map]
    exact elementLines_lined (depth + 1) spell
  | .struct [], normal, _ => oneLine_spelled depth rfl normal
  | .interface [], normal, _ => oneLine_spelled depth rfl normal
  | .name _, normal, _ | .qualified .., normal, _ | .generic .., normal, _ =>
    oneLine_spelled depth rfl normal
  | .pointer _, normal, _ | .slice _, normal, _ | .array .., normal, _ =>
    oneLine_spelled depth rfl normal
  | .map .., normal, _ | .chan .., normal, _ | .func _, normal, _ =>
    oneLine_spelled depth rfl normal
  | .variadic _, normal, _ | .paren _, normal, _ | .union _, normal, _ =>
    oneLine_spelled depth rfl normal

theorem members_rows (depth : Nat) : ∀ members : List Member, membersNormal members = true →
    membersTagsFit members = true →
      ∃ runs, List.Forall₂ Member.Written members runs ∧
        List.Forall₂ RowLined (memberRows depth members) runs
  | [], _, _ => ⟨[], .nil, .nil⟩
  | ⟨names, type, tag⟩ :: rest, allNormal, fit => by
    obtain ⟨first, later⟩ := Bool.and_eq_true_iff.mp allNormal
    obtain ⟨front, literal⟩ := Bool.and_eq_true_iff.mp first
    obtain ⟨front, embeds⟩ := Bool.and_eq_true_iff.mp front
    obtain ⟨identifiers, normal⟩ := Bool.and_eq_true_iff.mp front
    obtain ⟨here, fitLater⟩ := Bool.and_eq_true_iff.mp fit
    obtain ⟨tagFits, fitType⟩ := Bool.and_eq_true_iff.mp here
    obtain ⟨runs, written, rows⟩ := members_rows depth rest later fitLater
    cases tag with
    | none =>
      obtain ⟨tokens, typeWritten, spells⟩ := type.block_spelled depth normal fitType
      refine ⟨_ :: runs, .cons (.of_parts none identifiers embeds typeWritten) written,
        .cons ?_ rows⟩
      rw [Option.map_none, Option.toList_none, List.append_nil]
      exact row_plain identifiers spells
    | some tag =>
      obtain ⟨tokens, typeWritten, spells⟩ := type.spelled normal
      refine ⟨_ :: runs, .cons (.of_parts (some tag) identifiers embeds typeWritten) written,
        .cons ?_ rows⟩
      have oneLine : type.spansLines = false := by simpa using tagFits
      rw [typeBlock_oneLine depth oneLine]
      exact row_tagged identifiers spells literal

end

end GoSpy
