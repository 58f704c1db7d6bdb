import GoSpy.Proofs.Artifact.Lines
import Mathlib.Data.List.SplitBy
import Mathlib.Order.Bounds.Basic
/- The columns of a struct. Its fields fall into sections, each as long as it can be with no embedded
   field beside another one and no field behind a type of several lines. Within a section all types
   begin in one column and all tags in another, and both columns depend on nothing but the section.
   A line is an entry of the list of lines, and its columns count characters. -/
namespace GoSpy

open Layout

namespace Member

def nameText (field : Member) : String := joined ", " field.names

def block (depth : Nat) (field : Member) : Block := typeBlock depth field.type

/-- A section ends between two fields if one of them is embedded or the type of the first one takes
    several lines. -/
def Parted (depth : Nat) (field next : Member) : Prop :=
  field.names = [] ∨ next.names = [] ∨ 1 < (field.block depth).toLines.length

instance (depth : Nat) (field next : Member) : Decidable (field.Parted depth next) :=
  inferInstanceAs (Decidable (_ ∨ _ ∨ _))

end Member

/-- The sections of a list of fields. They go on wherever they need not end. -/
structure Sections (depth : Nat) (fields : List Member) (parts : List (List Member)) : Prop where
  whole : parts.flatten = fields
  filled : [] ∉ parts
  unbroken : ∀ part ∈ parts, part.IsChain fun field next => ¬ field.Parted depth next
  broken : parts.IsChain fun part next =>
    ∃ some some', (part.getLast some).Parted depth (next.head some')

def blanks (n : Nat) : String := String.ofList (List.replicate n ' ')

/-- The lines of a field whose type begins in one column and whose tag, if there is one, in another:
    tabs, the names, the first line of the type and the tag on one line, and behind it the other
    lines of the type. -/
structure Member.Aligned (depth types tags : Nat) (field : Member) (lines : List String) :
    Prop where
  laid : ∃ front back : String,
    lines = (front ++ (field.block depth).first ++ back) :: (field.block depth).rest ∧
    front.length = types ∧
    (field.names = [] → front = indent depth) ∧
    (field.names ≠ [] → ∃ gap, 0 < gap ∧
      front = indent depth ++ field.nameText ++ blanks gap) ∧
    (field.tag = none → back = "") ∧
    ∀ tag, field.tag = some tag → ∃ gap, 0 < gap ∧ back = blanks gap ++ tag ∧
      front.length + (field.block depth).first.length + gap = tags

structure Columns (depth : Nat) (part : List Member) (types tags : Nat) : Prop where
  /-- An embedded field is all of its section, and its type begins behind the tabs. -/
  embedded : ∀ field ∈ part, field.names = [] → part = [field] ∧ types = depth
  /-- Else types begin one blank behind the longest list of names. -/
  named : (∀ field ∈ part, field.names ≠ []) →
    ∃ width, IsGreatest {n | ∃ field ∈ part, field.nameText.length = n} width ∧
      types = depth + width + 1
  /-- Tags begin one blank behind the longest first line of a type that has a tag. -/
  tagged : (∃ field ∈ part, field.tag.isSome = true) →
    ∃ width, IsGreatest {n | ∃ field ∈ part, field.tag.isSome = true ∧
        (field.block depth).first.length = n} width ∧
      tags = types + width + 1

namespace Member

def row (depth : Nat) (field : Member) : Row := ⟨field.nameText, field.block depth, field.tag⟩

theorem nameText_isEmpty {field : Member} (spoken : "" ∉ field.names) :
    field.nameText.isEmpty = true ↔ field.names = [] := by
  rw [String.isEmpty_iff, nameText]
  constructor
  · intro empty
    cases shape : field.names with
    | nil => rfl
    | cons name others =>
      have first : name = "" := by
        rw [shape] at empty
        cases others with
        | nil => exact empty
        | cons second others =>
          rw [joined_cons _ _ (List.cons_ne_nil _ _)] at empty
          exact (String.append_eq_empty_iff.mp (String.append_eq_empty_iff.mp empty).1).1
      rw [shape, first] at spoken
      exact absurd List.mem_cons_self spoken
  · intro none
    rw [none]
    rfl

theorem row_joins {depth : Nat} {field next : Member} (spoken : "" ∉ field.names)
    (spoken' : "" ∉ next.names) :
    (field.row depth).joins (next.row depth) = true ↔ ¬ field.Parted depth next := by
  have embedded {f : Member} (spoken : "" ∉ f.names) :
      (f.row depth).isEmbedded = true ↔ f.names = [] := nameText_isEmpty spoken
  have spans : (field.row depth).spansLines = true ↔
      1 < (field.block depth).toLines.length := by
    have rows : (field.row depth).spansLines = !(field.block depth).rest.isEmpty := rfl
    rw [rows, Block.toLines]
    cases (field.block depth).rest with
    | nil => simp
    | cons => simp
  simp only [Row.joins, Bool.and_eq_true, Bool.not_eq_true', ← Bool.not_eq_true, embedded spoken,
    embedded spoken', spans, Parted, not_or]
  tauto

end Member

theorem memberRows_eq_map (depth : Nat) : memberRows depth = List.map (Member.row depth) := by
  funext fields
  induction fields with
  | nil => rfl
  | cons field rest ih =>
    obtain ⟨names, type, tag⟩ := field
    exact congrArg (List.cons _) ih

/- Sections -/

theorem sections_cons {row next : Row} {rest current : List Row} {others : List (List Row)}
    (shape : sections (next :: rest) = current :: others) :
    sections (row :: next :: rest) =
      if row.joins next then (row :: current) :: others else [row] :: current :: others := by
  unfold sections
  rw [shape]

theorem sections_apart {row : Row} {rest : List Row}
    (apart : ∀ next ∈ rest.head?, row.joins next = false) :
    sections (row :: rest) = [row] :: sections rest := by
  cases rest with
  | nil => rfl
  | cons next more =>
    have some : sections (next :: more) ≠ [] := by
      intro none
      have whole := sections_flatten (next :: more)
      rw [none] at whole
      cases whole
    obtain ⟨current, others, shape⟩ := List.exists_cons_of_ne_nil some
    rw [sections_cons shape, apart next rfl, shape]
    rfl

theorem sections_run {row : Row} {rows back : List Row}
    (unbroken : (row :: rows).IsChain fun row next => row.joins next = true)
    (broken : ∀ next ∈ back.head?,
      ((row :: rows).getLast (List.cons_ne_nil row rows)).joins next = false) :
    sections (row :: rows ++ back) = (row :: rows) :: sections back := by
  induction rows generalizing row with
  | nil => exact sections_apart broken
  | cons next rows ih =>
    obtain ⟨together, later⟩ := List.isChain_cons_cons.mp unbroken
    exact (sections_cons (ih later broken)).trans (if_pos together)

namespace Sections

variable {depth : Nat} {fields : List Member} {parts : List (List Member)}

theorem rows (division : Sections depth fields parts)
    (spoken : ∀ field ∈ fields, "" ∉ field.names) :
    sections (memberRows depth fields) = parts.map (memberRows depth) := by
  obtain ⟨rfl, filled, unbroken, broken⟩ := division
  rw [memberRows_eq_map]
  induction parts with
  | nil => rfl
  | cons part parts ih =>
    rw [List.flatten_cons] at spoken ⊢
    have inPart : ∀ field ∈ part, "" ∉ field.names := fun field member =>
      spoken field (List.mem_append_left _ member)
    have later : ∀ field ∈ parts.flatten, "" ∉ field.names := fun field member =>
      spoken field (List.mem_append_right _ member)
    have rest := ih (fun none => filled (List.mem_cons_of_mem _ none))
      (fun part member => unbroken part (List.mem_cons_of_mem _ member)) broken.tail later
    obtain ⟨field, more, rfl⟩ : ∃ field more, part = field :: more :=
      List.exists_cons_of_ne_nil fun none => filled (none ▸ List.mem_cons_self)
    have run : ((field :: more).map (Member.row depth)).IsChain
        fun row next => row.joins next = true := by
      rw [List.isChain_map]
      apply (unbroken _ List.mem_cons_self).imp_of_mem_imp
      intro first second inFront inFront'
      exact (Member.row_joins (inPart first inFront) (inPart second inFront')).mpr
    -- The first field of the next part is parted from the last one of this part.
    have ends : ∀ next ∈ (parts.flatten.map (Member.row depth)).head?,
        (((field :: more).map (Member.row depth)).getLast (by simp)).joins next = false := by
      intro next here
      cases parts with
      | nil => cases here
      | cons second parts =>
        obtain ⟨⟨some, some', parted⟩, _⟩ := List.isChain_cons_cons.mp broken
        obtain ⟨other, others, rfl⟩ := List.exists_cons_of_ne_nil some'
        obtain rfl : Member.row depth other = next := Option.some.inj here
        rw [List.getLast_map, ← Bool.not_eq_true, Member.row_joins]
        · exact not_not_intro parted
        · exact inPart _ (List.getLast_mem _)
        · exact later other (by simp)
    rw [List.map_append]
    exact (sections_run run ends).trans (congrArg (List.cons _) rest)

theorem single (division : Sections depth fields parts) {part : List Member}
    (member : part ∈ parts) : Sections depth part [part] where
  whole := by simp
  filled := by
    intro none
    exact division.filled (List.mem_singleton.mp none ▸ member)
  unbroken := by
    intro other same
    rw [List.mem_singleton.mp same]
    exact division.unbroken part member
  broken := List.isChain_singleton part

theorem exists_unique (depth : Nat) (fields : List Member) :
    ∃! parts, Sections depth fields parts := by
  let goesOn : Member → Member → Bool := fun field next => !decide (field.Parted depth next)
  have ends (field next : Member) : goesOn field next = false ↔ field.Parted depth next := by
    simp [goesOn]
  have runs (field next : Member) : goesOn field next = true ↔ ¬ field.Parted depth next := by
    simp [goesOn]
  refine ⟨fields.splitBy goesOn, ?_, ?_⟩
  · refine ⟨List.flatten_splitBy goesOn fields, List.nil_notMem_splitBy goesOn fields, ?_, ?_⟩
    · intro part member
      simpa only [runs] using List.isChain_of_mem_splitBy member
    · simpa only [ends] using List.isChain_getLast_head_splitBy goesOn fields
  · intro parts division
    rw [← division.whole]
    symm
    apply List.splitBy_flatten division.filled
    · simpa only [runs] using division.unbroken
    · simpa only [ends] using division.broken

theorem embedded_alone (division : Sections depth fields parts) {part : List Member}
    (member : part ∈ parts) {field : Member} (inPart : field ∈ part) (none : field.names = []) :
    part = [field] := by
  have unbroken := division.unbroken part member
  obtain ⟨front, back, rfl⟩ := List.append_of_mem inPart
  have noneBehind : back = [] := by
    cases back with
    | nil => rfl
    | cons next back =>
      have apart := (List.isChain_append_cons_cons.mp unbroken).2.1
      exact absurd (Or.inl none) apart
  have noneBefore : front = [] := by
    rcases List.eq_nil_or_concat front with rfl | ⟨front, last, rfl⟩
    · rfl
    · rw [List.concat_eq_append, List.append_assoc] at unbroken
      have apart := (List.isChain_append_cons_cons.mp unbroken).2.1
      exact absurd (Or.inr (Or.inl none)) apart
  rw [noneBefore, noneBehind]
  rfl

theorem lines (division : Sections depth fields parts)
    (spoken : ∀ field ∈ fields, "" ∉ field.names) :
    memberLines depth fields = parts.flatMap (memberLines depth) ∧
      ∀ part ∈ parts, memberLines depth part = sectionLines depth (memberRows depth part) := by
  have each : ∀ part ∈ parts,
      memberLines depth part = sectionLines depth (memberRows depth part) := by
    intro part member
    have inPart : ∀ field ∈ part, "" ∉ field.names := by
      intro field inPart
      apply spoken
      rw [← division.whole]
      exact List.mem_flatten_of_mem member inPart
    rw [memberLines, rowsLines, (division.single member).rows inPart]
    simp
  refine ⟨?_, each⟩
  rw [memberLines, rowsLines, division.rows spoken, List.flatMap_map]
  exact (List.flatMap_congr each).symm

end Sections

/- Columns -/

theorem widest_isGreatest {α : Type} {items : List α} (text : α → String) (some : items ≠ []) :
    IsGreatest {n | ∃ x ∈ items, (text x).length = n} (widest (items.map text)) := by
  obtain ⟨item, others, rfl⟩ := List.exists_cons_of_ne_nil some
  let lengths := (item :: others).map fun x => (text x).length
  have first : widest ((item :: others).map text) =
      (others.map fun x => (text x).length).foldl max (text item).length := by
    simp [widest, Function.comp_def]
  have greatest : lengths.max? = .some (widest ((item :: others).map text)) := by
    rw [first]
    rfl
  obtain ⟨reached, bound⟩ := List.max?_eq_some_iff.mp greatest
  constructor
  · exact List.mem_map.mp reached
  · rintro n ⟨x, member, rfl⟩
    exact bound _ (List.mem_map_of_mem member)

theorem nameWidth_isGreatest (depth : Nat) {part : List Member} (some : part ≠ []) :
    IsGreatest {n | ∃ field ∈ part, field.nameText.length = n}
      (nameWidth (memberRows depth part)) := by
  have width := widest_isGreatest Member.nameText some
  rw [memberRows_eq_map, nameWidth, List.map_map]
  exact width

theorem typeWidth_isGreatest (depth : Nat) {part : List Member}
    (some : ∃ field ∈ part, field.tag.isSome = true) :
    IsGreatest {n | ∃ field ∈ part, field.tag.isSome = true ∧
      (field.block depth).first.length = n} (typeWidth (memberRows depth part)) := by
  obtain ⟨field, member, tagged⟩ := some
  have kept : part.filter (fun field => field.tag.isSome) ≠ [] :=
    List.ne_nil_of_mem (List.mem_filter.mpr ⟨member, tagged⟩)
  have width := widest_isGreatest (fun field => (field.block depth).first) kept
  simp only [List.mem_filter, and_assoc] at width
  rw [memberRows_eq_map, typeWidth, List.filter_map, List.map_map]
  exact width

theorem padded_blank (width : Nat) (text : String) :
    padded width text ++ " " = text ++ blanks (width - text.length + 1) := by
  apply String.toList_injective
  simp [padded, blanks, List.replicate_succ']

theorem blanks_length (n : Nat) : (blanks n).length = n := by
  simp [blanks]

theorem indent_length (depth : Nat) : (indent depth).length = depth := by
  simp [indent]

namespace Member

def front (depth names : Nat) (field : Member) : String :=
  indent depth ++ if field.nameText.isEmpty then "" else padded names field.nameText ++ " "

def back (depth types : Nat) (field : Member) : String :=
  match field.tag with
  | some tag => blanks (types - (field.block depth).first.length + 1) ++ tag
  | none => ""

variable {depth names types : Nat} {field : Member}

theorem rowLines_eq : rowLines depth names types (field.row depth) =
    (field.front depth names ++ (field.block depth).first ++ field.back depth types) ::
      (field.block depth).rest := by
  obtain ⟨fieldNames, type, tag⟩ := field
  cases tag with
  | none =>
    rw [back, String.append_empty]
    rfl
  | some tag =>
    have column : padded types (typeBlock depth type).first ++ " " ++ tag =
        (typeBlock depth type).first ++
          (blanks (types - (typeBlock depth type).first.length + 1) ++ tag) := by
      rw [padded_blank, String.append_assoc]
    rw [back, String.append_assoc]
    exact congrArg (· :: _) (congrArg _ column)

theorem front_reaches (depth : Nat) (spoken : "" ∉ field.names)
    (fits : field.nameText.length ≤ names) :
    (field.front depth names).length =
        (if field.names = [] then depth else depth + names + 1) ∧
      (field.names = [] → field.front depth names = indent depth) ∧
      (field.names ≠ [] → ∃ gap, 0 < gap ∧
        field.front depth names = indent depth ++ field.nameText ++ blanks gap) := by
  have embedded := nameText_isEmpty spoken
  by_cases none : field.names = []
  · have plain : field.front depth names = indent depth := by
      rw [front, if_pos (embedded.mpr none), String.append_empty]
    rw [if_pos none, plain, indent_length]
    exact ⟨rfl, fun _ => rfl, fun some => absurd none some⟩
  · have filled : field.front depth names =
        indent depth ++ field.nameText ++ blanks (names - field.nameText.length + 1) := by
      rw [front, if_neg (mt embedded.mp none), padded_blank, String.append_assoc]
    have length : (field.front depth names).length = depth + names + 1 := by
      rw [filled, String.length_append, String.length_append, indent_length, blanks_length]
      omega
    rw [if_neg none]
    exact ⟨length, fun none' => absurd none' none, fun _ => ⟨_, Nat.succ_pos _, filled⟩⟩

theorem row_aligned (spoken : "" ∉ field.names) (namesFit : field.nameText.length ≤ names)
    (typeFits : field.tag.isSome = true → (field.block depth).first.length ≤ types) {column : Nat}
    (reached : column = if field.names = [] then depth else depth + names + 1) :
    field.Aligned depth column (column + types + 1)
      (rowLines depth names types (field.row depth)) := by
  obtain ⟨reaches, plain, named⟩ := front_reaches depth spoken namesFit
  rw [← reached] at reaches
  refine ⟨_, _, rowLines_eq, reaches, plain, named, ?_, ?_⟩
  · intro none
    rw [back, none]
  · intro tag some
    have room := typeFits (some ▸ rfl)
    refine ⟨types - (field.block depth).first.length + 1, Nat.succ_pos _, ?_, ?_⟩
    · rw [back, some]
    · omega

end Member

namespace Sections

variable {depth : Nat} {fields : List Member} {parts : List (List Member)}

theorem widths (division : Sections depth fields parts) {part : List Member}
    (member : part ∈ parts) :
    ∃ column, (∀ field ∈ part, column =
        if field.names = [] then depth else depth + nameWidth (memberRows depth part) + 1) ∧
      Columns depth part column (column + typeWidth (memberRows depth part) + 1) := by
  by_cases embedded : ∃ field ∈ part, field.names = []
  · obtain ⟨field, inPart, none⟩ := embedded
    have alone := division.embedded_alone member inPart none
    refine ⟨depth, ?_, ?_, ?_, fun some => ⟨_, typeWidth_isGreatest depth some, rfl⟩⟩
    · intro other inPart'
      obtain rfl := List.mem_singleton.mp (alone ▸ inPart')
      rw [if_pos none]
    · intro other inPart' none'
      exact ⟨division.embedded_alone member inPart' none', rfl⟩
    · intro named
      exact absurd none (named field inPart)
  · push Not at embedded
    have some : part ≠ [] := fun none => division.filled (none ▸ member)
    refine ⟨depth + nameWidth (memberRows depth part) + 1, ?_, ?_, ?_,
      fun some => ⟨_, typeWidth_isGreatest depth some, rfl⟩⟩
    · intro field inPart
      rw [if_neg (embedded field inPart)]
    · intro field inPart none
      exact absurd none (embedded field inPart)
    · intro _
      exact ⟨_, nameWidth_isGreatest depth some, rfl⟩

theorem columns (division : Sections depth fields parts)
    (spoken : ∀ field ∈ fields, "" ∉ field.names) {part : List Member} (member : part ∈ parts) :
    ∃ types tags lines, Columns depth part types tags ∧
      List.Forall₂ (Member.Aligned depth types tags) part lines ∧
      memberLines depth part = lines.flatten := by
  obtain ⟨column, reached, columns⟩ := division.widths member
  have some : part ≠ [] := fun none => division.filled (none ▸ member)
  have each : ∀ field ∈ part, field.Aligned depth column
      (column + typeWidth (memberRows depth part) + 1)
      (rowLines depth (nameWidth (memberRows depth part)) (typeWidth (memberRows depth part))
        (field.row depth)) := by
    intro field inPart
    have inFields : field ∈ fields := by
      rw [← division.whole]
      exact List.mem_flatten.mpr ⟨part, member, inPart⟩
    apply Member.row_aligned (spoken field inFields) _ _ (reached field inPart)
    · exact (nameWidth_isGreatest depth some).2 ⟨field, inPart, rfl⟩
    · intro tagged
      exact (typeWidth_isGreatest depth ⟨field, inPart, tagged⟩).2 ⟨field, inPart, tagged, rfl⟩
  have laid := (division.lines spoken).2 part member
  rw [sectionLines] at laid
  generalize nameWidth (memberRows depth part) = names at each laid
  generalize typeWidth (memberRows depth part) = types at each laid columns
  rw [memberRows_eq_map, List.flatMap_map, List.flatMap_def] at laid
  exact ⟨column, column + types + 1, _, columns,
    List.forall₂_map_right_iff.mpr (List.forall₂_same.mpr each), laid⟩

end Sections

/-- Fields fall into sections in one way. Each section is laid out as it would be by itself, field by
    field, with its types in one column and its tags in another. -/
theorem memberLines_in_columns (depth : Nat) (fields : List Member)
    (spoken : ∀ field ∈ fields, "" ∉ field.names) :
    (∃! parts, Sections depth fields parts) ∧
    ∀ parts, Sections depth fields parts →
      memberLines depth fields = parts.flatMap (memberLines depth) ∧
      ∀ part ∈ parts, ∃ types tags lines, Columns depth part types tags ∧
        List.Forall₂ (Member.Aligned depth types tags) part lines ∧
        memberLines depth part = lines.flatten := by
  refine ⟨Sections.exists_unique depth fields, ?_⟩
  intro parts division
  refine ⟨(division.lines spoken).1, ?_⟩
  intro part member
  exact division.columns spoken member

def drawers : List (List Member) :=
  [[⟨["größe", "n"], .name "int", some "`a`"⟩, ⟨["id"], .slice (.name "byte"), some "`b`"⟩,
    ⟨["inner"], .struct [⟨["x", "yz"], .name "int", none⟩, ⟨["w"], .name "T", none⟩], none⟩],
   [⟨["more"], .map (.name "string") (.name "T"), none⟩],
   [⟨[], .pointer (.qualified "sync" "Mutex"), some "`c`"⟩],
   [⟨["last"], .interface [.embedded (.name "error")], some "`d`"⟩]]

theorem drawers_in_columns :
    (∀ field ∈ drawers.flatten, "" ∉ field.names) ∧ Sections 1 drawers.flatten drawers ∧
      memberLines 1 drawers.flatten =
        ["\tgröße, n int    `a`", "\tid       []byte `b`", "\tinner    struct \x7b",
          "\t\tx, yz int", "\t\tw     T", "\t\x7d", "\tmore map[string]T", "\t*sync.Mutex `c`",
          "\tlast interface \x7b `d`", "\t\terror", "\t\x7d"] ∧
      memberLines 1 drawers.flatten = drawers.flatMap (memberLines 1) ∧
      ∀ part ∈ drawers, ∃ types tags lines, Columns 1 part types tags ∧
        List.Forall₂ (Member.Aligned 1 types tags) part lines ∧
        memberLines 1 part = lines.flatten := by
  have spoken : ∀ field ∈ drawers.flatten, "" ∉ field.names := by decide
  have division : Sections 1 drawers.flatten drawers := by
    refine ⟨rfl, by simp [drawers], by decide +kernel, ?_⟩
    simp only [drawers, List.isChain_cons_cons, List.isChain_singleton, and_true]
    exact ⟨⟨by simp, by simp, by decide⟩, ⟨by simp, by simp, by decide⟩, by simp, by simp,
      by decide⟩
  have laid := (memberLines_in_columns 1 drawers.flatten spoken).2 drawers division
  exact ⟨spoken, division, by decide +kernel, laid⟩

end GoSpy
