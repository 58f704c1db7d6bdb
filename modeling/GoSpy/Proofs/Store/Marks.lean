import GoSpy.Proofs.Store.Grouping
import GoSpy.Proofs.Token.LineNumbers
import GoSpy.Proofs.Grammar.Inversion
/- Where the mark of generated code is sought: on the lines in front of the first that begins with
   `package`. The clause that names the package is behind white space, comments and semicolons, so
   its line is another one if something stands in front of it there, or if a block comment has a line
   that begins with the word. -/
namespace GoSpy

namespace Text

theorem part_beside_mark {mark : Char} {before inside behind front rest : List Char}
    (clear : mark ∉ inside) (some : inside ≠ [])
    (whole : before ++ (inside ++ behind) = front ++ mark :: rest) :
    (∃ more, front = before ++ (inside ++ more) ∧ behind = more ++ mark :: rest) ∨
      ∃ more, before = front ++ mark :: more ∧ rest = more ++ (inside ++ behind) := by
  rcases List.append_eq_append_iff.mp whole with ⟨more, rfl, same⟩ | ⟨more, rfl, same⟩
  · rcases List.append_eq_append_iff.mp same with ⟨tail, rfl, rfl⟩ | ⟨tail, rfl, later⟩
    · exact Or.inl ⟨tail, rfl, rfl⟩
    · cases tail with
      | nil => exact Or.inl ⟨[], by simp, by simpa using later.symm⟩
      | cons first tail =>
        obtain ⟨rfl, -⟩ := List.cons.inj later
        simp at clear
  · cases more with
    | nil =>
      obtain ⟨first, inside, rfl⟩ := List.exists_cons_of_ne_nil some
      obtain ⟨rfl, -⟩ := List.cons.inj same
      simp at clear
    | cons first more =>
      obtain ⟨rfl, rfl⟩ := List.cons.inj same
      exact Or.inr ⟨more, rfl, rfl⟩

theorem cutAt_append (mark : Char) (front : List Char) :
    ∃ lines left, cutAt mark front = lines ++ [left] ∧ left <:+ front ∧
      lines.length = front.count mark ∧
        ∀ rest first more, cutAt mark rest = first :: more →
          cutAt mark (front ++ rest) = lines ++ (left ++ first) :: more := by
  induction front with
  | nil => exact ⟨[], [], rfl, List.suffix_rfl, rfl, fun rest first more cut => cut⟩
  | cons c front ih =>
    obtain ⟨lines, left, cut, ends, count, behind⟩ := ih
    by_cases same : c = mark
    · subst same
      refine ⟨[] :: lines, left, by simp [cutAt, cut], ends.trans (List.suffix_cons c front), ?_, ?_⟩
      · simp [count]
      · intro rest first more cut
        simp [cutAt, behind rest first more cut]
    · cases lines with
      | nil =>
        obtain rfl : front = left := cutAt_single cut
        refine ⟨[], c :: front, by simp [cutAt, same, cut], List.suffix_rfl, ?_, ?_⟩
        · simpa [List.count_cons_of_ne same] using count
        · intro rest first more cut
          simp [cutAt, same, behind rest first more cut]
      | cons line lines =>
        refine ⟨(c :: line) :: lines, left, by simp [cutAt, same, cut],
          ends.trans (List.suffix_cons c front), ?_, ?_⟩
        · simpa [List.count_cons_of_ne same] using count
        · intro rest first more cut
          simp [cutAt, same, behind rest first more cut]

theorem cutAt_unmarked_append {mark : Char} {front rest first : List Char}
    {more : List (List Char)} (clear : mark ∉ front) (cut : cutAt mark rest = first :: more) :
    cutAt mark (front ++ rest) = (front ++ first) :: more := by
  induction front with
  | nil => exact cut
  | cons c front ih =>
    simp only [List.mem_cons, not_or] at clear
    simp [cutAt, Ne.symm clear.1, ih clear.2]

theorem cutAt_parts {mark : Char} {text first : List Char} {parts : List (List Char)}
    (cut : cutAt mark text = first :: parts) :
    first <+: text ∧ ∀ part ∈ parts, mark :: part <:+: text := by
  induction text generalizing first parts with
  | nil =>
    obtain ⟨rfl, rfl⟩ := List.cons.inj cut
    exact ⟨List.prefix_rfl, by simp⟩
  | cons c rest ih =>
    obtain ⟨next, more, cutRest⟩ := List.exists_cons_of_ne_nil (cutAt_ne_nil mark rest)
    obtain ⟨front, behind⟩ := ih cutRest
    have later : ∀ part ∈ more, mark :: part <:+: c :: rest := fun part member =>
      List.infix_cons (behind part member)
    by_cases same : c = mark
    · subst same
      simp only [cutAt, if_true, cutRest] at cut
      obtain ⟨rfl, rfl⟩ := List.cons.inj cut
      refine ⟨List.nil_prefix, fun part member => ?_⟩
      rcases List.mem_cons.mp member with rfl | member
      · exact (List.cons_prefix_cons.mpr ⟨rfl, front⟩).isInfix
      · exact later part member
    · simp only [cutAt, if_neg same, cutRest] at cut
      obtain ⟨rfl, rfl⟩ := List.cons.inj cut
      exact ⟨List.cons_prefix_cons.mpr ⟨rfl, front⟩, later⟩

def Commented (before inside behind : List Char) : Prop :=
  ∃ front body rest after, before = front ++ '/' :: '*' :: body ∧
    behind = rest ++ '*' :: '/' :: after ∧ ¬ ['*', '/'] <:+: body ++ (inside ++ rest)

theorem Commented.extend {before inside behind : List Char}
    (commented : Commented before inside behind) (front after : List Char) :
    Commented (front ++ before) inside (behind ++ after) := by
  obtain ⟨opened, body, rest, closed, rfl, rfl, free⟩ := commented
  exact ⟨front ++ opened, body, rest, closed ++ after, by simp, by simp, free⟩

end Text

def clauseLine : List Char := '\n' :: "package".toList

theorem Gap.head {last : Bool} {c : Char} {rest : List Char} (fits : Gap last (c :: rest)) :
    Text.isBlank c = true ∨ c = '/' := by
  cases fits with
  | blank isBlank => exact Or.inl isBlank
  | lineComment | lastComment | blockComment => exact Or.inr rfl

theorem Gap.clauseLine_commented {last : Bool} {gap before behind : List Char}
    (fits : Gap last gap) (whole : before ++ (clauseLine ++ behind) = gap) :
    Text.Commented before clauseLine behind := by
  have slash : '/' ∉ clauseLine := by decide
  have star : '*' ∉ clauseLine := by decide
  have some : clauseLine ≠ [] := by decide
  induction fits generalizing before with
  | nothing => simp [clauseLine] at whole
  | @blank c rest isBlank later ih =>
    cases before with
    | cons first before =>
      obtain ⟨rfl, inRest⟩ := List.cons.inj whole
      simpa using (ih inRest).extend [first] []
    | nil =>
      obtain ⟨rfl, rfl⟩ := List.cons.inj whole
      exact absurd later.head (by decide)
  | @lineComment body rest oneLine later ih =>
    -- The comment has no line end, so the one of `clauseLine` ends the comment or is further on.
    have apart : '\n' ∉ '/' :: '/' :: body := by simpa using oneLine
    have comment : [] ++ ('/' :: '/' :: body ++ '\n' :: rest) =
        before ++ '\n' :: ("package".toList ++ behind) := whole.symm
    rcases Text.part_beside_mark apart (List.cons_ne_nil _ _) comment with
      ⟨more, rfl, inRest⟩ | ⟨_, none, -⟩
    · simpa using (ih inRest.symm).extend ('/' :: '/' :: body) []
    · simp at none
  | @lastComment body oneLine =>
    have member : '\n' ∈ '/' :: '/' :: body := by
      rw [← whole]
      simp [clauseLine]
    simp [oneLine] at member
  | @blockComment body rest inside later ih =>
    have ends : before ++ (clauseLine ++ behind) = ('/' :: '*' :: body) ++ '*' :: '/' :: rest := whole
    rcases Text.part_beside_mark star some ends with ⟨more, comment, rfl⟩ | ⟨more, rfl, inRest⟩
    · have opens : before ++ (clauseLine ++ more) = ['/'] ++ '*' :: body := comment.symm
      rcases Text.part_beside_mark star some opens with ⟨_, short, -⟩ | ⟨body', rfl, rfl⟩
      · have member : '\n' ∈ ['/'] := by
          rw [short]
          simp [clauseLine]
        exact absurd member (by decide)
      · exact ⟨[], body', more, rest, rfl, rfl, inside⟩
    · have closes : more ++ (clauseLine ++ behind) = [] ++ '/' :: rest := inRest.symm
      rcases Text.part_beside_mark slash some closes with ⟨_, none, -⟩ | ⟨more', rfl, inLater⟩
      · simp [clauseLine] at none
      · simpa using (ih inLater.symm).extend ('/' :: '*' :: body ++ ['*', '/']) []

theorem Stretch.clauseLine_commented {stretches : List Stretch}
    (semicolons : ∀ y ∈ stretches, y.token = .semicolon ∧ ∃ last, Gap last y.gap)
    {front before behind : List Char} (fits : ∃ last, Gap last front)
    (whole : before ++ (clauseLine ++ behind) = front ++ stretches.flatMap Stretch.text) :
    Text.Commented before clauseLine behind := by
  induction stretches generalizing front before with
  | nil =>
    obtain ⟨last, fits⟩ := fits
    exact fits.clauseLine_commented (by simpa using whole)
  | cons y rest ih =>
    obtain ⟨⟨token, gap⟩, later⟩ := List.forall_mem_cons.mp semicolons
    have parts : before ++ (clauseLine ++ behind) =
        front ++ ';' :: (y.gap ++ rest.flatMap Stretch.text) := by
      rw [whole, List.flatMap_cons, Stretch.text, token]
      rfl
    rcases Text.part_beside_mark (by decide) (by decide) parts with
      ⟨more, rfl, rfl⟩ | ⟨more, rfl, inRest⟩
    · obtain ⟨last, fits⟩ := fits
      simpa using (fits.clauseLine_commented rfl).extend [] (';' :: (y.gap ++ rest.flatMap Stretch.text))
    · simpa using (ih later gap inRest.symm).extend (front ++ [';']) []

namespace Numbered

theorem behind_semicolons {line : List Stretch → Nat} {before stretches : List Stretch}
    {items : List Lexeme} {x : Lexeme} (numbered : Numbered line before stretches items)
    (first : (Cursor.dropSemicolons items).head? = some x) :
    ∃ earlier gap later, stretches = earlier ++ ⟨x.token, gap⟩ :: later ∧
      (∀ y ∈ earlier, y.token = .semicolon) ∧ x.line = line (before ++ earlier) := by
  induction numbered with
  | done => cases first
  | @token before rest y due items paid _ ih =>
    by_cases semicolon : y.token = .semicolon
    · obtain rfl : due = [] := by
        rw [semicolon] at paid
        exact List.map_eq_nil_iff.mp paid
      rw [Cursor.dropSemicolons, if_pos semicolon] at first
      obtain ⟨earlier, gap, later, rfl, semicolons, here⟩ := ih first
      exact ⟨y :: earlier, gap, later, rfl, List.forall_mem_cons.mpr ⟨semicolon, semicolons⟩,
        by simpa using here⟩
    · rw [Cursor.dropSemicolons, if_neg semicolon] at first
      obtain rfl := Option.some.inj first
      exact ⟨[], y.gap, rest, rfl, by simp, by simp⟩

end Numbered

/-- The keyword of the package clause of a text: `x`, with only semicolons in front of it, on the
    line that it has in the text. -/
structure Splitting.Clause (s : Splitting) (earlier : List Stretch) (x : Lexeme) : Prop where
  keyword : x.token = .word "package"
  here : ∃ gap later, s.stretches = earlier ++ ⟨x.token, gap⟩ :: later
  semicolons : ∀ y ∈ earlier, y.token = .semicolon
  line : x.line = s.line earlier

theorem Grammar.sourceFile_clause {path : String} {s next : Cursor} {file : SourceFile}
    (run : Grammar.sourceFile path s = .ok (file, next)) :
    ∃ x, (Cursor.dropSemicolons s.rest).head? = some x ∧ x.token = .word "package" := by
  unfold Grammar.sourceFile at run
  obtain ⟨_, package, -⟩ := bind_eq_ok.mp run
  exact Option.map_eq_some_iff.mp (Cursor.expect_eq_ok package).1

theorem SourceFile.ofText_clause {path text : String} {file : SourceFile}
    (accepted : SourceFile.ofText path text = .ok file) :
    ∃ l s earlier x, Lexemes.ofText text = .ok l ∧
      (Cursor.dropSemicolons l.items).head? = some x ∧ Splitting.ofText text = .ok s ∧ s.Valid ∧
        s.text = text.toList ∧ s.Clause earlier x := by
  obtain ⟨l, scanned, read⟩ := bind_eq_ok.mp (mapError_eq_ok.mp accepted)
  obtain ⟨⟨_, next⟩, read, -⟩ := map_eq_ok.mp read
  obtain ⟨x, first, keyword⟩ := Grammar.sourceFile_clause read
  obtain ⟨s, split, valid, whole, numbered, short, -⟩ := Lexemes.ofText_numbered scanned
  obtain ⟨earlier, gap, later, here, semicolons, line⟩ := numbered.behind_semicolons first
  refine ⟨l, s, earlier, x, scanned, first, split, valid, whole, keyword, ⟨gap, later, here⟩,
    semicolons, ?_⟩
  have nothing : (earlier.map fun y => y.token.keptEnds).sum = 0 := by
    refine List.sum_eq_zero_iff_forall_eq_nat.mpr ?_
    intro n member
    obtain ⟨y, inEarlier, rfl⟩ := List.mem_map.mp member
    rw [semicolons y inEarlier]
    rfl
  have counted := short earlier _ later here
  rw [nothing] at counted
  exact line.trans counted

namespace Package

def MarkedBefore (text : String) (line : Nat) : Prop :=
  ∃ marked ∈ (textLines text).take (line - 1),
    ∃ tool, marked = "// Code generated ".toList ++ tool ++ " DO NOT EDIT.".toList

theorem markedBefore_iff (text : String) (line : Nat) :
    MarkedBefore text line ↔ ((textLines text).take (line - 1)).any isMark = true := by
  simp only [MarkedBefore, List.any_eq_true, isMark_iff]

instance (text : String) (line : Nat) : Decidable (MarkedBefore text line) :=
  decidable_of_iff _ (markedBefore_iff text line).symm

/-- The line up to which the mark is sought: the first that begins with `package`, or the one
    behind the last line. -/
def soughtLine (text : String) : Nat :=
  1 + ((textLines text).takeWhile fun line => !"package".toList.isPrefixOf line).length

theorem MarkedBefore.later {text : String} {line further : Nat} (order : line ≤ further)
    (marked : MarkedBefore text line) : MarkedBefore text further := by
  obtain ⟨line, member, shape⟩ := marked
  exact ⟨line, List.take_subset_take_left _ (by omega) member, shape⟩

theorem isGenerated_iff_sought (text : String) :
    isGenerated text = true ↔ MarkedBefore text (soughtLine text) := by
  have taken : (textLines text).take (soughtLine text - 1) =
      (textLines text).takeWhile fun line => !"package".toList.isPrefixOf line := by
    rw [soughtLine, Nat.add_sub_cancel_left]
    exact (List.prefix_iff_eq_take.mp (List.takeWhile_prefix _)).symm
  rw [markedBefore_iff, taken, isGenerated]

theorem isGenerated_agrees (text : String) (line : Nat) :
    (isGenerated text = true ↔ MarkedBefore text line) ↔
      (MarkedBefore text (max (soughtLine text) line) →
        MarkedBefore text (min (soughtLine text) line)) := by
  rw [isGenerated_iff_sought]
  rcases Nat.le_total (soughtLine text) line with order | order
  · rw [Nat.max_eq_right order, Nat.min_eq_left order]
    exact ⟨Iff.mpr, fun back => ⟨MarkedBefore.later order, back⟩⟩
  · rw [Nat.max_eq_left order, Nat.min_eq_right order]
    exact ⟨Iff.mp, fun back => ⟨back, MarkedBefore.later order⟩⟩

theorem dropEndWhile_package (rest : List Char) :
    Text.dropEndWhile (· == '\r') ("package".toList ++ rest) =
      "package".toList ++ Text.dropEndWhile (· == '\r') rest := by
  unfold Text.dropEndWhile
  rw [List.reverse_append, List.dropWhile_append]
  split
  · rename_i nothing
    rw [List.isEmpty_iff.mp nothing]
    rfl
  · simp

theorem dropEndWhile_begins {line : List Char} :
    "package".toList <+: Text.dropEndWhile (· == '\r') line ↔ "package".toList <+: line := by
  constructor
  · intro begins
    refine begins.trans ?_
    rw [Text.dropEndWhile, ← List.reverse_suffix, List.reverse_reverse]
    exact List.dropWhile_suffix _
  · rintro ⟨rest, rfl⟩
    rw [dropEndWhile_package]
    exact List.prefix_append _ _

end Package

namespace Splitting

/-- What stands in front of the token behind `earlier`, but for a byte order mark. -/
def ahead (s : Splitting) (earlier : List Stretch) : List Char :=
  s.front ++ earlier.flatMap Stretch.text

namespace Clause

variable {s : Splitting} {earlier : List Stretch} {x : Lexeme} (clause : s.Clause earlier x)
  (valid : s.Valid)

include clause

theorem text_eq : ∃ rest, s.text = s.mark ++ (s.ahead earlier ++ ("package".toList ++ rest)) := by
  obtain ⟨gap, later, here⟩ := clause.here
  refine ⟨gap ++ later.flatMap Stretch.text, ?_⟩
  simp [text, here, ahead, Stretch.text, clause.keyword, Token.spelling]

include valid

theorem gaps : ∀ y ∈ earlier, y.token = .semicolon ∧ ∃ last, Gap last y.gap := by
  obtain ⟨gap, later, here⟩ := clause.here
  have fits := valid.gaps
  rw [here] at fits
  have all : ∀ (ss rest : List Stretch), Stretch.GapsFit (ss ++ rest) →
      ∀ y ∈ ss, ∃ last, Gap last y.gap := by
    intro ss rest fits
    induction ss with
    | nil => simp
    | cons y ss ih => exact List.forall_mem_cons.mpr ⟨⟨_, fits.1⟩, ih fits.2⟩
  exact fun y member => ⟨clause.semicolons y member, all _ _ fits y member⟩

theorem ahead_head {c : Char} {rest : List Char} (shape : s.ahead earlier = c :: rest) :
    Text.isBlank c = true ∨ c = '/' ∨ c = ';' := by
  have semicolons := clause.semicolons
  have front := valid.front
  cases first : s.front with
  | cons d gap =>
    rw [ahead, first] at shape
    obtain ⟨rfl, -⟩ := List.cons.inj shape
    rw [first] at front
    exact front.head.imp_right Or.inl
  | nil =>
    rw [ahead, first] at shape
    cases earlier with
    | nil => cases shape
    | cons y earlier =>
      rw [List.nil_append, List.flatMap_cons, Stretch.text, semicolons y List.mem_cons_self] at shape
      exact Or.inr (Or.inr (List.cons.inj shape).1.symm)

theorem body_eq {text : String} (whole : s.text = text.toList) :
    ∃ rest, text.toList.dropWhile (· == '\ufeff') = s.ahead earlier ++ ("package".toList ++ rest) := by
  obtain ⟨rest, shape⟩ := clause.text_eq
  refine ⟨rest, ?_⟩
  have unmarked : (s.ahead earlier ++ ("package".toList ++ rest)).dropWhile (· == '\ufeff') =
      s.ahead earlier ++ ("package".toList ++ rest) := by
    cases first : s.ahead earlier with
    | nil => rfl
    | cons c more =>
      have other : c ≠ '\ufeff' := by
        rintro rfl
        exact absurd (clause.ahead_head valid first) (by decide)
      simp [other]
  rw [← whole, shape]
  rcases valid.mark with none | some
  · rw [none, List.nil_append, unmarked]
  · rw [some, List.singleton_append, List.dropWhile_cons_of_pos rfl, unmarked]

theorem textLines_eq {text : String} (whole : s.text = text.toList) :
    ∃ lines left right later, Text.cutAt '\n' (s.ahead earlier) = lines ++ [left] ∧
      left <:+ s.ahead earlier ∧ x.line = 1 + lines.length ∧
        Package.textLines text = lines.map (Text.dropEndWhile (· == '\r')) ++
          Text.dropEndWhile (· == '\r') (left ++ ("package".toList ++ right)) :: later := by
  obtain ⟨rest, body⟩ := clause.body_eq valid whole
  obtain ⟨lines, left, cut, ends, count, behind⟩ := Text.cutAt_append '\n' (s.ahead earlier)
  obtain ⟨right, later, cutRest⟩ := List.exists_cons_of_ne_nil (Text.cutAt_ne_nil '\n' rest)
  have word := Text.cutAt_unmarked_append (by decide : '\n' ∉ "package".toList) cutRest
  refine ⟨lines, left, right, later.map (Text.dropEndWhile (· == '\r')), cut, ends, ?_, ?_⟩
  · have unmarked : s.mark.count '\n' = 0 := by
      rcases valid.mark with none | some
      · rw [none]
        rfl
      · rw [some]
        decide
    rw [clause.line, Splitting.line, Splitting.before, List.append_assoc, List.count_append,
      unmarked, Nat.zero_add, count]
    rfl
  · rw [Package.textLines, body, behind _ _ _ word, List.map_append, List.map_cons]

theorem line_infix {lines : List (List Char)} {left part : List Char}
    (cut : Text.cutAt '\n' (s.ahead earlier) = lines ++ [left]) (member : part ∈ lines)
    (begins : "package".toList <+: part) : clauseLine <:+: s.ahead earlier := by
  obtain ⟨first, more, rfl⟩ := List.exists_cons_of_ne_nil (List.ne_nil_of_mem member)
  obtain ⟨front, behind⟩ := Text.cutAt_parts cut
  rcases List.mem_cons.mp member with rfl | later
  · obtain ⟨rest, shape⟩ := begins.trans front
    exact absurd (clause.ahead_head valid shape.symm) (by decide)
  · have inside := behind part (List.mem_append_left _ later)
    exact (List.cons_prefix_cons.mpr ⟨rfl, begins⟩).isInfix.trans inside

end Clause

end Splitting

namespace Package

open Splitting

theorem soughtLine_sooner {text : String} {front behind : List (List Char)}
    (shape : textLines text = front ++ behind) (sooner : soughtLine text < 1 + front.length) :
    ∃ line ∈ front, "package".toList <+: line := by
  by_contra none
  have all : ∀ line ∈ front, (!"package".toList.isPrefixOf line) = true := by
    intro line member
    rw [Bool.not_eq_true', ← Bool.not_eq_true, List.isPrefixOf_iff_prefix]
    exact fun begins => none ⟨line, member, begins⟩
  rw [soughtLine, shape, List.takeWhile_append_of_pos all, List.length_append] at sooner
  omega

theorem soughtLine_le {text : String} {front behind : List (List Char)} {line : List Char}
    (shape : textLines text = front ++ line :: behind) (begins : "package".toList <+: line) :
    soughtLine text ≤ 1 + front.length := by
  have stops : (!"package".toList.isPrefixOf line) = false := by
    rw [Bool.not_eq_false', List.isPrefixOf_iff_prefix]
    exact begins
  rw [soughtLine, shape, List.takeWhile_append]
  split
  · rw [List.takeWhile_cons, stops]
    simp
  · exact Nat.add_le_add_left (List.takeWhile_prefix _).length_le 1

/-- Where the mark is sought in a text whose package clause is on `line`, behind `ahead`. It is found
    exactly if it is on a line in front of the clause, but for lines between the two: the line up to
    which it is sought is before the clause's only for a line in a block comment, and behind it only
    if something else is in front of the clause on its line. -/
structure Sought (text : String) (ahead : List Char) (line : Nat) : Prop where
  sought : isGenerated text = true ↔ MarkedBefore text (soughtLine text)
  agrees : (isGenerated text = true ↔ MarkedBefore text line) ↔
    (MarkedBefore text (max (soughtLine text) line) →
      MarkedBefore text (min (soughtLine text) line))
  sooner : soughtLine text < line → ∃ before behind, ahead = before ++ (clauseLine ++ behind) ∧
    Text.Commented before clauseLine behind
  later : line < soughtLine text → ∃ left, left ≠ [] ∧ '\n' ∉ left ∧ left <:+ ahead

theorem mark_sought {path text : String} {file : SourceFile}
    (accepted : SourceFile.ofText path text = .ok file) :
    ∃ l s earlier x, Lexemes.ofText text = .ok l ∧
      (Cursor.dropSemicolons l.items).head? = some x ∧ Splitting.ofText text = .ok s ∧ s.Valid ∧
        s.text = text.toList ∧ s.Clause earlier x ∧ Sought text (s.ahead earlier) x.line := by
  obtain ⟨l, s, earlier, x, scanned, first, split, valid, whole, clause⟩ :=
    SourceFile.ofText_clause accepted
  refine ⟨l, s, earlier, x, scanned, first, split, valid, whole, clause, ?_⟩
  obtain ⟨lines, left, right, rest, cut, ends, line, shape⟩ := clause.textLines_eq valid whole
  rw [line]
  refine ⟨isGenerated_iff_sought text, isGenerated_agrees text _, ?_, ?_⟩
  · -- A line in front of the clause's ends the search: it begins behind a line end of the gap.
    intro sooner
    rw [← List.length_map (Text.dropEndWhile (· == '\r'))] at sooner
    obtain ⟨_, member, begins⟩ := soughtLine_sooner shape sooner
    obtain ⟨part, inLines, rfl⟩ := List.mem_map.mp member
    obtain ⟨before, behind, place⟩ : clauseLine <:+: s.ahead earlier :=
      clause.line_infix valid cut inLines (dropEndWhile_begins.mp begins)
    rw [List.append_assoc] at place
    exact ⟨before, behind, place.symm,
      Stretch.clauseLine_commented (clause.gaps valid) ⟨_, valid.front⟩ place⟩
  · intro later
    have inCut : left ∈ Text.cutAt '\n' (s.ahead earlier) := by simp [cut]
    refine ⟨left, ?_, Text.part_unmarked inCut, ends⟩
    rintro rfl
    have begins := dropEndWhile_begins.mpr (List.prefix_append "package".toList right)
    have bound := soughtLine_le shape begins
    rw [List.length_map] at bound
    omega

def markedText : String :=
  "\ufeff// Code generated by x. DO NOT EDIT.\x0d\n/* a\n*/ ;package p\n"

theorem markedText_sought :
    ∃ file, SourceFile.ofText "x.go" markedText = .ok file ∧
      ∃ l s earlier x, Lexemes.ofText markedText = .ok l ∧
        (Cursor.dropSemicolons l.items).head? = some x ∧ Splitting.ofText markedText = .ok s ∧
          s.Valid ∧ s.text = markedText.toList ∧ s.Clause earlier x ∧
            Sought markedText (s.ahead earlier) x.line := by
  have read : (SourceFile.ofText "x.go" markedText).toOption.isSome = true := by decide +kernel
  cases run : SourceFile.ofText "x.go" markedText with
  | error => simp [run, Except.toOption] at read
  | ok file => exact ⟨file, rfl, mark_sought run⟩

/-- The mark counts behind a clause with a blank in front of it, and does not count in front of a
    clause if a comment before it has a line that begins with `package`. -/
theorem mark_misplaced :
    (let text := " package p\n// Code generated by x. DO NOT EDIT.\n"
     (SourceFile.ofText "x.go" text).toOption.isSome = true ∧
      (Lexemes.ofText text).toOption.map (fun l => (Cursor.dropSemicolons l.items).head?) =
        some (some ⟨.word "package", 1⟩) ∧
      isGenerated text = true ∧ ¬ MarkedBefore text 1) ∧
    (let text := "/*\npackage a\n*/\n// Code generated by x. DO NOT EDIT.\npackage p\n"
     (SourceFile.ofText "x.go" text).toOption.isSome = true ∧
      (Lexemes.ofText text).toOption.map (fun l => (Cursor.dropSemicolons l.items).head?) =
        some (some ⟨.word "package", 5⟩) ∧
      isGenerated text = false ∧ MarkedBefore text 5) := by
  decide +kernel

end Package

end GoSpy
