import GoSpy.Proofs.Token.Splitting
import Mathlib.Algebra.GroupWithZero.Nat
/- The lines that tokens are reported on. A token is on the line behind all line ends in front of it,
   but for those in literals in quotes: a backslash keeps a line end in such a literal, and the
   scanner does not count it. -/
namespace GoSpy

/-- The line ends of a literal in quotes. -/
def Token.keptEnds : Token → Nat
  | .string text => if text.toList.head? = some '\x60' then 0 else text.toList.count '\n'
  | .rune text => text.toList.count '\n'
  | _ => 0

namespace Scan

def frontMark (text : List Char) : List Char :=
  if text.head? = some '\ufeff' then ['\ufeff'] else []

theorem frontMark_skipMark (text : List Char) :
    (frontMark text = [] ∨ frontMark text = ['\ufeff']) ∧
      frontMark text ++ skipMark text = text := by
  unfold skipMark
  split
  · exact ⟨Or.inr rfl, rfl⟩
  · rename_i other
    have none : frontMark text = [] := by
      cases text with
      | nil => rfl
      | cons c rest =>
        have apart : c ≠ '\ufeff' := by
          rintro rfl
          exact other rest rfl
        simp [frontMark, apart]
    rw [none]
    exact ⟨Or.inl rfl, rfl⟩

/- Line ends in tokens -/

theorem numberBody_oneLine (hex : Bool) (before : Char) (text : List Char) :
    '\n' ∉ (numberBody hex before text).1 := by
  induction text generalizing before with
  | nil => simp [numberBody]
  | cons c rest ih =>
    unfold numberBody
    split
    · rename_i goesOn
      have apart : c ≠ '\n' := by
        rintro rfl
        have other : '\n'.isAlphanum = false := by decide
        simp [other] at goesOn
      simpa [Ne.symm apart] using ih c
    · simp

theorem startsNumber_oneLine {c : Char} {rest : List Char}
    (starts : startsNumber (c :: rest) = true) : c ≠ '\n' := by
  rintro rfl
  rcases startsNumber_head starts with digit | dot
  · exact absurd digit (by decide)
  · exact absurd dot (by decide)

theorem word_oneLine {c : Char} (starts : Text.startsName c = true) (rest : List Char) :
    '\n' ∉ c :: rest.takeWhile Text.continuesName := by
  intro member
  rcases List.mem_cons.mp member with rfl | later
  · exact absurd starts (by decide)
  · exact absurd (List.mem_takeWhile_imp later) (by decide)

theorem operator_oneLine {text rest : List Char} {t : Token}
    (run : operator text = .ok (.token t, rest)) : '\n' ∉ t.spelling.toList := by
  unfold operator at run
  split at run
  · rename_i o found
    have free : ∀ o ∈ longOperators, '\n' ∉ o := by decide
    obtain ⟨same, _⟩ := Prod.mk.inj (Except.ok.inj run)
    rw [← Piece.token.inj same, ofLongOperator_spelling]
    exact free o (List.mem_of_find?_eq_some found)
  · split at run
    · cases run
    · rename_i c more
      split at run
      · rename_i mark
        obtain ⟨same, _⟩ := Prod.mk.inj (Except.ok.inj run)
        rw [← Piece.token.inj same, ofMark_spelling mark, List.mem_singleton]
        rintro rfl
        cases mark
      · cases run

theorem keptEnds_symbol {t : Token} (symbol : t.isSymbol = true) : t.keptEnds = 0 := by
  cases t <;> first | rfl | cases symbol

theorem piece_ends {c : Char} {text rest : List Char} {t : Token}
    (run : piece (c :: text) = .ok (.token t, rest)) :
    t.spelling.toList.count '\n' = (Piece.token t).lines + t.keptEnds := by
  cases piece_eq_ok.mp run with
  | string | raw | rune => simp [Token.spelling, Piece.lines, Token.keptEnds]
  | number starts =>
    have oneLine : '\n' ∉ c :: (numberBody (isHex (c :: text)) c text).1 := by
      simpa [Ne.symm (startsNumber_oneLine starts)] using numberBody_oneLine _ c text
    rw [Token.spelling, String.toList_ofList]
    exact List.count_eq_zero.mpr oneLine
  | word starts =>
    rw [Token.spelling, String.toList_ofList]
    exact List.count_eq_zero.mpr (word_oneLine starts text)
  | operator _ _ _ _ _ run =>
    have symbol := operator_symbol run
    rw [Indexed.lines_symbol symbol, keptEnds_symbol symbol]
    exact List.count_eq_zero.mpr (operator_oneLine run)

theorem Cuts.ends {text rest : List Char} {ps : List Piece} (cuts : Cuts text ps rest) {t : Token}
    (member : .token t ∈ ps) :
    t.spelling.toList.count '\n' = (Piece.token t).lines + t.keptEnds := by
  induction cuts with
  | done => cases member
  | step first _ ih =>
    rcases List.mem_cons.mp member with rfl | later
    · exact piece_ends first
    · exact ih later

end Scan

/- Numbered tokens -/

def Stretch.lines (x : Stretch) : Nat := (Piece.token x.token).lines + x.gap.count '\n'

/-- The lexemes of `stretches` that stand behind `before`: each token is on the line that is given
    for what is before it, and where a semicolon is due one stands behind it, on whatever line. -/
inductive Numbered (line : List Stretch → Nat) :
    List Stretch → List Stretch → List Lexeme → Prop where
  | done (before : List Stretch) : Numbered line before [] []
  | token {before rest : List Stretch} {x : Stretch} {due items : List Lexeme}
      (paid : due.map Lexeme.token = Scan.paid x.token.endsStatement x.gap rest)
      (later : Numbered line (before ++ [x]) rest items) :
      Numbered line before (x :: rest) (⟨x.token, line before⟩ :: (due ++ items))

namespace Numbered

variable {line line' : List Stretch → Nat} {before stretches : List Stretch} {items : List Lexeme}

theorem token_inv {x : Stretch} (numbered : Numbered line before (x :: stretches) items) :
    ∃ due later, items = ⟨x.token, line before⟩ :: (due ++ later) ∧
      due.map Lexeme.token = Scan.paid x.token.endsStatement x.gap stretches ∧
        Numbered line (before ++ [x]) stretches later := by
  cases numbered with
  | token paid later => exact ⟨_, _, rfl, paid, later⟩

theorem congr_iff (numbered : Numbered line before stretches items) :
    Numbered line' before stretches items ↔
      ∀ earlier x later, stretches = earlier ++ x :: later →
        line' (before ++ earlier) = line (before ++ earlier) := by
  induction numbered with
  | done before =>
    constructor
    · intro _ earlier x later shape
      cases earlier <;> cases shape
    · intro _
      exact .done before
  | @token before rest x due items paid _ ih =>
    constructor
    · intro other
      obtain ⟨due', items', same, paid', later'⟩ := other.token_inv
      obtain ⟨first, behind⟩ := List.cons.inj same
      have alike := congrArg List.length (paid.trans paid'.symm)
      rw [List.length_map, List.length_map] at alike
      obtain ⟨rfl, rfl⟩ := List.append_inj behind alike
      intro earlier y later shape
      cases earlier with
      | nil => simpa using (Lexeme.mk.inj first).2.symm
      | cons z earlier =>
        obtain ⟨rfl, shape'⟩ := List.cons.inj shape
        simpa using ih.mp later' earlier y later shape'
    · intro same
      have here : line' before = line before := by simpa using same [] x rest rfl
      rw [← here]
      refine .token paid (ih.mpr ?_)
      intro earlier y later shape
      simpa using same (x :: earlier) y later (by simp [shape])

end Numbered

namespace Scan

theorem paid_gap (owed : Bool) (text front : List Char) (rest : List Stretch) :
    paid owed (text ++ front) rest =
      if owed && text.contains '\n' then [.semicolon] else paid owed front rest := by
  unfold paid
  by_cases newline : '\n' ∈ text <;> cases owed <;> simp [newline]

theorem settle_numbered {line : List Stretch → Nat}
    (step : ∀ before x, line (before ++ [x]) = line before + x.lines) (owed : Bool) (start : Nat)
    (ps : List Piece) (before : List Stretch)
    (here : start + (stretches ps).1.count '\n' = line before) :
    ∃ due items, (settle owed start ps).items = due ++ items ∧
      due.map Lexeme.token = paid owed (stretches ps).1 (stretches ps).2 ∧
        Numbered line before (stretches ps).2 items := by
  -- `here` is the invariant: what is counted so far and the line ends of the gap in front of the
  -- first token of `ps` make up the line of what is before it.
  induction ps generalizing owed start before with
  | nil =>
    refine ⟨(settle owed start []).items, [], by simp, ?_, .done before⟩
    cases owed <;> rfl
  | cons p rest ih =>
    cases p with
    | token t =>
      let x : Stretch := ⟨t, (stretches rest).1⟩
      have next : start + (Piece.token t).lines + (stretches rest).1.count '\n' =
          line (before ++ [x]) := by
        rw [step, ← here, Stretch.lines]
        simp only [stretches, List.count_nil, x]
        omega
      obtain ⟨due, items, run, paid, numbered⟩ := ih t.endsStatement _ (before ++ [x]) next
      have first : start = line before := by simpa [stretches] using here
      have nothing : Scan.paid owed [] (x :: (stretches rest).2) = [] := by
        simp [Scan.paid]
      refine ⟨[], _, rfl, nothing.symm, ?_⟩
      subst first
      simp only [run]
      exact .token paid numbered
    | gap text =>
      have next : start + (Piece.gap text).lines + (stretches rest).1.count '\n' = line before := by
        simp only [stretches, List.count_append] at here
        simpa [Piece.lines, Nat.add_assoc] using here
      simp only [settle, stretches, paid_gap]
      split
      · obtain ⟨due, items, run, paid, numbered⟩ := ih false _ before next
        obtain rfl : due = [] := by simpa [Scan.paid] using paid
        exact ⟨[⟨.semicolon, start⟩], items, by rw [run]; rfl, rfl, numbered⟩
      · exact ih owed _ before next

end Scan

/- Lines of a text -/

namespace Splitting

def before (s : Splitting) (earlier : List Stretch) : List Char :=
  s.mark ++ s.front ++ earlier.flatMap Stretch.text

def line (s : Splitting) (earlier : List Stretch) : Nat := 1 + (s.before earlier).count '\n'

def counted (s : Splitting) (earlier : List Stretch) : Nat :=
  1 + s.front.count '\n' + (earlier.map Stretch.lines).sum

def ofText (text : String) : Except Fault Splitting :=
  let body := Scan.skipMark text.toList
  (Scan.pieces body.length 1 body).map fun ps =>
    ⟨Scan.frontMark text.toList, (Scan.stretches ps).1, (Scan.stretches ps).2⟩

open Scan

theorem counted_short {s : Splitting} (mark : s.mark = [] ∨ s.mark = ['\ufeff'])
    {earlier : List Stretch} (ends : ∀ x ∈ earlier,
      x.token.spelling.toList.count '\n' = (Piece.token x.token).lines + x.token.keptEnds) :
    s.counted earlier + (earlier.map fun x => x.token.keptEnds).sum = s.line earlier := by
  have unmarked : s.mark.count '\n' = 0 := by
    rcases mark with none | some
    · simp [none]
    · rw [some]
      decide
  have stretches : (earlier.flatMap Stretch.text).count '\n' =
      (earlier.map Stretch.lines).sum + (earlier.map fun x => x.token.keptEnds).sum := by
    induction earlier with
    | nil => rfl
    | cons x rest ih =>
      obtain ⟨first, later⟩ := List.forall_mem_cons.mp ends
      simp only [List.flatMap_cons, List.count_append, Stretch.text, List.map_cons, List.sum_cons,
        Stretch.lines, first, ih later]
      omega
  rw [line, before, List.count_append, List.count_append, unmarked, stretches, counted]
  omega

theorem ofText_of_cuts {text : String} {ps : List Piece}
    (cuts : Cuts (skipMark text.toList) ps []) :
    ∃ s, ofText text = .ok s ∧ s.Valid ∧ s.text = text.toList ∧ s.front = (Scan.stretches ps).1 ∧
      s.stretches = (Scan.stretches ps).2 := by
  obtain ⟨front, gaps⟩ := cuts.gaps rfl
  obtain ⟨mark, whole⟩ := frontMark_skipMark text.toList
  have run : ofText text =
      .ok ⟨frontMark text.toList, (Scan.stretches ps).1, (Scan.stretches ps).2⟩ := by
    simp only [ofText, pieces_of_cuts 1 le_rfl cuts]
    rfl
  have body := cuts.stretches_text
  rw [List.append_nil] at body
  refine ⟨_, run, ⟨mark, front, gaps, cuts.stretches_spelled⟩, ?_, rfl, rfl⟩
  rw [Splitting.text, List.append_assoc, body, whole]

end Splitting

theorem keptEnds_dropLast (stretches : List Stretch) :
    (∀ earlier x later, stretches = earlier ++ x :: later →
        (earlier.map fun x => x.token.keptEnds).sum = 0) ↔
      ∀ x ∈ stretches.dropLast, x.token.keptEnds = 0 := by
  constructor
  · intro none x member
    have some : stretches ≠ [] := by
      rintro rfl
      cases member
    have sum := none stretches.dropLast (stretches.getLast some) []
      (List.dropLast_append_getLast some).symm
    exact List.sum_eq_zero_iff_forall_eq_nat.mp sum _ (List.mem_map_of_mem member)
  · rintro none earlier x later rfl
    refine List.sum_eq_zero_iff_forall_eq_nat.mpr ?_
    intro n member
    obtain ⟨y, inEarlier, rfl⟩ := List.mem_map.mp member
    refine none y ?_
    rw [List.dropLast_append_of_ne_nil (List.cons_ne_nil x later)]
    exact List.mem_append_left _ inEarlier

namespace Lexemes

open Scan

/-- A token is reported on the line that is counted up to it, which falls short of its line in the
    text by the line ends of the literals in quotes before it. So all lines are right exactly if
    there is no line end in such a literal, but perhaps in the last token. -/
theorem ofText_numbered {text : String} {l : Lexemes} (run : ofText text = .ok l) :
    ∃ s, Splitting.ofText text = .ok s ∧ s.Valid ∧ s.text = text.toList ∧
      Numbered s.counted [] s.stretches l.items ∧
      (∀ earlier x later, s.stretches = earlier ++ x :: later →
        s.counted earlier + (earlier.map fun x => x.token.keptEnds).sum = s.line earlier) ∧
      (Numbered s.line [] s.stretches l.items ↔
        ∀ x ∈ s.stretches.dropLast, x.token.keptEnds = 0) := by
  obtain ⟨ps, cuts, rfl⟩ := ofText_eq_ok run
  obtain ⟨s, split, valid, whole, front, same⟩ := Splitting.ofText_of_cuts cuts
  have step : ∀ before x, s.counted (before ++ [x]) = s.counted before + x.lines := by
    intro before x
    simp [Splitting.counted, Nat.add_assoc]
  obtain ⟨due, items, settled, paid, numbered⟩ :=
    settle_numbered step false 1 ps [] (by simp [Splitting.counted, front])
  obtain rfl : due = [] := by simpa [Scan.paid] using paid
  rw [List.nil_append] at settled
  rw [← settled, ← same] at numbered
  have short : ∀ earlier x later, s.stretches = earlier ++ x :: later →
      s.counted earlier + (earlier.map fun x => x.token.keptEnds).sum = s.line earlier := by
    intro earlier x later shape
    refine Splitting.counted_short valid.mark ?_
    intro y inEarlier
    refine cuts.ends (token_of_stretches ?_)
    rw [← same, shape]
    exact List.mem_append_left _ inEarlier
  refine ⟨s, split, valid, whole, numbered, short, ?_⟩
  rw [numbered.congr_iff, ← keptEnds_dropLast]
  constructor
  · intro right earlier x later shape
    have := short earlier x later shape
    have := right earlier x later shape
    simp only [List.nil_append] at this
    omega
  · intro none earlier x later shape
    have := short earlier x later shape
    have := none earlier x later shape
    simp only [List.nil_append]
    omega

def manyLines : String := "x /* a\n b */ := \x60r\ns\x60 // c\n+ '\\'' y \"\\\n\""

theorem manyLines_numbered :
    ∃ l s, ofText manyLines = .ok l ∧ Splitting.ofText manyLines = .ok s ∧
      l.items.map Lexeme.line = [1, 1, 2, 2, 3, 4, 4, 4, 4, 4] ∧
        Numbered s.line [] s.stretches l.items := by
  have read : (ofText manyLines).toOption.any (fun l =>
      decide (l.items.map Lexeme.line = [1, 1, 2, 2, 3, 4, 4, 4, 4, 4])) = true := by
    decide +kernel
  have cut : (Splitting.ofText manyLines).toOption.all (fun s =>
      decide (∀ x ∈ s.stretches.dropLast, x.token.keptEnds = 0)) = true := by
    decide +kernel
  cases run : ofText manyLines with
  | error fault => simp [run, Except.toOption] at read
  | ok l =>
    obtain ⟨s, split, _, _, _, _, right⟩ := ofText_numbered run
    rw [run] at read
    rw [split] at cut
    exact ⟨l, s, rfl, split, of_decide_eq_true read, right.mpr (of_decide_eq_true cut)⟩

/-- A backslash keeps a line end in a string in quotes, and the token behind it is reported on the
    line before its own. -/
theorem kept_end_not_counted :
    ofText "\"\\\n\" x" =
        .ok ⟨[⟨.string "\"\\\n\"", 1⟩, ⟨.word "x", 1⟩, ⟨.semicolon, 1⟩], 1⟩ ∧
      ∃ s, Splitting.ofText "\"\\\n\" x" = .ok s ∧ s.line (s.stretches.take 1) = 2 ∧
        ¬ Numbered s.line [] s.stretches
          [⟨.string "\"\\\n\"", 1⟩, ⟨.word "x", 1⟩, ⟨.semicolon, 1⟩] := by
  let first : Stretch := ⟨.string "\"\\\n\"", [' ']⟩
  let second : Stretch := ⟨.word "x", []⟩
  have split : Splitting.ofText "\"\\\n\" x" = .ok ⟨[], [], [first, second]⟩ := by rfl
  refine ⟨by decide +kernel, _, split, by decide +kernel, ?_⟩
  intro numbered
  obtain ⟨due, later, same, paid, behind⟩ := numbered.token_inv
  obtain rfl : due = [] := List.map_eq_nil_iff.mp paid
  obtain rfl := (List.cons.inj same).2
  obtain ⟨_, _, same', _⟩ := behind.token_inv
  have line := (Lexeme.mk.inj (List.cons.inj same').1).2
  exact absurd line (by decide +kernel)

end Lexemes

end GoSpy
