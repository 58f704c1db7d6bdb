import GoSpy.Proofs.Grammar.IndexedTokens
/- A text is its tokens with gaps between them: no character is lost, and every gap is white space
   and whole comments. The tokens that the scanner gives are those of the text, each with one
   semicolon behind it where it ends a statement and its gap ends a line or the text. -/
namespace GoSpy

/-- White space and whole comments. A line comment goes up to a line end, or up to the end of the
    text if the gap is the last one. -/
inductive Gap (last : Bool) : List Char → Prop where
  | nothing : Gap last []
  | blank {c : Char} {rest : List Char} (isBlank : Text.isBlank c = true)
      (later : Gap last rest) : Gap last (c :: rest)
  | lineComment {body rest : List Char} (oneLine : '\n' ∉ body)
      (later : Gap last ('\n' :: rest)) : Gap last ('/' :: '/' :: (body ++ '\n' :: rest))
  | lastComment {body : List Char} (oneLine : '\n' ∉ body) (isLast : last = true) :
      Gap last ('/' :: '/' :: body)
  | blockComment {body rest : List Char} (inside : ¬ ['*', '/'] <:+: body)
      (later : Gap last rest) : Gap last ('/' :: '*' :: (body ++ '*' :: '/' :: rest))

structure Stretch where
  token : Token
  gap : List Char

def Stretch.text (s : Stretch) : List Char := s.token.spelling.toList ++ s.gap

/-- A text in parts: a byte order mark or nothing, a gap, and the tokens each with its gap. -/
structure Splitting where
  mark : List Char
  front : List Char
  stretches : List Stretch

namespace Stretch

def GapsFit : List Stretch → Prop
  | [] => True
  | s :: rest => Gap rest.isEmpty s.gap ∧ GapsFit rest

def withSemicolons : List Stretch → List Token
  | [] => []
  | s :: rest =>
    if s.token.endsStatement && (s.gap.contains '\n' || rest.isEmpty) then
      s.token :: .semicolon :: withSemicolons rest
    else s.token :: withSemicolons rest

end Stretch

namespace Splitting

def text (s : Splitting) : List Char := s.mark ++ s.front ++ s.stretches.flatMap Stretch.text

structure Valid (s : Splitting) : Prop where
  mark : s.mark = [] ∨ s.mark = ['\ufeff']
  front : Gap s.stretches.isEmpty s.front
  gaps : Stretch.GapsFit s.stretches
  spelled : ∀ x ∈ s.stretches, x.token.spelling ≠ ""

end Splitting

namespace Scan

def stretches : List Piece → List Char × List Stretch
  | [] => ([], [])
  | .gap text :: rest => (text ++ (stretches rest).1, (stretches rest).2)
  | .token t :: rest => ([], ⟨t, (stretches rest).1⟩ :: (stretches rest).2)

theorem Cuts.stretches_text {text rest : List Char} {ps : List Piece} (cuts : Cuts text ps rest) :
    (stretches ps).1 ++ (stretches ps).2.flatMap Stretch.text ++ rest = text := by
  induction cuts with
  | done => rfl
  | @step c text behind rest p ps first later ih =>
    have whole := piece_splits first
    rw [← ih] at whole
    cases p with
    | gap text => simpa [stretches, Piece.text] using whole
    | token t => simpa [stretches, Stretch.text, Piece.text] using whole

theorem commentBody_closes {text body rest : List Char}
    (run : commentBody text = some (body, rest)) :
    ∃ inside, body = inside ++ ['*', '/'] ∧ ¬ ['*', '/'] <:+: inside := by
  fun_induction commentBody text generalizing body rest with
  | case1 behind =>
    obtain ⟨rfl, rfl⟩ := Prod.mk.inj (Option.some.inj run)
    exact ⟨[], rfl, by decide⟩
  | case2 c behind notEnd ih =>
    obtain ⟨⟨inner, after⟩, again, same⟩ := Option.map_eq_some_iff.mp run
    obtain ⟨rfl, rfl⟩ := Prod.mk.inj same
    obtain ⟨inside, rfl, free⟩ := ih again
    refine ⟨c :: inside, rfl, ?_⟩
    intro found
    rcases List.infix_cons_iff.mp found with here | later
    · obtain ⟨more, shape⟩ := here
      obtain ⟨rfl, tail⟩ := List.cons.inj shape
      have whole := commentBody_splits again
      rw [← tail] at whole
      exact notEnd _ rfl whole.symm
    · exact free later
  | case3 => cases run

theorem operator_token {c : Char} {text rest : List Char} {p : Piece}
    (run : operator (c :: text) = .ok (p, rest)) : ∃ t, p = .token t := by
  unfold operator at run
  split at run
  · exact ⟨_, (Prod.mk.inj (Except.ok.inj run)).1.symm⟩
  · dsimp only at run
    split at run
    · exact ⟨_, (Prod.mk.inj (Except.ok.inj run)).1.symm⟩
    · cases run

theorem newline_of_dropWhile {text more : List Char} {d : Char}
    (stop : text.dropWhile (· ≠ '\n') = d :: more) : d = '\n' := by
  have first := List.head?_dropWhile_not (· ≠ '\n') text
  rw [stop] at first
  simpa using first

theorem gap_piece {c : Char} {text behind gap later : List Char} {last : Bool}
    (first : piece (c :: text) = .ok (.gap gap, behind)) (rest : Gap last later)
    (ends : behind = [] → later = [] ∧ last = true)
    (newline : ∀ more, behind = '\n' :: more → ∃ tail, later = '\n' :: tail) :
    Gap last (gap ++ later) := by
  cases piece_eq_ok.mp first with
  | lineComment text =>
    have oneLine : '\n' ∉ text.takeWhile (· ≠ '\n') := by
      intro member
      simpa using List.mem_takeWhile_imp member
    cases stop : text.dropWhile (· ≠ '\n') with
    | nil =>
      obtain ⟨rfl, isLast⟩ := ends stop
      rw [List.append_nil]
      exact .lastComment oneLine isLast
    | cons d more =>
      obtain rfl := newline_of_dropWhile stop
      obtain ⟨tail, rfl⟩ := newline more stop
      exact .lineComment oneLine rest
  | blockComment run =>
    obtain ⟨inside, rfl, free⟩ := commentBody_closes run
    simpa using Gap.blockComment free rest
  | blank isBlank => exact .blank isBlank rest
  | operator _ _ _ _ _ run =>
    obtain ⟨t, same⟩ := operator_token run
    cases same

theorem Cuts.stretches_newline {more rest : List Char} {ps : List Piece}
    (cuts : Cuts ('\n' :: more) ps rest) (some : ps ≠ []) :
    ∃ tail, (stretches ps).1 = '\n' :: tail := by
  cases cuts with
  | done => exact absurd rfl some
  | step first later =>
    have newline : piece ('\n' :: more) = .ok (.gap ['\n'], more) := rfl
    rw [newline] at first
    obtain ⟨rfl, rfl⟩ := Prod.mk.inj (Except.ok.inj first)
    exact ⟨_, rfl⟩

theorem Cuts.gaps {text rest : List Char} {ps : List Piece} (cuts : Cuts text ps rest)
    (whole : rest = []) :
    Gap (stretches ps).2.isEmpty (stretches ps).1 ∧ Stretch.GapsFit (stretches ps).2 := by
  induction cuts with
  | done => exact ⟨.nothing, trivial⟩
  | @step c text behind rest p ps first later ih =>
    obtain ⟨front, behindFit⟩ := ih whole
    cases p with
    | token t => exact ⟨.nothing, front, behindFit⟩
    | gap gap =>
      constructor
      · apply gap_piece first front
        · intro empty
          subst empty
          cases later
          exact ⟨rfl, rfl⟩
        · intro more shape
          subst shape whole
          apply later.stretches_newline
          intro none
          subst none
          cases later
      · exact behindFit

def paid (owed : Bool) (front : List Char) (ss : List Stretch) : List Token :=
  if owed && (front.contains '\n' || ss.isEmpty) then [.semicolon] else []

theorem withSemicolons_cons (s : Stretch) (rest : List Stretch) :
    Stretch.withSemicolons (s :: rest) =
      s.token :: (paid s.token.endsStatement s.gap rest ++ Stretch.withSemicolons rest) := by
  simp only [Stretch.withSemicolons, paid]
  split <;> rfl

theorem flow_stretches (owed : Bool) (ps : List Piece) :
    (flow owed ps).1 ++ due (flow owed ps).2 =
      paid owed (stretches ps).1 (stretches ps).2 ++ Stretch.withSemicolons (stretches ps).2 := by
  induction ps generalizing owed with
  | nil => cases owed <;> rfl
  | cons p rest ih =>
    cases p with
    | token t =>
      have nothing : paid owed [] (stretches (.token t :: rest)).2 = [] := by
        simp [paid, stretches]
      rw [show (stretches (.token t :: rest)).1 = [] from rfl, nothing, List.nil_append]
      simp only [flow, stretches, List.cons_append, withSemicolons_cons, ih]
    | gap text =>
      simp only [flow, stretches]
      split
      · rename_i pays
        have now : paid owed (text ++ (stretches rest).1) (stretches rest).2 = [.semicolon] := by
          obtain ⟨owes, newline⟩ := Bool.and_eq_true_iff.mp pays
          simp_all [paid]
        have nothing : paid false (stretches rest).1 (stretches rest).2 = [] := rfl
        rw [now, List.cons_append, ih, nothing]
        rfl
      · rename_i keeps
        have same : paid owed (text ++ (stretches rest).1) (stretches rest).2 =
            paid owed (stretches rest).1 (stretches rest).2 := by
          cases owed
          · rfl
          · have oneLine : '\n' ∉ text := by simpa using keeps
            simp [paid, oneLine]
        rw [same, ih]

theorem skipMark_eq (text : List Char) :
    ∃ mark, (mark = [] ∨ mark = ['\ufeff']) ∧ mark ++ skipMark text = text := by
  unfold skipMark
  split
  · exact ⟨['\ufeff'], Or.inr rfl, rfl⟩
  · exact ⟨[], Or.inl rfl, rfl⟩

theorem token_of_stretches {ps : List Piece} {x : Stretch} (member : x ∈ (stretches ps).2) :
    .token x.token ∈ ps := by
  induction ps with
  | nil => cases member
  | cons p rest ih =>
    cases p with
    | gap => exact List.mem_cons_of_mem _ (ih member)
    | token t =>
      rcases List.mem_cons.mp member with rfl | later
      · exact List.mem_cons_self
      · exact List.mem_cons_of_mem _ (ih later)

theorem Cuts.stretches_spelled {text rest : List Char} {ps : List Piece}
    (cuts : Cuts text ps rest) : ∀ x ∈ (stretches ps).2, x.token.spelling ≠ "" := by
  intro x member empty
  have scanned := cuts.scanned (token_of_stretches member)
  simp [Token.isScanned, empty] at scanned

end Scan

namespace Lexemes

open Scan

/-- A text that is cut into tokens is these tokens with gaps of white space and comments between
    them. What is given are the tokens of the text, one semicolon behind each that ends a statement
    in front of a line end or the end of the text, and last the end of the text. -/
theorem ofText_splits {text : String} {l : Lexemes} (run : ofText text = .ok l) :
    ∃ s : Splitting, s.Valid ∧ s.text = text.toList ∧
      (Indexed.vector l).map Prod.fst =
        (Stretch.withSemicolons s.stretches).map some ++ [none] := by
  obtain ⟨ps, cuts, rfl⟩ := ofText_eq_ok run
  obtain ⟨front, gaps⟩ := cuts.gaps rfl
  obtain ⟨mark, known, whole⟩ := skipMark_eq text.toList
  refine ⟨⟨mark, (stretches ps).1, (stretches ps).2⟩, ⟨known, front, gaps, ?_⟩, ?_, ?_⟩
  · exact cuts.stretches_spelled
  · have body := cuts.stretches_text
    rw [List.append_nil] at body
    rw [Splitting.text, List.append_assoc, body, whole]
  · have tokens : (settle false 1 ps).items.map Lexeme.token =
        Stretch.withSemicolons (stretches ps).2 := by
      rw [settle_tokens, flow_stretches]
      rfl
    rw [← tokens]
    simp [Indexed.vector]

theorem commented_splits :
    ofText "\ufeffx /* a\n b */ y // end\n" =
        .ok ⟨[⟨.word "x", 1⟩, ⟨.semicolon, 1⟩, ⟨.word "y", 2⟩, ⟨.semicolon, 2⟩], 3⟩ ∧
      ∃ s : Splitting, s.Valid ∧ s.text = "\ufeffx /* a\n b */ y // end\n".toList ∧
        (Stretch.withSemicolons s.stretches).map some ++ [none] =
          [some (.word "x"), some .semicolon, some (.word "y"), some .semicolon, none] := by
  have run : ofText "\ufeffx /* a\n b */ y // end\n" =
      .ok ⟨[⟨.word "x", 1⟩, ⟨.semicolon, 1⟩, ⟨.word "y", 2⟩, ⟨.semicolon, 2⟩], 3⟩ := by
    decide +kernel
  obtain ⟨s, valid, same, tokens⟩ := ofText_splits run
  exact ⟨run, s, valid, same, tokens.symm⟩

end Lexemes

end GoSpy
