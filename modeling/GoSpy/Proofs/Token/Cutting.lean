import GoSpy.Proofs.Token.Pieces
/- Runs of the scanner as a relation. A run that reaches the end of a text is what `pieces`
   finds, and its tokens, semicolons included, depend on the pieces alone and not on the line
   they start on. -/
namespace GoSpy

namespace Scan

inductive Cuts : List Char → List Piece → List Char → Prop where
  | done (text : List Char) : Cuts text [] text
  | step {c : Char} {text behind rest : List Char} {p : Piece} {ps : List Piece}
      (first : piece (c :: text) = .ok (p, behind)) (later : Cuts behind ps rest) :
      Cuts (c :: text) (p :: ps) rest

theorem Cuts.append {text middle rest : List Char} {ps qs : List Piece}
    (front : Cuts text ps middle) (back : Cuts middle qs rest) : Cuts text (ps ++ qs) rest := by
  induction front with
  | done => exact back
  | step first _ ih => exact .step first (ih back)

theorem cuts_of_pieces {fuel line : Nat} {text : List Char} {ps : List Piece}
    (enough : text.length ≤ fuel) (run : pieces fuel line text = .ok ps) : Cuts text ps [] := by
  induction fuel generalizing line text ps with
  | zero =>
    obtain rfl := List.eq_nil_of_length_eq_zero (Nat.le_zero.mp enough)
    obtain rfl := Except.ok.inj run
    exact .done []
  | succ fuel ih =>
    cases text with
    | nil =>
      obtain rfl := Except.ok.inj run
      exact .done []
    | cons c text =>
      simp only [pieces] at run
      split at run
      · simp at run
      · rename_i p behind first
        have shorter := piece_shrinks first
        cases tail : pieces fuel (line + p.lines) behind with
        | error => simp [tail, Except.map] at run
        | ok later =>
          simp only [tail, Except.map, Except.ok.injEq] at run
          subst run
          exact .step first (ih (by simp at shorter enough; omega) tail)

theorem pieces_of_cuts {fuel : Nat} (line : Nat) {text : List Char} {ps : List Piece}
    (enough : text.length ≤ fuel) (cuts : Cuts text ps []) : pieces fuel line text = .ok ps := by
  induction fuel generalizing line text ps with
  | zero =>
    obtain rfl := List.eq_nil_of_length_eq_zero (Nat.le_zero.mp enough)
    cases cuts
    rfl
  | succ fuel ih =>
    cases cuts with
    | done => rfl
    | @step c text behind _ p ps first later =>
      have shorter := piece_shrinks first
      simp only [pieces, first]
      rw [ih (line + p.lines) (by simp at shorter enough; omega) later]
      rfl

theorem Cuts.words {text rest : List Char} {ps : List Piece} (cuts : Cuts text ps rest)
    {w : String} (member : .token (.word w) ∈ ps) : Text.isWord w = true := by
  induction cuts with
  | done => simp at member
  | step first _ ih =>
    rcases List.mem_cons.mp member with here | there
    · exact piece_word (here ▸ first)
    · exact ih there

theorem piece_mark (rest : List Char) :
    piece ('\ufeff' :: rest) = .error (.strayCharacter '\ufeff') := by
  rw [piece_no_comment (fun _ same => absurd (List.cons.inj same).1 (by decide))
    (fun _ same => absurd (List.cons.inj same).1 (by decide)), if_neg (by decide +kernel),
    if_neg (by decide), if_neg (by decide), if_neg (by decide)]
  have notNumber : startsNumber ('\ufeff' :: rest) = false := by
    cases rest <;> rfl
  rw [if_neg (by simp [notNumber]), if_neg (by decide +kernel)]
  rfl

theorem Cuts.skipMark {text rest : List Char} {ps : List Piece} (cuts : Cuts text ps rest)
    (some : ps ≠ []) : skipMark text = text := by
  cases cuts with
  | done => exact absurd rfl some
  | @step c text behind _ p ps first later =>
    unfold Scan.skipMark
    split
    · rename_i same
      obtain ⟨rfl, rfl⟩ := List.cons.inj same
      rw [piece_mark] at first
      cases first
    · rfl

def flow : Bool → List Piece → List Token × Bool
  | owed, [] => ([], owed)
  | _, .token t :: rest => (t :: (flow t.endsStatement rest).1, (flow t.endsStatement rest).2)
  | owed, .gap text :: rest =>
    if owed && text.contains '\n' then
      (.semicolon :: (flow false rest).1, (flow false rest).2)
    else flow owed rest

theorem flow_append (owed : Bool) (ps qs : List Piece) :
    flow owed (ps ++ qs) =
      ((flow owed ps).1 ++ (flow (flow owed ps).2 qs).1, (flow (flow owed ps).2 qs).2) := by
  induction ps generalizing owed with
  | nil => rfl
  | cons p rest ih =>
    cases p with
    | token t => simp [flow, ih]
    | gap text =>
      simp only [List.cons_append, flow]
      split
      · simp [ih]
      · exact ih owed

theorem flow_owes (owed : Bool) (ps : List Piece) :
    (flow owed ps).2 = ((flow owed ps).1.getLast?.map Token.endsStatement).getD owed := by
  induction ps generalizing owed with
  | nil => rfl
  | cons p rest ih =>
    have behind (t : Token) : ((t :: (flow t.endsStatement rest).1).getLast?.map
        Token.endsStatement).getD owed = (flow t.endsStatement rest).2 := by
      rw [ih, List.getLast?_cons]
      cases (flow t.endsStatement rest).1.getLast? <;> rfl
    cases p with
    | token t => exact (behind t).symm
    | gap text =>
      rw [flow]
      split
      · exact (behind .semicolon).symm
      · exact ih owed

def due (owed : Bool) : List Token := if owed then [.semicolon] else []

theorem settle_tokens (owed : Bool) (line : Nat) (ps : List Piece) :
    (settle owed line ps).items.map Lexeme.token =
      (flow owed ps).1 ++ due (flow owed ps).2 := by
  induction ps generalizing owed line with
  | nil => cases owed <;> rfl
  | cons p rest ih =>
    cases p with
    | token t => simp only [settle, flow, List.map_cons, ih, List.cons_append]
    | gap text =>
      simp only [settle, flow]
      split
      · simp only [List.map_cons, ih, List.cons_append]
      · exact ih ..

theorem mem_flow {owed : Bool} {ps : List Piece} {t : Token} (member : t ∈ (flow owed ps).1) :
    t = .semicolon ∨ .token t ∈ ps := by
  induction ps generalizing owed with
  | nil => simp [flow] at member
  | cons p rest ih =>
    cases p with
    | token u =>
      simp only [flow, List.mem_cons] at member
      rcases member with rfl | later
      · exact Or.inr List.mem_cons_self
      · exact (ih later).imp id (List.mem_cons_of_mem _)
    | gap text =>
      simp only [flow] at member
      split at member
      · rcases List.mem_cons.mp member with rfl | later
        · exact Or.inl rfl
        · exact (ih later).imp id (List.mem_cons_of_mem _)
      · exact (ih member).imp id (List.mem_cons_of_mem _)

end Scan

namespace Lexemes

open Scan

theorem ofText_eq_ok {text : String} {lexemes : Lexemes} (run : ofText text = .ok lexemes) :
    ∃ ps, Cuts (skipMark text.toList) ps [] ∧ settle false 1 ps = lexemes := by
  unfold ofText at run
  cases cut : pieces (skipMark text.toList).length 1 (skipMark text.toList) with
  | error => simp [cut, Except.map] at run
  | ok ps =>
    simp only [cut, Except.map, Except.ok.injEq] at run
    exact ⟨ps, cuts_of_pieces le_rfl cut, run⟩

theorem ofText_of_cuts {text : String} {ps : List Piece} (some : ps ≠ [])
    (cuts : Cuts text.toList ps []) : ofText text = .ok (settle false 1 ps) := by
  simp only [ofText, cuts.skipMark some, pieces_of_cuts 1 le_rfl cuts]
  rfl

theorem ofText_words {text : String} {lexemes : Lexemes} (run : ofText text = .ok lexemes)
    {x : Lexeme} (member : x ∈ lexemes.items) {w : String} (word : x.token = .word w) :
    Text.isWord w = true := by
  obtain ⟨ps, cuts, rfl⟩ := ofText_eq_ok run
  have tokens : x.token ∈ (settle false 1 ps).items.map Lexeme.token :=
    List.mem_map_of_mem member
  rw [settle_tokens, word, List.mem_append] at tokens
  rcases tokens with inFlow | final
  · rcases mem_flow inFlow with semicolon | piece
    · cases semicolon
    · exact cuts.words piece
  · unfold due at final
    split at final <;> simp at final

end Lexemes

end GoSpy
