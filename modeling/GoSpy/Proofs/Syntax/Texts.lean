import GoSpy.Proofs.Token.Lookahead
import GoSpy.Proofs.Grammar.Tokens
import GoSpy.Proofs.Syntax.WrittenShape
import GoSpy.Syntax.Spelling
/- Texts that stand for a run of tokens wherever they are put, and how such texts are joined.
   Array lengths and tags are the two kinds of text that types take over as they are. -/
namespace GoSpy

open Scan

/-- In front of anything that goes on with no name the text gives the tokens, and a line end
    behind it would end a statement. -/
def Spells (text : String) (tokens : List Token) : Prop :=
  ∀ owed rest, Boundary rest → Flows owed text.toList tokens true rest

theorem word_endsStatement {w : String} (free : isKeyword w = false) :
    (Token.word w).endsStatement = true := by
  simp [Token.endsStatement, free]

theorem Spells.word {w : String} (isWord : Text.isWord w = true)
    (free : isKeyword w = false) : Spells w [.word w] := by
  intro owed rest boundary
  have flows := Flows.word isWord owed boundary
  rwa [word_endsStatement free] at flows

theorem Spells.ends {text : String} {tokens : List Token} (spells : Spells text tokens) :
    tokens.getLast? ≠ some .semicolon := by
  obtain ⟨ps, _, flows⟩ := spells false [] (by simp [Boundary])
  have owes := flow_owes false ps
  rw [flows] at owes
  intro last
  rw [last] at owes
  cases owes

theorem Spells.behind (owes : Bool) (ts : List Token) {front text : String} {us : List Token}
    (first : ∀ owed rest, Flows owed front.toList ts owes (text.toList ++ rest))
    (spells : Spells text us) : Spells (front ++ text) (ts ++ us) := by
  intro owed rest boundary
  exact (first owed rest).append_text (spells owes rest boundary)

theorem Spells.closed {text : String} {tokens : List Token} {t : Token}
    (spells : Spells text tokens) (alone : t.standsAlone = true) (owed : Bool)
    (rest : List Char) :
    Flows owed (text ++ t.spelling).toList (tokens ++ [t]) t.endsStatement rest := by
  refine (spells owed _ ?_).append_text (.mark alone true rest)
  cases t <;> first | exact boundary_cons (by decide) | simp [Token.standsAlone] at alone

/- Joined texts -/

structure Separates (between : String) (mark : Token) : Prop where
  flows : ∀ owed rest, Flows owed between.toList [mark] false rest
  boundary : ∀ rest, Boundary (between.toList ++ rest)

theorem separates_comma : Separates ", " .comma where
  flows owed rest := (Flows.mark (t := .comma) rfl owed _).append (.space false rest)
  boundary _ := boundary_cons (by decide)

theorem separates_semicolon : Separates "; " .semicolon where
  flows owed rest := (Flows.mark (t := .semicolon) rfl owed _).append (.space false rest)
  boundary _ := boundary_cons (by decide)

theorem separates_pipe : Separates " | " .pipe where
  flows owed rest := by
    have pipe : Flows owed Token.pipe.spelling.toList [.pipe] false (' ' :: rest) :=
      .token owed rfl
    exact (Flows.space owed _).append (pipe.append (.space false rest))
  boundary _ := boundary_cons (by decide)

theorem joined_cons (between text : String) {texts : List String} (more : texts ≠ []) :
    joined between (text :: texts) = text ++ between ++ joined between texts := by
  cases texts with
  | nil => exact absurd rfl more
  | cons => rfl

theorem parted_append (mark : Token) {front back : List (List Token)} (some : front ≠ [])
    (more : back ≠ []) :
    parted mark (front ++ back) = parted mark front ++ mark :: parted mark back := by
  induction front with
  | nil => exact absurd rfl some
  | cons tokens front ih =>
    by_cases last : front = []
    · subst last
      exact parted_cons mark tokens more
    · rw [List.cons_append, parted_cons _ _ (by simp [last]), ih last, parted_cons _ _ last,
        List.append_assoc]
      rfl

theorem parted_flatten (mark : Token) {lists : List (List (List Token))}
    (some : ∀ entries ∈ lists, entries ≠ []) :
    parted mark (lists.map (parted mark)) = parted mark lists.flatten := by
  induction lists with
  | nil => rfl
  | cons entries lists ih =>
    have later := ih fun e member => some e (List.mem_cons_of_mem _ member)
    by_cases last : lists = []
    · subst last
      simp [parted]
    · have more : lists.flatten ≠ [] := by
        obtain ⟨second, others, rfl⟩ := List.exists_cons_of_ne_nil last
        have := some second (by simp)
        simp [this]
      rw [List.map_cons, parted_cons _ _ (by simpa using last), later, List.flatten_cons,
        parted_append mark (some entries List.mem_cons_self) more]

theorem Spells.joined {between : String} {mark : Token} (separates : Separates between mark)
    {texts : List String} {runs : List (List Token)} (some : texts ≠ [])
    (all : List.Forall₂ Spells texts runs) :
    Spells (GoSpy.joined between texts) (parted mark runs) := by
  induction all with
  | nil => exact absurd rfl some
  | @cons text tokens texts runs first later ih =>
    by_cases last : texts = []
    · subst last
      cases later
      exact first
    · have more : runs ≠ [] := by
        rintro rfl
        cases later
        exact last rfl
      intro owed rest boundary
      rw [joined_cons _ _ last, parted_cons _ _ more]
      simp only [String.toList_append, List.append_assoc]
      refine (first owed _ ?_).append ?_
      · rw [List.append_assoc]
        exact separates.boundary _
      · exact (separates.flows true _).append (ih last false rest boundary)

theorem Scan.Flows.listed {«open» close : Token} (opens : «open».standsAlone = true)
    (closes : close.standsAlone = true) {texts : List String} {runs : List (List Token)}
    (all : List.Forall₂ Spells texts runs) (owed : Bool) (rest : List Char) :
    Flows owed («open».spelling ++ joined ", " texts ++ close.spelling).toList
      («open» :: (parted .comma runs ++ [close])) close.endsStatement rest := by
  rw [String.append_assoc]
  refine (Flows.mark opens owed _).cons_text ?_
  by_cases empty : texts = []
  · subst empty
    cases all
    exact .mark closes _ rest
  · exact (Spells.joined separates_comma empty all).closed closes _ rest

theorem lines_parted {entries : List (List Token)} (some : entries ≠ []) :
    Lines entries (parted .semicolon entries) := by
  induction entries with
  | nil => exact absurd rfl some
  | cons entry entries ih =>
    by_cases last : entries = []
    · subst last
      exact .last entry
    · rw [parted_cons _ _ last]
      exact .more entry (ih last)

/- Array lengths -/

def lengthTokens? (length : String) : Option (List Token) :=
  match Scan.pieces (length.toList.length + 1) 1 (length.toList ++ [']']) with
  | .error _ => none
  | .ok pieces =>
    if pieces.getLast? = some (.token .closeBracket) then some (Scan.flow false pieces.dropLast).1
    else none

theorem lengthTokens_flows {length : String} {tokens : List Token}
    (cut : lengthTokens? length = some tokens) (rest : List Char) :
    Flows false (length ++ "]").toList (tokens ++ [.closeBracket]) true rest := by
  unfold lengthTokens? at cut
  split at cut
  · cases cut
  rename_i ps run
  split at cut
  · rename_i last
    obtain rfl := Option.some.inj cut
    obtain ⟨qs, rfl⟩ := List.getLast?_eq_some_iff.mp last
    have cuts := cuts_of_pieces (by simp) run
    rw [String.toList_append]
    refine ⟨_, cuts.append_text rfl (by simp) rest, ?_⟩
    rw [flow_append]
    simp [flow, Token.endsStatement]
  · cases cut

theorem lengthPart_eq_some {depth : Nat} {tokens front rest : List Token}
    (found : lengthPart depth tokens = some (front, rest)) :
    tokens = front ++ .closeBracket :: rest ∧
      ∀ rest', lengthPart depth (front ++ .closeBracket :: rest') = some (front, rest') := by
  induction tokens generalizing depth front with
  | nil => cases found
  | cons t tokens ih =>
    rw [lengthPart.eq_def] at found
    dsimp only at found
    split at found
    · rename_i closes
      obtain ⟨rfl, rfl⟩ := Prod.mk.inj (Option.some.inj found)
      simp only [Bool.and_eq_true, decide_eq_true_eq, beq_iff_eq] at closes
      obtain ⟨rfl, rfl⟩ := closes
      exact ⟨rfl, fun _ => rfl⟩
    · rename_i inside
      obtain ⟨⟨front', behind⟩, later, same⟩ := Option.map_eq_some_iff.mp found
      obtain ⟨rfl, rfl⟩ := Prod.mk.inj same
      obtain ⟨rfl, again⟩ := ih later
      refine ⟨rfl, fun rest' => ?_⟩
      rw [List.cons_append, lengthPart.eq_def]
      dsimp only
      rw [if_neg inside, again]
      rfl

theorem beyond_of_balance {tokens : List Token} {depth : Nat}
    (balance : bracketsBalance depth tokens = true) (more : Nat) (rest : List Token) :
    beyond (more + 1 + depth) (tokens ++ rest) = beyond (more + 1) rest := by
  fun_induction bracketsBalance depth tokens with
  | case1 depth =>
    obtain rfl : depth = 0 := by simpa using balance
    rfl
  | case2 depth tokens ih => exact ih balance
  | case3 depth tokens ih =>
    simp only [Bool.and_eq_true, bne_iff_ne, ne_eq] at balance
    obtain ⟨inside, balance⟩ := balance
    have deep : ¬ more + 1 + depth ≤ 1 := by omega
    rw [List.cons_append, beyond, if_neg deep, ← ih balance]
    congr 1
    omega
  | case4 depth t tokens notOpen notClose ih =>
    rw [← ih balance, List.cons_append]
    cases t <;> first | rfl | contradiction

theorem bracketed_tokens (qs : List Piece) :
    (Cursor.ofLexemes (settle false 1 (qs ++ [.token .closeBracket]))).tokens =
      (flow false qs).1 ++ [.closeBracket, .semicolon] := by
  refine (settle_tokens false 1 _).trans ?_
  rw [flow_append]
  simp [flow, due, Token.endsStatement]

theorem arrayLength_eq_ok {s s' : Cursor} {length : String}
    (run : Grammar.arrayLength s = .ok (length, s')) :
    ∃ front, lengthPart 0 s.tokens = some (front, s'.tokens) ∧
      String.join (front.map Grammar.lengthSpelling) = length := by
  unfold Grammar.arrayLength at run
  split at run
  · rename_i front rest taken
    obtain ⟨rfl, rfl⟩ := Prod.mk.inj (Except.ok.inj run)
    have tokens := lengthTokens_tokens 0 s.rest
    rw [taken] at tokens
    exact ⟨front, tokens.symm, rfl⟩
  · cases run

theorem arrayLength_flows {length : String} (fits : isArrayLength length = true) :
    ∃ tokens, LengthTokens length tokens ∧ ∀ rest,
      Flows false (length ++ "]").toList (tokens ++ [.closeBracket]) true rest := by
  unfold isArrayLength at fits
  split at fits
  · cases fits
  rename_i ps run
  simp only [Bool.and_eq_true, beq_iff_eq, bne_iff_ne, ne_eq] at fits
  obtain ⟨⟨⟨last, notEmpty⟩, read⟩, brackets⟩ := fits
  obtain ⟨qs, rfl⟩ := List.getLast?_eq_some_iff.mp last
  have cut : lengthTokens? length = some (flow false qs).1 := by
    simp [lengthTokens?, run]
  split at read
  · rename_i text behind sizeRun
    simp only [Bool.and_eq_true, beq_iff_eq] at read
    obtain ⟨rfl, left⟩ := read
    obtain ⟨front, found, spelling⟩ := arrayLength_eq_ok sizeRun
    rw [bracketed_tokens, Cursor.tokens, left] at found
    obtain ⟨whole, again⟩ := lengthPart_eq_some found
    obtain rfl : front = (flow false qs).1 := (List.append_cancel_right whole).symm
    refine ⟨(flow false qs).1, ⟨?_, again, ?_, spelling⟩, lengthTokens_flows cut⟩
    · intro empty
      rw [Cursor.peek_eq, bracketed_tokens, empty] at notEmpty
      exact notEmpty rfl
    · have tokens : (Cursor.tokens _).dropLast.dropLast = (flow false qs).1 :=
        (congrArg (·.dropLast.dropLast) (bracketed_tokens qs)).trans (by simp)
      rw [Cursor.tokens] at tokens
      rw [tokens] at brackets
      exact fun depth rest => beyond_of_balance brackets depth rest
  · cases read

/- Tags -/

theorem isStringLiteral_flows {text : String} (literal : isStringLiteral text = true)
    (owed : Bool) (rest : List Char) : Flows owed text.toList [.string text] true rest := by
  unfold isStringLiteral at literal
  split at literal
  · rename_i written run
    have whole : written.toList ++ [] = text.toList := piece_splits run
    obtain rfl : written = text := String.toList_inj.mp (by simpa using whole)
    refine .token (t := .string written) owed (piece_of_front ?_)
    rw [Token.spelling]
    generalize written.toList = chars at run
    cases front_of_piece run with
    | string run => exact .string (quotedBody_append rest run)
    | raw run => exact .raw (rawBody_append rest run)
    | operator _ _ _ _ _ run => cases operator_symbol run
  · cases literal

end GoSpy
