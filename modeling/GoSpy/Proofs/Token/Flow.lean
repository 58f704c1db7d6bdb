import GoSpy.Proofs.Token.Cutting
/- How a stretch of text turns into tokens wherever it stands: the tokens, and whether a
   semicolon is owed behind them. Stretches follow one another as long as the first one may
   stand in front of the second. -/
namespace GoSpy.Scan

/-- In front of `rest`, and with or without a semicolon owed before, `text` gives `tokens`. -/
def Flows (owed : Bool) (text : List Char) (tokens : List Token) (owes : Bool)
    (rest : List Char) : Prop :=
  ∃ ps, Cuts (text ++ rest) ps rest ∧ flow owed ps = (tokens, owes)

namespace Flows

theorem nothing (owed : Bool) (rest : List Char) : Flows owed [] [] owed rest :=
  ⟨[], .done rest, rfl⟩

theorem append {owed middle owes : Bool} {front back rest : List Char} {ts us : List Token}
    (first : Flows owed front ts middle (back ++ rest)) (second : Flows middle back us owes rest) :
    Flows owed (front ++ back) (ts ++ us) owes rest := by
  obtain ⟨ps, cuts, flows⟩ := first
  obtain ⟨qs, cuts', flows'⟩ := second
  refine ⟨ps ++ qs, ?_, ?_⟩
  · rw [List.append_assoc]
    exact cuts.append cuts'
  · rw [flow_append, flows]
    simp [flows']

theorem append_text {owed middle owes : Bool} {front back : String} {rest : List Char}
    {ts us : List Token} (first : Flows owed front.toList ts middle (back.toList ++ rest))
    (second : Flows middle back.toList us owes rest) :
    Flows owed (front ++ back).toList (ts ++ us) owes rest := by
  rw [String.toList_append]
  exact first.append second

theorem cons_text {owed middle owes : Bool} {front back : String} {rest : List Char} {t : Token}
    {ts : List Token} (first : Flows owed front.toList [t] middle (back.toList ++ rest))
    (second : Flows middle back.toList ts owes rest) :
    Flows owed (front ++ back).toList (t :: ts) owes rest :=
  first.append_text second

theorem token {t : Token} {rest : List Char} (owed : Bool)
    (run : piece (t.spelling.toList ++ rest) = .ok (.token t, rest)) :
    Flows owed t.spelling.toList [t] t.endsStatement rest := by
  refine ⟨[.token t], ?_, rfl⟩
  cases text : t.spelling.toList ++ rest with
  | nil =>
    rw [text] at run
    cases run
  | cons c tail => exact .step (text ▸ run) (.done rest)

theorem gap {text rest : List Char} (owed : Bool)
    (run : piece (text ++ rest) = .ok (.gap text, rest)) (some : text ≠ [])
    (oneLine : '\n' ∉ text) : Flows owed text [] owed rest := by
  refine ⟨[.gap text], ?_, ?_⟩
  · obtain ⟨c, tail, rfl⟩ := List.exists_cons_of_ne_nil some
    exact .step run (.done rest)
  · simp [flow, oneLine]

theorem space (owed : Bool) (rest : List Char) : Flows owed [' '] [] owed rest :=
  gap owed rfl (by simp) (by decide)

theorem space_text {owed owes : Bool} {text : String} {rest : List Char} {ts : List Token}
    (behind : Flows owed text.toList ts owes rest) :
    Flows owed (" " ++ text).toList ts owes rest := by
  rw [← List.nil_append ts]
  exact (space owed _).append_text behind

theorem tab (owed : Bool) (rest : List Char) : Flows owed ['\t'] [] owed rest :=
  gap owed rfl (by simp) (by decide)

theorem newline (owed : Bool) (rest : List Char) : Flows owed ['\n'] (due owed) false rest := by
  refine ⟨[.gap ['\n']], .step rfl (.done rest), ?_⟩
  cases owed <;> rfl

end Flows

end GoSpy.Scan

namespace GoSpy

def Token.standsAlone : Token → Bool
  | openBrace | closeBrace | openBracket | closeBracket | openParen | closeParen => true
  | comma | semicolon | tilde | arrow | ellipsis => true
  | _ => false

namespace Scan

theorem piece_standsAlone {t : Token} (alone : t.standsAlone = true) (rest : List Char) :
    piece (t.spelling.toList ++ rest) = .ok (.token t, rest) := by
  cases t <;> first | rfl | simp [Token.standsAlone] at alone

theorem Flows.mark {t : Token} (alone : t.standsAlone = true) (owed : Bool) (rest : List Char) :
    Flows owed t.spelling.toList [t] t.endsStatement rest :=
  .token owed (piece_standsAlone alone rest)

def Boundary (rest : List Char) : Prop := ∀ c ∈ rest.head?, Text.continuesName c = false

theorem boundary_cons {c : Char} {rest : List Char} (ends : Text.continuesName c = false) :
    Boundary (c :: rest) := by
  simp [Boundary, ends]

theorem boundary_text {front back : String} {rest : List Char}
    (ends : front.toList.head?.any (fun c => !Text.continuesName c) = true) :
    Boundary ((front ++ back).toList ++ rest) := by
  cases shape : front.toList with
  | nil => simp [shape] at ends
  | cons c more =>
    have last : Text.continuesName c = false := by simpa [shape] using ends
    rw [String.toList_append, shape]
    exact boundary_cons last

theorem Flows.word {w : String} (isWord : Text.isWord w = true) (owed : Bool)
    {rest : List Char} (boundary : Boundary rest) :
    Flows owed w.toList [.word w] (Token.word w).endsStatement rest := by
  refine token (t := .word w) owed (piece_of_front ?_)
  obtain ⟨c, tail, shape, starts, continues⟩ := (Text.isWord_iff w).mp isWord
  have front := Front.word starts (tail ++ rest)
  have taken : (tail ++ rest).takeWhile Text.continuesName = tail := by
    rw [List.takeWhile_append_of_pos continues]
    cases rest with
    | nil => simp
    | cons d more => simp [boundary d (by simp)]
  have dropped : (tail ++ rest).dropWhile Text.continuesName = rest := by
    rw [List.dropWhile_append_of_pos continues]
    cases rest with
    | nil => rfl
    | cons d more => simp [boundary d (by simp)]
  rw [taken, dropped, ← shape, String.ofList_toList] at front
  rwa [Token.spelling, shape]

theorem Flows.star (owed : Bool) {c : Char} {rest : List Char} (apart : c ≠ '=') :
    Flows owed ['*'] [.star] false (c :: rest) := by
  have noLonger : longOperators.find? (·.isPrefixOf ('*' :: c :: rest)) = none := by
    simp [longOperators, List.isPrefixOf, Ne.symm apart]
  have run : operator ('*' :: c :: rest) = .ok (.token .star, c :: rest) := by
    simp only [operator, noLonger]
    rfl
  have front : Front ('*' :: c :: rest) (.token .star) (c :: rest) :=
    .operator ⟨by decide, by decide, by decide, by decide⟩ rfl (by decide) (by simp) (by simp) run
  exact token (t := .star) owed (piece_of_front front)

theorem Flows.dot (owed : Bool) {c : Char} {rest : List Char}
    (starts : Text.startsName c = true) : Flows owed ['.'] [.dot] false (c :: rest) := by
  have apart : c ≠ '.' := by
    rintro rfl
    exact absurd starts (by decide)
  have noLonger : longOperators.find? (·.isPrefixOf ('.' :: c :: rest)) = none := by
    simp [longOperators, List.isPrefixOf, Ne.symm apart]
  have run : operator ('.' :: c :: rest) = .ok (.token .dot, c :: rest) := by
    simp only [operator, noLonger]
    rfl
  have notNumber : startsNumber ('.' :: c :: rest) = false := Text.isDigit_of_startsName starts
  have front : Front ('.' :: c :: rest) (.token .dot) (c :: rest) :=
    .operator ⟨by decide, by decide, by decide, by decide⟩ notNumber (by decide) (by simp)
      (by simp) run
  exact token (t := .dot) owed (piece_of_front front)

end Scan

end GoSpy
