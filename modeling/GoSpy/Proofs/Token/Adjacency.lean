import GoSpy.Proofs.Grammar.SafeTexts
/- Tokens that are written with nothing between them. A token is cut off in front of a text exactly
   if it does not run on into it: as more of a word or a number, as a longer operator, or as the
   start of a comment. -/
namespace GoSpy

namespace Scan

def continuesNumber (hex : Bool) (before c : Char) : Bool :=
  c.isAlphanum || c == '_' || c == '.' || ((c == '+' || c == '-') && isExponentMark hex before)

def growsOperator (symbol behind : List Char) : Bool :=
  longOperators.any fun o => symbol.length < o.length && o.isPrefixOf (symbol ++ behind)

def opensOther (text : List Char) : Bool :=
  startsNumber text || ['/', '/'].isPrefixOf text || ['/', '*'].isPrefixOf text

end Scan

/-- Whether a token does not end where a text stands directly behind it. -/
def Token.runsOn : Token → List Char → Bool
  | .string _, _ | .rune _, _ => false
  | .word _, behind => behind.head?.any Text.continuesName
  | .number text, behind =>
    behind.head?.any fun c =>
      text.toList.getLast?.any fun last =>
        Scan.continuesNumber (Scan.isHex text.toList) last c
  | t, behind =>
    Scan.growsOperator t.spelling.toList behind || Scan.opensOther (t.spelling.toList ++ behind)

namespace Scan

/- Tokens on their own -/

theorem numberBody_alone (hex : Bool) (before : Char) (text : List Char) :
    numberBody hex before (numberBody hex before text).1 = ((numberBody hex before text).1, []) := by
  induction text generalizing before with
  | nil => rfl
  | cons c rest ih =>
    rw [numberBody]
    split
    · rename_i goesOn
      simp only [numberBody, if_pos goesOn, ih c]
    · rfl

theorem goesOn_of_isHex {c d : Char} {rest : List Char} (hex : isHex (c :: d :: rest) = true)
    (base : Bool) : continuesNumber base c d = true := by
  unfold isHex at hex
  split at hex
  · rename_i same
    obtain ⟨-, same⟩ := List.cons.inj same
    obtain ⟨rfl, -⟩ := List.cons.inj same
    rcases Bool.or_eq_true_iff.mp hex with lower | upper
    · rw [eq_of_beq lower]
      rfl
    · rw [eq_of_beq upper]
      rfl
  · cases hex

theorem goesOn_of_dot {d : Char} {rest : List Char} (starts : startsNumber ('.' :: d :: rest) = true)
    (base : Bool) : continuesNumber base '.' d = true := by
  have digit : d.isDigit = true := starts
  simp [continuesNumber, Char.isAlphanum, digit]

theorem number_front {c : Char} {rest : List Char} (starts : startsNumber (c :: rest) = true) :
    startsNumber (c :: (numberBody (isHex (c :: rest)) c rest).1) = true ∧
      isHex (c :: (numberBody (isHex (c :: rest)) c rest).1) = isHex (c :: rest) := by
  cases rest with
  | nil => exact ⟨starts, rfl⟩
  | cons d rest =>
    generalize base : isHex (c :: d :: rest) = hex
    by_cases goesOn : continuesNumber hex c d = true
    · have shape : (numberBody hex c (d :: rest)).1 = d :: (numberBody hex d rest).1 := by
        unfold continuesNumber at goesOn
        rw [numberBody, if_pos goesOn]
      rw [shape]
      exact ⟨(startsNumber_pair c d _ rest).trans starts, (isHex_pair c d _ rest).trans base⟩
    · have shape : (numberBody hex c (d :: rest)).1 = [] := by
        unfold continuesNumber at goesOn
        rw [numberBody, if_neg goesOn]
      have notDot : c ≠ '.' := by
        rintro rfl
        exact goesOn (goesOn_of_dot starts hex)
      have notHex : hex = false := by
        by_contra isHex
        rw [Bool.not_eq_false] at isHex
        exact goesOn (goesOn_of_isHex (base.trans isHex) hex)
      rw [startsNumber.eq_2 c _ fun _ _ same _ => notDot same] at starts
      rw [shape, notHex]
      exact ⟨by rwa [startsNumber.eq_2 c _ fun _ _ same _ => notDot same], by simp [isHex]⟩

theorem longOperator_alone {c : Char} : longOperators.find? (·.isPrefixOf [c]) = none := by
  have long : ∀ o ∈ longOperators, 1 < o.length := by decide
  rw [List.find?_eq_none]
  intro o member front
  have short := (List.isPrefixOf_iff_prefix.mp front).length_le
  have := long o member
  simp only [List.length_cons, List.length_nil] at short
  omega

theorem operator_alone {c : Char} {text rest : List Char} {t : Token}
    (run : operator (c :: text) = .ok (.token t, rest)) :
    operator t.spelling.toList = .ok (.token t, []) := by
  unfold operator at run
  split at run
  · rename_i o found
    have alone : ∀ o ∈ longOperators, operator o = .ok (.token (ofLongOperator o), []) := by
      decide +kernel
    obtain ⟨same, -⟩ := Prod.mk.inj (Except.ok.inj run)
    rw [← Piece.token.inj same, ofLongOperator_spelling]
    exact alone o (List.mem_of_find?_eq_some found)
  · dsimp only at run
    split at run
    · rename_i mark
      obtain ⟨same, -⟩ := Prod.mk.inj (Except.ok.inj run)
      rw [← Piece.token.inj same, ofMark_spelling mark]
      simp only [operator, longOperator_alone, mark]
    · cases run

theorem opensOther_eq_false {text : List Char} :
    opensOther text = false ↔ startsNumber text = false ∧
      (∀ more, text ≠ '/' :: '/' :: more) ∧ ∀ more, text ≠ '/' :: '*' :: more := by
  have opens (c d : Char) : [c, d].isPrefixOf text = false ↔ ∀ more, text ≠ c :: d :: more := by
    rw [← Bool.not_eq_true, List.isPrefixOf_iff_prefix]
    constructor
    · rintro other more rfl
      exact other ⟨more, rfl⟩
    · rintro other ⟨more, rfl⟩
      exact other more rfl
  rw [opensOther, Bool.or_eq_false_iff, Bool.or_eq_false_iff, opens, opens, and_assoc]

/- Tokens in front of a text -/

theorem numberBody_behind {hex : Bool} {before : Char} {text : List Char}
    (whole : numberBody hex before text = (text, [])) (behind : List Char) :
    (numberBody hex before (text ++ behind)).2 =
      (numberBody hex (text.getLast?.getD before) behind).2 := by
  induction text generalizing before with
  | nil => rfl
  | cons c rest ih =>
    unfold numberBody at whole
    split at whole
    · rename_i goesOn
      have whole' : numberBody hex c rest = (rest, []) := by
        obtain ⟨same, ends⟩ := Prod.mk.inj whole
        exact Prod.ext (List.cons.inj same).2 ends
      rw [List.cons_append, numberBody, if_pos goesOn, List.getLast?_cons]
      exact ih whole'
    · cases whole

theorem numberBody_stops {hex : Bool} {before : Char} {text : List Char} :
    (numberBody hex before text).2 = text ↔
      text.head?.any (continuesNumber hex before) = false := by
  cases text with
  | nil => exact ⟨fun _ => rfl, fun _ => rfl⟩
  | cons c rest =>
    have goesOn : continuesNumber hex before c = true →
        (numberBody hex before (c :: rest)).2 = (numberBody hex c rest).2 := by
      intro goesOn
      unfold continuesNumber at goesOn
      rw [numberBody, if_pos goesOn]
    have stops : continuesNumber hex before c = false →
        (numberBody hex before (c :: rest)).2 = c :: rest := by
      intro stops
      unfold continuesNumber at stops
      rw [numberBody, if_neg (by simp [stops])]
    rw [List.head?_cons, Option.any_some]
    constructor
    · intro same
      by_contra other
      rw [goesOn (by simpa using other)] at same
      have whole := congrArg List.length (numberBody_splits hex c rest)
      simp only [List.length_append, same, List.length_cons] at whole
      omega
    · exact stops

theorem number_ends {c : Char} {tail : List Char}
    (whole : numberBody (isHex (c :: tail)) c tail = (tail, [])) (behind : List Char) :
    (numberBody (isHex (c :: (tail ++ behind))) c (tail ++ behind)).2 = behind ↔
      behind.head?.any (continuesNumber (isHex (c :: tail)) (tail.getLast?.getD c)) = false := by
  cases tail with
  | cons d tail =>
    rw [List.cons_append, isHex_pair c d _ tail, ← List.cons_append, numberBody_behind whole]
    exact numberBody_stops
  | nil =>
    have short : isHex [c] = false := by simp [isHex]
    rw [List.nil_append, numberBody_stops, short]
    cases behind with
    | nil => exact Iff.rfl
    | cons d rest =>
      cases base : isHex (c :: d :: rest) with
      | false => exact Iff.rfl
      | true =>
        rw [List.head?_cons, Option.any_some, Option.any_some, goesOn_of_isHex base]
        simp [goesOn_of_isHex base]

theorem startsNumber_append {c : Char} {tail : List Char} (starts : startsNumber (c :: tail) = true)
    (behind : List Char) : startsNumber (c :: (tail ++ behind)) = true := by
  cases tail with
  | cons d tail => exact (startsNumber_pair c d _ tail).trans starts
  | nil =>
    have notDot : c ≠ '.' := by
      rintro rfl
      cases starts
    rw [startsNumber.eq_2 c _ fun _ _ same _ => notDot same] at starts ⊢
    exact starts

theorem piece_same {front text rest : List Char} {t u : Token} (spelled : t.spelling.toList = front)
    (run : piece (front ++ text) = .ok (.token u, rest)) (kind : u.spelling = t.spelling → u = t) :
    piece (front ++ text) = .ok (.token t, text) ↔ rest = text := by
  rw [run]
  constructor
  · intro same
    exact (Prod.mk.inj (Except.ok.inj same)).2
  · rintro rfl
    have whole : u.spelling.toList ++ rest = front ++ rest := piece_splits run
    rw [← spelled] at whole
    rw [kind (String.toList_inj.mp (List.append_cancel_right whole))]

theorem word_behind_iff {w : String} (isWord : Text.isWord w = true) (behind : List Char) :
    piece (w.toList ++ behind) = .ok (.token (.word w), behind) ↔
      behind.head?.any Text.continuesName = false := by
  obtain ⟨c, tail, shape, starts, continues⟩ := (Text.isWord_iff w).mp isWord
  have run := piece_of_front (Front.word starts (tail ++ behind))
  rw [← List.cons_append, ← shape, List.dropWhile_append_of_pos continues] at run
  refine (piece_same (t := .word w) rfl run (congrArg Token.word)).trans ?_
  cases behind with
  | nil => exact ⟨fun _ => rfl, fun _ => rfl⟩
  | cons d rest => simp [List.dropWhile_eq_self_iff]

theorem number_behind_iff {c : Char} {tail : List Char} (starts : startsNumber (c :: tail) = true)
    (whole : numberBody (isHex (c :: tail)) c tail = (tail, [])) (behind : List Char) :
    piece (c :: tail ++ behind) = .ok (.token (.number (String.ofList (c :: tail))), behind) ↔
      behind.head?.any (continuesNumber (isHex (c :: tail)) (tail.getLast?.getD c)) = false := by
  have run := piece_of_front (Front.number (startsNumber_append starts behind))
  let t : Token := .number (String.ofList (c :: tail))
  have spelled : t.spelling.toList = c :: tail := String.toList_ofList
  exact (piece_same spelled run (congrArg Token.number)).trans (number_ends whole behind)

theorem longOperator_longest {text found o : List Char}
    (first : longOperators.find? (·.isPrefixOf text) = some found) (member : o ∈ longOperators)
    (front : o.isPrefixOf text = true) : o.length ≤ found.length := by
  have sorted : longOperators.Pairwise fun o o' => o'.length ≤ o.length := by decide
  obtain ⟨_, earlier, later, shape, none⟩ := List.find?_eq_some_iff_append.mp first
  rw [shape] at sorted member
  rcases List.mem_append.mp member with before | behind
  · have other := none o before
    simp [front] at other
  · rcases List.mem_cons.mp behind with rfl | behind
    · exact le_rfl
    · exact List.rel_of_pairwise_cons (List.pairwise_append.mp sorted).2.1 behind

theorem longOperator_whole {symbol behind : List Char}
    (short : growsOperator symbol behind = false) :
    longOperators.find? (·.isPrefixOf (symbol ++ behind)) =
      longOperators.find? (·.isPrefixOf symbol) := by
  apply List.find?_congr
  intro o member
  rw [Bool.eq_iff_iff, List.isPrefixOf_iff_prefix, List.isPrefixOf_iff_prefix]
  constructor
  · intro front
    have notLonger := List.any_eq_false.mp short o member
    have fits : o.length ≤ symbol.length := by
      by_contra long
      exact notLonger (Bool.and_eq_true_iff.mpr
        ⟨decide_eq_true (by omega), List.isPrefixOf_iff_prefix.mpr front⟩)
    exact List.prefix_of_prefix_length_le front (List.prefix_append symbol behind) fits
  · intro front
    exact front.trans (List.prefix_append symbol behind)

theorem operator_behind_iff {c : Char} {more : List Char} {t : Token}
    (alone : operator (c :: more) = .ok (.token t, [])) (behind : List Char) :
    operator (c :: more ++ behind) = .ok (.token t, behind) ↔
      growsOperator (c :: more) behind = false := by
  constructor
  · -- The longest operator is taken, so one that goes on into `behind` would leave less.
    intro run
    rw [growsOperator, List.any_eq_false]
    intro o member longer
    obtain ⟨long, front⟩ := Bool.and_eq_true_iff.mp longer
    have long := of_decide_eq_true long
    unfold operator at run
    split at run
    · rename_i found first
      have atLeast := longOperator_longest first member front
      have taken := congrArg List.length (Prod.mk.inj (Except.ok.inj run)).2
      have fits : found <+: c :: more ++ behind := by simpa using List.find?_some first
      have := fits.length_le
      rw [List.length_drop, List.length_append] at taken
      rw [List.length_append] at this
      omega
    · rename_i none
      exact absurd front (List.find?_eq_none.mp none o member)
  · intro short
    unfold operator at alone ⊢
    rw [longOperator_whole short]
    split at alone
    · rename_i found first
      have fits : found <+: c :: more := by simpa using List.find?_some first
      obtain ⟨same, ends⟩ := Prod.mk.inj (Except.ok.inj alone)
      rw [List.drop_append_of_le_length fits.length_le, ends, ← same]
      rfl
    · dsimp only at alone
      split at alone
      · rename_i mark
        obtain ⟨same, ends⟩ := Prod.mk.inj (Except.ok.inj alone)
        rw [List.cons_append, ends, ← same]
        simp only [mark]
        rfl
      · cases alone

theorem symbol_behind_iff {c : Char} {more : List Char} {t : Token} (bare : Bare c)
    (notWord : Text.startsName c = false) (alone : operator (c :: more) = .ok (.token t, []))
    (behind : List Char) :
    piece (c :: more ++ behind) = .ok (.token t, behind) ↔
      (growsOperator (c :: more) behind || opensOther (c :: more ++ behind)) = false := by
  rw [Bool.or_eq_false_iff, ← operator_behind_iff alone, opensOther_eq_false]
  constructor
  · intro run
    have symbol := operator_symbol alone
    generalize whole : c :: more ++ behind = text at run
    cases piece_eq_ok.mp run with
    | operator _ notNumber _ notLine notBlock run => exact ⟨run, notNumber, notLine, notBlock⟩
    | string | raw | rune | number | word => cases symbol
  · rintro ⟨run, notNumber, notLine, notBlock⟩
    exact piece_of_front (.operator bare notNumber notWord notLine notBlock run)

theorem runsOn_symbol {t : Token} (symbol : t.isSymbol = true) (behind : List Char) :
    t.runsOn behind =
      (growsOperator t.spelling.toList behind || opensOther (t.spelling.toList ++ behind)) := by
  cases t <;> first | rfl | cases symbol

theorem piece_behind_iff {text rest : List Char} {t : Token}
    (run : piece text = .ok (.token t, rest)) (behind : List Char) :
    piece (t.spelling.toList ++ behind) = .ok (.token t, behind) ↔ t.runsOn behind = false := by
  cases piece_eq_ok.mp run with
  | string run =>
    have front := Front.string (quotedBody_append behind (quotedBody_alone run))
    simpa [Token.spelling, Token.runsOn] using piece_of_front front
  | raw run =>
    have front := Front.raw (rawBody_append behind (rawBody_alone run))
    simpa [Token.spelling, Token.runsOn] using piece_of_front front
  | rune run =>
    have front := Front.rune (quotedBody_append behind (quotedBody_alone run))
    simpa [Token.spelling, Token.runsOn] using piece_of_front front
  | @number c tail starts =>
    obtain ⟨starts', base⟩ := number_front starts
    have alone := numberBody_alone (isHex (c :: tail)) c tail
    generalize (numberBody (isHex (c :: tail)) c tail).1 = body at starts' base alone ⊢
    rw [← base] at alone
    simpa [Token.spelling, Token.runsOn, List.getLast?_cons] using
      number_behind_iff starts' alone behind
  | @word c starts tail => exact word_behind_iff (piece_word run) behind
  | @operator c tail behind' p bare notNumber notWord notLine notBlock run =>
    have whole : t.spelling.toList ++ rest = c :: tail := operator_splits run
    have alone := operator_alone run
    rw [runsOn_symbol (operator_symbol run)]
    generalize t.spelling.toList = symbol at whole alone ⊢
    cases symbol with
    | nil => cases alone
    | cons d more =>
      obtain ⟨rfl, -⟩ := List.cons.inj whole
      exact symbol_behind_iff bare notWord alone behind

/- Tokens of a text -/

def Found (t : Token) : Prop := ∃ text rest, piece text = .ok (.token t, rest)

theorem Found.front {t : Token} (found : Found t) :
    ∃ c more, t.spelling.toList = c :: more ∧ Text.isBlank c = false ∧ c ≠ '\ufeff' := by
  obtain ⟨text, rest, run⟩ := found
  have whole : t.spelling.toList ++ rest = text := piece_splits run
  cases text with
  | nil => cases run
  | cons c tail =>
    have shorter := piece_shrinks run
    cases spelled : t.spelling.toList with
    | nil =>
      rw [spelled, List.nil_append] at whole
      rw [whole] at shorter
      omega
    | cons d more =>
      rw [spelled] at whole
      obtain ⟨rfl, -⟩ := List.cons.inj whole
      refine ⟨d, more, rfl, ?_, ?_⟩
      · by_contra blank
        rw [Bool.not_eq_false] at blank
        rw [piece_of_front (.blank blank tail)] at run
        cases run
      · rintro rfl
        rw [piece_mark] at run
        cases run

theorem Cuts.found {text rest : List Char} {ps : List Piece} (cuts : Cuts text ps rest) {t : Token}
    (member : .token t ∈ ps) : Found t := by
  induction cuts with
  | done => cases member
  | step first _ ih =>
    rcases List.mem_cons.mp member with rfl | later
    · exact ⟨_, _, first⟩
    · exact ih later

theorem mem_due {owed : Bool} {t : Token} (member : t ∈ due owed) : t = .semicolon := by
  unfold due at member
  split at member
  · exact List.mem_singleton.mp member
  · cases member

end Scan

open Scan in
theorem Lexemes.ofText_found {text : String} {l : Lexemes} (run : ofText text = .ok l) :
    ∀ x ∈ l.items, Found x.token := by
  intro x member
  obtain ⟨ps, cuts, rfl⟩ := ofText_eq_ok run
  have semicolon : Found .semicolon := ⟨[';'], [], rfl⟩
  have token := List.mem_map_of_mem (f := Lexeme.token) member
  rw [settle_tokens, List.mem_append] at token
  rcases token with inFlow | final
  · rcases mem_flow inFlow with same | piece
    · rwa [same]
    · exact cuts.found piece
  · rwa [mem_due final]

end GoSpy
