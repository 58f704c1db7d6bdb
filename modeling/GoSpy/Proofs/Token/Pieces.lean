import GoSpy.Token.Scan
import GoSpy.Proofs.Text.Names
/- What the scanner finds in front of a text, one constructor for each of its cases. A piece and
   the text behind it make up the whole text, and words are what names may be. -/
namespace GoSpy

def Token.isSymbol : Token → Bool
  | word _ | string _ | rune _ | number _ => false
  | _ => true

theorem Piece.lines_le (p : Piece) : p.lines ≤ p.text.count '\n' := by
  unfold lines text
  split
  · exact le_rfl
  · split
    · exact le_rfl
    · exact Nat.zero_le _
  · exact Nat.zero_le _

namespace Scan

structure Bare (c : Char) : Prop where
  notBlank : Text.isBlank c = false
  notString : c ≠ '"'
  notRaw : c ≠ '\x60'
  notRune : c ≠ '\x27'

inductive Front : List Char → Piece → List Char → Prop where
  | nothing : Front [] (.gap []) []
  | lineComment (rest : List Char) :
      Front ('/' :: '/' :: rest) (.gap ('/' :: '/' :: rest.takeWhile (· ≠ '\n')))
        (rest.dropWhile (· ≠ '\n'))
  | blockComment {rest body behind : List Char} (run : commentBody rest = some (body, behind)) :
      Front ('/' :: '*' :: rest) (.gap ('/' :: '*' :: body)) behind
  | blank {c : Char} (blank : Text.isBlank c = true) (rest : List Char) :
      Front (c :: rest) (.gap [c]) rest
  | string {rest body behind : List Char} (run : quotedBody '"' rest = some (body, behind)) :
      Front ('"' :: rest) (.token (.string (String.ofList ('"' :: body)))) behind
  | raw {rest body behind : List Char} (run : rawBody rest = some (body, behind)) :
      Front ('\x60' :: rest) (.token (.string (String.ofList ('\x60' :: body)))) behind
  | rune {rest body behind : List Char} (run : quotedBody '\x27' rest = some (body, behind)) :
      Front ('\x27' :: rest) (.token (.rune (String.ofList ('\x27' :: body)))) behind
  | number {c : Char} {rest : List Char} (starts : startsNumber (c :: rest) = true) :
      Front (c :: rest)
        (.token (.number (String.ofList (c :: (numberBody (isHex (c :: rest)) c rest).1))))
        (numberBody (isHex (c :: rest)) c rest).2
  | word {c : Char} (starts : Text.startsName c = true) (rest : List Char) :
      Front (c :: rest)
        (.token (.word (String.ofList (c :: rest.takeWhile Text.continuesName))))
        (rest.dropWhile Text.continuesName)
  | operator {c : Char} {rest behind : List Char} {p : Piece} (bare : Bare c)
      (notNumber : startsNumber (c :: rest) = false) (notWord : Text.startsName c = false)
      (notLine : ∀ more, c :: rest ≠ '/' :: '/' :: more)
      (notBlock : ∀ more, c :: rest ≠ '/' :: '*' :: more)
      (run : operator (c :: rest) = .ok (p, behind)) : Front (c :: rest) p behind

theorem piece_no_comment {c : Char} {rest : List Char}
    (notLine : ∀ more, c :: rest ≠ '/' :: '/' :: more)
    (notBlock : ∀ more, c :: rest ≠ '/' :: '*' :: more) :
    piece (c :: rest) =
      if Text.isBlank c then .ok (.gap [c], rest)
      else if c = '"' then
        match quotedBody '"' rest with
        | some (body, rest) => .ok (.token (.string (String.ofList (c :: body))), rest)
        | none => .error .openString
      else if c = '\x60' then
        match rawBody rest with
        | some (body, rest) => .ok (.token (.string (String.ofList (c :: body))), rest)
        | none => .error .openRawString
      else if c = '\x27' then
        match quotedBody '\x27' rest with
        | some (body, rest) => .ok (.token (.rune (String.ofList (c :: body))), rest)
        | none => .error .openRune
      else if startsNumber (c :: rest) then
        .ok (.token (.number (String.ofList (c :: (numberBody (isHex (c :: rest)) c rest).1))),
          (numberBody (isHex (c :: rest)) c rest).2)
      else if Text.startsName c then
        .ok (.token (.word (String.ofList (c :: rest.takeWhile Text.continuesName))),
          rest.dropWhile Text.continuesName)
      else operator (c :: rest) := by
  refine piece.eq_3 c rest ?_ ?_
  · rintro more rfl rfl
    exact notLine more rfl
  · rintro more rfl rfl
    exact notBlock more rfl

theorem front_of_no_comment {c : Char} {tail rest : List Char} {p : Piece}
    (notLine : ∀ more, c :: tail ≠ '/' :: '/' :: more)
    (notBlock : ∀ more, c :: tail ≠ '/' :: '*' :: more) (run : piece (c :: tail) = .ok (p, rest)) :
    Front (c :: tail) p rest := by
  rw [piece_no_comment notLine notBlock] at run
  by_cases blank : Text.isBlank c = true
  · rw [if_pos blank] at run
    obtain ⟨rfl, rfl⟩ := Prod.mk.inj (Except.ok.inj run)
    exact .blank blank _
  rw [if_neg blank] at run
  by_cases string : c = '"'
  · subst string
    rw [if_pos rfl] at run
    split at run
    · obtain ⟨rfl, rfl⟩ := Prod.mk.inj (Except.ok.inj run)
      exact .string ‹_›
    · cases run
  rw [if_neg string] at run
  by_cases raw : c = '\x60'
  · subst raw
    rw [if_pos rfl] at run
    split at run
    · obtain ⟨rfl, rfl⟩ := Prod.mk.inj (Except.ok.inj run)
      exact .raw ‹_›
    · cases run
  rw [if_neg raw] at run
  by_cases rune : c = '\x27'
  · subst rune
    rw [if_pos rfl] at run
    split at run
    · obtain ⟨rfl, rfl⟩ := Prod.mk.inj (Except.ok.inj run)
      exact .rune ‹_›
    · cases run
  rw [if_neg rune] at run
  by_cases number : startsNumber (c :: tail) = true
  · rw [if_pos number] at run
    obtain ⟨rfl, rfl⟩ := Prod.mk.inj (Except.ok.inj run)
    exact .number number
  rw [if_neg number] at run
  by_cases word : Text.startsName c = true
  · rw [if_pos word] at run
    obtain ⟨rfl, rfl⟩ := Prod.mk.inj (Except.ok.inj run)
    exact .word word _
  rw [if_neg word] at run
  exact .operator ⟨by simpa using blank, string, raw, rune⟩ (by simpa using number)
    (by simpa using word) notLine notBlock run

theorem front_of_piece {text rest : List Char} {p : Piece} (run : piece text = .ok (p, rest)) :
    Front text p rest := by
  by_cases line : ∃ more, text = '/' :: '/' :: more
  · obtain ⟨more, rfl⟩ := line
    rw [piece] at run
    obtain ⟨rfl, rfl⟩ := Prod.mk.inj (Except.ok.inj run)
    exact .lineComment more
  by_cases block : ∃ more, text = '/' :: '*' :: more
  · obtain ⟨more, rfl⟩ := block
    rw [piece] at run
    split at run
    · obtain ⟨rfl, rfl⟩ := Prod.mk.inj (Except.ok.inj run)
      exact .blockComment ‹_›
    · cases run
  cases text with
  | nil =>
    obtain ⟨rfl, rfl⟩ := Prod.mk.inj (Except.ok.inj run)
    exact .nothing
  | cons => exact front_of_no_comment (not_exists.mp line) (not_exists.mp block) run

theorem startsNumber_head {c : Char} {rest : List Char}
    (starts : startsNumber (c :: rest) = true) : c.isDigit = true ∨ c = '.' := by
  unfold startsNumber at starts
  split at starts
  · simp_all
  · simp_all
  · simp at *

theorem bare_of_startsNumber {c : Char} {rest : List Char}
    (starts : startsNumber (c :: rest) = true) : Bare c ∧ c ≠ '/' := by
  rcases startsNumber_head starts with digit | rfl
  · have other (d : Char) (notDigit : d.isDigit = false) : c ≠ d := by
      rintro rfl
      exact absurd digit (by simp [notDigit])
    exact ⟨⟨Text.isBlank_of_isDigit digit, other _ (by decide), other _ (by decide),
      other _ (by decide)⟩, other _ (by decide)⟩
  · exact ⟨⟨by decide, by decide, by decide, by decide⟩, by decide⟩

theorem bare_of_startsName {c : Char} (starts : Text.startsName c = true) : Bare c ∧ c ≠ '/' := by
  have other (d : Char) (notName : Text.startsName d = false) : c ≠ d := by
    rintro rfl
    exact absurd starts (by simp [notName])
  exact ⟨⟨Text.isBlank_of_startsName starts, other _ (by decide), other _ (by decide),
    other _ (by decide)⟩, other _ (by decide)⟩

theorem startsNumber_of_startsName {c : Char} (rest : List Char)
    (starts : Text.startsName c = true) : startsNumber (c :: rest) = false := by
  by_contra number
  rw [Bool.not_eq_false] at number
  rcases startsNumber_head number with digit | rfl
  · exact absurd digit (by simp [Text.isDigit_of_startsName starts])
  · exact absurd starts (by decide)

theorem piece_of_front {text rest : List Char} {p : Piece} (front : Front text p rest) :
    piece text = .ok (p, rest) := by
  have apart {c : Char} (tail : List Char) (notSlash : c ≠ '/') (d : Char) :
      ∀ more, c :: tail ≠ '/' :: d :: more := fun more same => notSlash (List.cons.inj same).1
  cases front with
  | nothing => rfl
  | lineComment => simp [piece]
  | blockComment run => simp [piece, run]
  | @blank c blank rest =>
    have notSlash : c ≠ '/' := by
      rintro rfl
      exact absurd blank (by decide)
    rw [piece_no_comment (apart rest notSlash '/') (apart rest notSlash '*'), if_pos blank]
  | @string tail body behind run =>
    rw [piece_no_comment (apart tail (by decide) '/') (apart tail (by decide) '*'),
      if_neg (by decide), if_pos rfl, run]
  | @raw tail body behind run =>
    rw [piece_no_comment (apart tail (by decide) '/') (apart tail (by decide) '*'),
      if_neg (by decide), if_neg (by decide), if_pos rfl, run]
  | @rune tail body behind run =>
    rw [piece_no_comment (apart tail (by decide) '/') (apart tail (by decide) '*'),
      if_neg (by decide), if_neg (by decide), if_neg (by decide), if_pos rfl, run]
  | @number c tail starts =>
    obtain ⟨bare, notSlash⟩ := bare_of_startsNumber starts
    rw [piece_no_comment (apart tail notSlash '/') (apart tail notSlash '*'),
      if_neg (by simp [bare.notBlank]), if_neg bare.notString, if_neg bare.notRaw,
      if_neg bare.notRune, if_pos starts]
  | @word c starts tail =>
    obtain ⟨bare, notSlash⟩ := bare_of_startsName starts
    rw [piece_no_comment (apart tail notSlash '/') (apart tail notSlash '*'),
      if_neg (by simp [bare.notBlank]), if_neg bare.notString, if_neg bare.notRaw,
      if_neg bare.notRune, if_neg (by simp [startsNumber_of_startsName tail starts]), if_pos starts]
  | operator bare notNumber notWord notLine notBlock run =>
    rw [piece_no_comment notLine notBlock, if_neg (by simp [bare.notBlank]),
      if_neg bare.notString, if_neg bare.notRaw, if_neg bare.notRune,
      if_neg (by simp [notNumber]), if_neg (by simp [notWord]), run]

theorem piece_eq_ok {text rest : List Char} {p : Piece} :
    piece text = .ok (p, rest) ↔ Front text p rest := ⟨front_of_piece, piece_of_front⟩

theorem commentBody_splits {text body rest : List Char}
    (run : commentBody text = some (body, rest)) : body ++ rest = text := by
  fun_induction commentBody text generalizing body rest with
  | case1 behind =>
    simp only [Option.some.injEq, Prod.mk.injEq] at run
    simp [← run.1, run.2]
  | case2 c behind _ ih =>
    obtain ⟨⟨inner, after⟩, again, same⟩ := Option.map_eq_some_iff.mp run
    simp only [Prod.mk.injEq] at same
    simp [← same.1, ← same.2, ih again]
  | case3 => simp at run

theorem quotedBody_splits {quote : Char} {text body rest : List Char}
    (run : quotedBody quote text = some (body, rest)) : body ++ rest = text := by
  fun_induction quotedBody quote text generalizing body rest with
  | case1 c behind ih =>
    obtain ⟨⟨inner, after⟩, again, same⟩ := Option.map_eq_some_iff.mp run
    simp only [Prod.mk.injEq] at same
    simp [← same.1, ← same.2, ih again]
  | case2 => simp at run
  | case3 =>
    simp only [Option.some.injEq, Prod.mk.injEq] at run
    simp [← run.1, run.2]
  | case4 c behind _ _ _ ih =>
    obtain ⟨⟨inner, after⟩, again, same⟩ := Option.map_eq_some_iff.mp run
    simp only [Prod.mk.injEq] at same
    simp [← same.1, ← same.2, ih again]
  | case5 => simp at run

theorem rawBody_splits {text body rest : List Char}
    (run : rawBody text = some (body, rest)) : body ++ rest = text := by
  fun_induction rawBody text generalizing body rest with
  | case1 =>
    simp only [Option.some.injEq, Prod.mk.injEq] at run
    simp [← run.1, run.2]
  | case2 c behind _ ih =>
    obtain ⟨⟨inner, after⟩, again, same⟩ := Option.map_eq_some_iff.mp run
    simp only [Prod.mk.injEq] at same
    simp [← same.1, ← same.2, ih again]
  | case3 => simp at run

theorem numberBody_splits (hex : Bool) (before : Char) (text : List Char) :
    (numberBody hex before text).1 ++ (numberBody hex before text).2 = text := by
  induction text generalizing before with
  | nil => rfl
  | cons c rest ih =>
    unfold numberBody
    split
    · simp [ih c]
    · rfl

theorem ofLongOperator_spelling (text : List Char) :
    (ofLongOperator text).spelling.toList = text := by
  unfold ofLongOperator
  split
  · rename_i dots
    simp [dots, Token.spelling]
  · split
    · rename_i arrow
      simp [arrow, Token.spelling]
    · simp [Token.spelling]

theorem ofMark_spelling {c : Char} {t : Token} (mark : ofMark c = some t) :
    t.spelling.toList = [c] := by
  unfold ofMark at mark
  split at mark
  all_goals first
    | (simp only [Option.some.injEq] at mark; subst mark; rfl)
    | skip
  split at mark
  · simp only [Option.some.injEq] at mark
    simp [← mark, Token.spelling]
  · simp at mark

theorem operator_splits {text rest : List Char} {p : Piece}
    (run : operator text = .ok (p, rest)) : p.text ++ rest = text := by
  unfold operator at run
  split at run
  · rename_i o found
    simp only [Except.ok.injEq, Prod.mk.injEq] at run
    obtain ⟨rfl, rfl⟩ := run
    have front : o <+: text := by simpa using List.find?_some found
    rw [Piece.text, ofLongOperator_spelling]
    exact (List.prefix_iff_eq_append.mp front)
  · split at run
    · simp only [Except.ok.injEq, Prod.mk.injEq] at run
      simp [← run.1, ← run.2, Piece.text]
    · split at run
      · rename_i mark
        simp only [Except.ok.injEq, Prod.mk.injEq] at run
        simp [← run.1, ← run.2, Piece.text, ofMark_spelling mark]
      · simp at run

theorem operator_some {c : Char} {text rest : List Char} {p : Piece}
    (run : operator (c :: text) = .ok (p, rest)) : p.text ≠ [] := by
  unfold operator at run
  split at run
  · rename_i o found
    have long : ∀ o ∈ longOperators, o ≠ [] := by decide
    simp only [Except.ok.injEq, Prod.mk.injEq] at run
    rw [← run.1, Piece.text, ofLongOperator_spelling]
    exact long o (List.mem_of_find?_eq_some found)
  · split at run
    · simp at *
    · split at run
      · rename_i mark
        simp only [Except.ok.injEq, Prod.mk.injEq] at run
        rw [← run.1, Piece.text, ofMark_spelling mark]
        simp
      · simp at run

theorem ofMark_symbol {c : Char} {t : Token} (mark : ofMark c = some t) : t.isSymbol = true := by
  unfold ofMark at mark
  split at mark
  all_goals first
    | (simp only [Option.some.injEq] at mark; subst mark; rfl)
    | skip
  split at mark
  · simp only [Option.some.injEq] at mark
    subst mark
    rfl
  · simp at mark

theorem operator_symbol {text rest : List Char} {t : Token}
    (run : operator text = .ok (.token t, rest)) : t.isSymbol = true := by
  unfold operator at run
  split at run
  · rename_i o _
    simp only [Except.ok.injEq, Prod.mk.injEq, Piece.token.injEq] at run
    rw [← run.1]
    unfold ofLongOperator
    split
    · rfl
    · split <;> rfl
  · split at run
    · simp at run
    · split at run
      · rename_i mark
        simp only [Except.ok.injEq, Prod.mk.injEq, Piece.token.injEq] at run
        exact ofMark_symbol (run.1 ▸ mark)
      · simp at run

theorem piece_word {text rest : List Char} {w : String}
    (run : piece text = .ok (.token (.word w), rest)) : Text.isWord w = true := by
  cases piece_eq_ok.mp run with
  | word starts tail =>
    refine (Text.isWord_iff _).mpr ⟨_, _, String.toList_ofList, starts, ?_⟩
    exact fun d member => List.mem_takeWhile_imp member
  | operator _ _ _ _ _ run => cases operator_symbol run

theorem piece_splits {text rest : List Char} {p : Piece} (run : piece text = .ok (p, rest)) :
    p.text ++ rest = text := by
  cases piece_eq_ok.mp run with
  | nothing => rfl
  | lineComment => simp [Piece.text]
  | blockComment run => simp [Piece.text, commentBody_splits run]
  | blank => rfl
  | string run => simp [Piece.text, Token.spelling, quotedBody_splits run]
  | raw run => simp [Piece.text, Token.spelling, rawBody_splits run]
  | rune run => simp [Piece.text, Token.spelling, quotedBody_splits run]
  | number => simp [Piece.text, Token.spelling, numberBody_splits]
  | word => simp [Piece.text, Token.spelling]
  | operator _ _ _ _ _ run => exact operator_splits run

theorem piece_shrinks {c : Char} {text rest : List Char} {p : Piece}
    (run : piece (c :: text) = .ok (p, rest)) : rest.length < (c :: text).length := by
  have whole := congrArg List.length (piece_splits run)
  have some : p.text ≠ [] := by
    cases piece_eq_ok.mp run with
    | lineComment | blockComment | blank => simp [Piece.text]
    | string | raw | rune | number | word => simp [Piece.text, Token.spelling]
    | operator _ _ _ _ _ run => exact operator_some run
  have := List.length_pos_iff.mpr some
  simp only [List.length_append] at whole
  omega

end Scan

end GoSpy
