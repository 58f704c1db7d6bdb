import GoSpy.Proofs.Token.Flow
import Mathlib.Data.List.Find
/- The scanner does not look behind a closing bracket. A text that ends in one and is cut so that
   the bracket is a token of its own is cut in the same way in front of anything. -/
namespace GoSpy.Scan

theorem commentBody_append {text body rest : List Char} (more : List Char)
    (run : commentBody text = some (body, rest)) :
    commentBody (text ++ more) = some (body, rest ++ more) := by
  fun_induction commentBody text generalizing body rest with
  | case1 behind =>
    simp only [Option.some.injEq, Prod.mk.injEq] at run
    obtain ⟨rfl, rfl⟩ := run
    rfl
  | case2 c behind notEnd ih =>
    obtain ⟨⟨inner, after⟩, again, same⟩ := Option.map_eq_some_iff.mp run
    simp only [Prod.mk.injEq] at same
    obtain ⟨rfl, rfl⟩ := same
    have goesOn : ∀ rest, c = '*' → behind ++ more = '/' :: rest → False := by
      intro rest star slash
      cases behind with
      | nil => cases again
      | cons d behind =>
        obtain ⟨rfl, _⟩ := List.cons.inj slash
        exact notEnd behind star rfl
    rw [List.cons_append, commentBody.eq_2 c (behind ++ more) goesOn, ih again]
    rfl
  | case3 => simp at run

theorem quotedBody_append {quote : Char} {text body rest : List Char} (more : List Char)
    (run : quotedBody quote text = some (body, rest)) :
    quotedBody quote (text ++ more) = some (body, rest ++ more) := by
  fun_induction quotedBody quote text generalizing body rest with
  | case1 c behind ih =>
    obtain ⟨⟨inner, after⟩, again, same⟩ := Option.map_eq_some_iff.mp run
    simp only [Prod.mk.injEq] at same
    obtain ⟨rfl, rfl⟩ := same
    simp [quotedBody, ih again]
  | case2 => simp at run
  | case3 behind _ plain =>
    simp only [Option.some.injEq, Prod.mk.injEq] at run
    obtain ⟨rfl, rfl⟩ := run
    rw [List.cons_append, quotedBody.eq_2 _ _ _ fun _ _ slash _ => plain (Or.inr slash),
      if_neg plain, if_pos rfl]
  | case4 c behind _ plain other ih =>
    obtain ⟨⟨inner, after⟩, again, same⟩ := Option.map_eq_some_iff.mp run
    simp only [Prod.mk.injEq] at same
    obtain ⟨rfl, rfl⟩ := same
    rw [List.cons_append, quotedBody.eq_2 _ _ _ fun _ _ slash _ => plain (Or.inr slash),
      if_neg plain, if_neg other, ih again]
    rfl
  | case5 => simp at run

theorem rawBody_append {text body rest : List Char} (more : List Char)
    (run : rawBody text = some (body, rest)) :
    rawBody (text ++ more) = some (body, rest ++ more) := by
  fun_induction rawBody text generalizing body rest with
  | case1 behind =>
    simp only [Option.some.injEq, Prod.mk.injEq] at run
    obtain ⟨rfl, rfl⟩ := run
    rfl
  | case2 c behind other ih =>
    obtain ⟨⟨inner, after⟩, again, same⟩ := Option.map_eq_some_iff.mp run
    simp only [Prod.mk.injEq] at same
    obtain ⟨rfl, rfl⟩ := same
    simp [rawBody, other, ih again]
  | case3 => simp at run

theorem numberBody_append {hex : Bool} {before : Char} {text : List Char} (more : List Char)
    (stops : (numberBody hex before text).2 ≠ []) :
    numberBody hex before (text ++ more) =
      ((numberBody hex before text).1, (numberBody hex before text).2 ++ more) := by
  induction text generalizing before with
  | nil => exact absurd rfl stops
  | cons c rest ih =>
    unfold numberBody at stops ⊢
    simp only [List.cons_append]
    split at stops
    · rename_i goesOn
      rw [if_pos goesOn, if_pos goesOn]
      simp only [ih stops]
    · rename_i ends
      rw [if_neg ends, if_neg ends]
      rfl

theorem takeWhile_append {p : Char → Bool} {text : List Char} (more : List Char)
    (stops : text.dropWhile p ≠ []) :
    (text ++ more).takeWhile p = text.takeWhile p ∧
      (text ++ more).dropWhile p = text.dropWhile p ++ more := by
  induction text with
  | nil => exact absurd rfl stops
  | cons c rest ih =>
    by_cases holds : p c = true
    · simp only [List.dropWhile_cons, holds, if_true] at stops
      simpa [holds] using ih stops
    · simp [holds]

theorem longOperator_append {text : List Char} (more : List Char)
    (bracket : text.getLast? = some ']') :
    longOperators.find? (·.isPrefixOf (text ++ more)) =
      longOperators.find? (·.isPrefixOf text) := by
  have noBracket : ∀ o ∈ longOperators, ']' ∉ o := by decide
  have same : ∀ o ∈ longOperators, o.isPrefixOf (text ++ more) = o.isPrefixOf text := by
    intro o member
    rw [Bool.eq_iff_iff, List.isPrefixOf_iff_prefix, List.isPrefixOf_iff_prefix]
    constructor
    · intro front
      rcases List.prefix_or_prefix_of_prefix front (List.prefix_append text more) with
        shorter | longer
      · exact shorter
      · exact absurd (longer.subset (List.mem_of_getLast? bracket)) (noBracket o member)
    · exact fun front => front.trans (List.prefix_append text more)
  exact List.find?_congr same

theorem operator_append {text rest : List Char} {p : Piece} (more : List Char)
    (bracket : text.getLast? = some ']') (run : operator text = .ok (p, rest)) :
    operator (text ++ more) = .ok (p, rest ++ more) := by
  unfold operator at run ⊢
  rw [longOperator_append more bracket]
  split at run
  · rename_i o found
    have front : o <+: text := by simpa using List.find?_some found
    simp only [Except.ok.injEq, Prod.mk.injEq] at run
    obtain ⟨rfl, rfl⟩ := run
    rw [List.drop_append_of_le_length front.length_le]
  · cases text with
    | nil => simp at bracket
    | cons c text =>
      simp only [List.cons_append] at run ⊢
      split at run
      · simp only [Except.ok.injEq, Prod.mk.injEq] at run
        obtain ⟨rfl, rfl⟩ := run
        rfl
      · simp at run

theorem startsNumber_pair (c d : Char) (rest rest' : List Char) :
    startsNumber (c :: d :: rest) = startsNumber (c :: d :: rest') := by
  by_cases dot : c = '.'
  · subst dot
    rfl
  · rw [startsNumber.eq_2 c _ fun _ _ same _ => dot same,
      startsNumber.eq_2 c _ fun _ _ same _ => dot same]

theorem isHex_pair (c d : Char) (rest rest' : List Char) :
    isHex (c :: d :: rest) = isHex (c :: d :: rest') := by
  by_cases zero : c = '0'
  · subst zero
    rfl
  · simp [isHex, zero]

theorem Front.append {text rest : List Char} {p : Piece} (front : Front text p rest)
    (bracket : text.getLast? = some ']') (some : rest ≠ []) (more : List Char) :
    Front (text ++ more) p (rest ++ more) := by
  cases front with
  | nothing => exact absurd rfl some
  | lineComment tail =>
    have same := takeWhile_append more some
    have longer := Front.lineComment (tail ++ more)
    rwa [same.1, same.2] at longer
  | blockComment run => exact .blockComment (commentBody_append more run)
  | blank blank => exact .blank blank (rest ++ more)
  | string run => exact .string (quotedBody_append more run)
  | raw run => exact .raw (rawBody_append more run)
  | rune run => exact .rune (quotedBody_append more run)
  | @number c tail starts =>
    cases tail with
    | nil => exact absurd rfl some
    | cons d tail =>
      have longer := Front.number ((startsNumber_pair c d (tail ++ more) tail).trans starts)
      have longerBody := numberBody_append more some
      rw [List.cons_append] at longerBody
      rwa [isHex_pair c d (tail ++ more) tail, longerBody] at longer
  | @word c starts tail =>
    have same := takeWhile_append more some
    have longer := Front.word starts (tail ++ more)
    rwa [same.1, same.2] at longer
  | @operator c tail behind p bare notNumber notWord notLine notBlock run =>
    have run' := operator_append more bracket run
    cases tail with
    | nil =>
      -- A single character is all of the operator, and nothing would be left.
      have whole := congrArg List.length (operator_splits run)
      have long := List.length_pos_iff.mpr (operator_some run)
      have left := List.length_pos_iff.mpr some
      simp only [List.length_append, List.length_cons, List.length_nil] at whole
      omega
    | cons d tail =>
      refine .operator bare ((startsNumber_pair c d (tail ++ more) tail).trans notNumber) notWord
        (fun other same => ?_) (fun other same => ?_) run'
      · obtain ⟨slash, same⟩ := List.cons.inj same
        obtain ⟨second, _⟩ := List.cons.inj same
        exact notLine tail (by rw [slash, second])
      · obtain ⟨slash, same⟩ := List.cons.inj same
        obtain ⟨second, _⟩ := List.cons.inj same
        exact notBlock tail (by rw [slash, second])

theorem Cuts.append_text {text : List Char} {ps qs : List Piece} (cuts : Cuts text ps [])
    (last : ps = qs ++ [.token .closeBracket]) (bracket : text.getLast? = some ']')
    (more : List Char) : Cuts (text ++ more) ps more := by
  induction qs generalizing text ps with
  | nil =>
    subst last
    cases cuts with
    | step first later =>
      cases later with
      | done =>
        have whole := piece_splits first
        rw [List.append_nil] at whole
        rw [← whole]
        exact .step rfl (.done more)
  | cons q qs ih =>
    subst last
    cases cuts with
    | @step c text behind _ _ _ first later =>
      have some : behind ≠ [] := by
        rintro rfl
        cases qs <;> cases later
      have whole := piece_splits first
      have bracket' : behind.getLast? = .some ']' := by
        rw [← whole, List.getLast?_append] at bracket
        obtain ⟨d, last⟩ := Option.ne_none_iff_exists'.mp (mt List.getLast?_eq_none_iff.mp some)
        simpa [last] using bracket
      refine .step (piece_of_front ?_) (ih later rfl bracket')
      exact (front_of_piece first).append bracket some more

end GoSpy.Scan
