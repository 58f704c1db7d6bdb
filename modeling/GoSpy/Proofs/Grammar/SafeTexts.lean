import GoSpy.Proofs.Grammar.SafeFiles
/- From a text to its source file. Every token of a text is one that the scanner can cut off
   anew, and whatever is reported lies on a line that the text has. -/
namespace GoSpy

namespace Scan

/- Tokens -/

theorem quotedBody_alone {quote : Char} {text body rest : List Char}
    (run : quotedBody quote text = some (body, rest)) :
    quotedBody quote body = some (body, []) := by
  fun_induction quotedBody quote text generalizing body rest with
  | case1 c behind ih =>
    obtain ⟨⟨inner, after⟩, again, same⟩ := Option.map_eq_some_iff.mp run
    obtain ⟨rfl, rfl⟩ := Prod.mk.inj same
    simp [quotedBody, ih again]
  | case2 => cases run
  | case3 behind _ plain =>
    obtain ⟨rfl, rfl⟩ := Prod.mk.inj (Option.some.inj run)
    rw [quotedBody.eq_2 _ _ _ fun _ _ slash _ => plain (Or.inr slash), if_neg plain, if_pos rfl]
  | case4 c behind _ plain other ih =>
    obtain ⟨⟨inner, after⟩, again, same⟩ := Option.map_eq_some_iff.mp run
    obtain ⟨rfl, rfl⟩ := Prod.mk.inj same
    rw [quotedBody.eq_2 _ _ _ fun _ _ slash _ => plain (Or.inr slash), if_neg plain,
      if_neg other, ih again]
    rfl
  | case5 => cases run

theorem rawBody_alone {text body rest : List Char} (run : rawBody text = some (body, rest)) :
    rawBody body = some (body, []) := by
  fun_induction rawBody text generalizing body rest with
  | case1 =>
    obtain ⟨rfl, rfl⟩ := Prod.mk.inj (Option.some.inj run)
    simp [rawBody]
  | case2 c behind other ih =>
    obtain ⟨⟨inner, after⟩, again, same⟩ := Option.map_eq_some_iff.mp run
    obtain ⟨rfl, rfl⟩ := Prod.mk.inj same
    simp [rawBody, other, ih again]
  | case3 => cases run

theorem isStringLiteral_of_piece {text rest : List Char} {literal : String}
    (run : piece text = .ok (.token (.string literal), rest)) :
    isStringLiteral literal = true := by
  unfold isStringLiteral
  cases piece_eq_ok.mp run with
  | string run =>
    rw [String.toList_ofList, piece_of_front (.string (quotedBody_alone run))]
  | raw run => rw [String.toList_ofList, piece_of_front (.raw (rawBody_alone run))]
  | operator _ _ _ _ _ run => cases operator_symbol run

theorem piece_scanned {c : Char} {text rest : List Char} {t : Token}
    (run : piece (c :: text) = .ok (.token t, rest)) : t.isScanned = true := by
  have full : t.spelling ≠ "" := by
    rintro none
    have whole : t.spelling.toList ++ rest = c :: text := piece_splits run
    have shorter := piece_shrinks run
    simp [none] at whole
    simp [whole] at shorter
  have nonempty : (!t.spelling.isEmpty) = true := by simpa using full
  cases t with
  | word => exact Bool.and_eq_true_iff.mpr ⟨nonempty, piece_word run⟩
  | string => exact Bool.and_eq_true_iff.mpr ⟨nonempty, isStringLiteral_of_piece run⟩
  | _ => exact Bool.and_eq_true_iff.mpr ⟨nonempty, rfl⟩

theorem Cuts.scanned {text rest : List Char} {ps : List Piece} (cuts : Cuts text ps rest)
    {t : Token} (member : .token t ∈ ps) : t.isScanned = true := by
  induction cuts with
  | done => cases member
  | step first _ ih =>
    rcases List.mem_cons.mp member with rfl | there
    · exact piece_scanned first
    · exact ih there

/- Lines -/

def linesOver : List Piece → Nat
  | [] => 0
  | p :: rest => p.lines + linesOver rest

theorem Cuts.lines_le {text rest : List Char} {ps : List Piece} (cuts : Cuts text ps rest) :
    linesOver ps + rest.count '\n' ≤ text.count '\n' := by
  induction cuts with
  | done => simp [linesOver]
  | @step c text behind rest p ps first _ ih =>
    have whole := congrArg (List.count '\n') (piece_splits first)
    rw [List.count_append] at whole
    have own := Piece.lines_le p
    simp only [linesOver]
    omega

theorem settle_lines (owed : Bool) (line : Nat) (ps : List Piece) :
    (∀ x ∈ (settle owed line ps).items,
      line ≤ x.line ∧ x.line ≤ line + linesOver ps) ∧
    (settle owed line ps).endLine = line + linesOver ps := by
  induction ps generalizing owed line with
  | nil => cases owed <;> simp [settle, linesOver]
  | cons p rest ih =>
    have later {owed : Bool} {x : Lexeme}
        (member : x ∈ (settle owed (line + p.lines) rest).items) :
        line ≤ x.line ∧ x.line ≤ line + linesOver (p :: rest) := by
      have := (ih owed (line + p.lines)).1 x member
      simp only [linesOver]
      omega
    have atEnd {owed : Bool} : (settle owed (line + p.lines) rest).endLine =
        line + linesOver (p :: rest) := by
      rw [(ih owed (line + p.lines)).2]
      simp only [linesOver]
      omega
    cases p with
    | token t => exact ⟨List.forall_mem_cons.mpr ⟨by simp, fun x => later⟩, atEnd⟩
    | gap text =>
      unfold settle
      split
      · exact ⟨List.forall_mem_cons.mpr ⟨by simp, fun x => later⟩, atEnd⟩
      · exact ⟨fun x => later, atEnd⟩

theorem piece_notDeep {text : List Char} {cause : Cause} (run : piece text = .error cause) :
    cause ≠ .tooDeep := by
  unfold piece operator at run
  rintro rfl
  grind

theorem pieces_fault {fuel line : Nat} {text : List Char} {fault : Fault}
    (run : pieces fuel line text = .error fault) :
    fault.cause ≠ .tooDeep ∧ line ≤ fault.line ∧ fault.line ≤ line + text.count '\n' := by
  induction fuel generalizing line text with
  | zero => cases run
  | succ fuel ih =>
    cases text with
    | nil => cases run
    | cons c text =>
      unfold pieces at run
      split at run
      · rename_i cause found
        obtain rfl := Except.error.inj run
        exact ⟨piece_notDeep found, le_rfl, Nat.le_add_right ..⟩
      · rename_i p rest found
        have whole := congrArg (List.count '\n') (piece_splits found)
        rw [List.count_append] at whole
        have own := Piece.lines_le p
        cases tail : pieces fuel (line + p.lines) rest with
        | ok => simp [tail, Except.map] at run
        | error =>
          simp only [tail, Except.map, Except.error.injEq] at run
          subst run
          have := ih tail
          exact ⟨this.1, by omega, by omega⟩

theorem count_skipMark (text : List Char) :
    (skipMark text).count '\n' ≤ text.count '\n' := by
  unfold skipMark
  split
  · simp
  · exact le_rfl

end Scan

def IsLine (text : String) (line : Nat) : Prop :=
  1 ≤ line ∧ line ≤ 1 + text.toList.count '\n'

namespace Lexemes

open Scan

theorem ofText_scanned {text : String} {lexemes : Lexemes} (run : ofText text = .ok lexemes) :
    (Cursor.ofLexemes lexemes).Scanned := by
  obtain ⟨ps, cuts, rfl⟩ := ofText_eq_ok run
  intro x member
  have token : x.token ∈ (settle false 1 ps).items.map Lexeme.token := List.mem_map_of_mem member
  rw [settle_tokens, List.mem_append] at token
  rcases token with inFlow | final
  · rcases mem_flow inFlow with semicolon | piece
    · simp [semicolon, Token.isScanned, Token.spelling]
    · exact cuts.scanned piece
  · have semicolon : x.token = .semicolon := by
      unfold due at final
      split at final
      · simpa using final
      · cases final
    simp [semicolon, Token.isScanned, Token.spelling]

theorem ofText_lines {text : String} {lexemes : Lexemes} (run : ofText text = .ok lexemes)
    {line : Nat} (on : (Cursor.ofLexemes lexemes).OnLine line) : IsLine text line := by
  obtain ⟨ps, cuts, rfl⟩ := ofText_eq_ok run
  have few := cuts.lines_le
  have fewer := count_skipMark text.toList
  obtain ⟨each, ends⟩ := settle_lines false 1 ps
  rcases on with atEnd | ⟨x, member, same⟩
  · have last : line = 1 + linesOver ps := atEnd.trans ends
    exact ⟨by omega, by omega⟩
  · have bounds := each x member
    exact ⟨by omega, by omega⟩

theorem ofText_fault {text : String} {fault : Fault} (run : ofText text = .error fault) :
    fault.cause ≠ .tooDeep ∧ IsLine text fault.line := by
  unfold ofText at run
  cases cut : pieces (skipMark text.toList).length 1 (skipMark text.toList) with
  | ok => simp [cut, Except.map] at run
  | error other =>
    simp only [cut, Except.map, Except.error.injEq] at run
    subst run
    have fewer := count_skipMark text.toList
    obtain ⟨apart, above, below⟩ := pieces_fault cut
    exact ⟨apart, above, by omega⟩

end Lexemes

namespace SourceFile

theorem ofText_ends (file text : String) :
    (∃ f, ofText file text = .ok f ∧ f.WellFormed) ∨
    ∃ e, ofText file text = .error e ∧ e.file = file ∧ e.cause ≠ .tooDeep ∧
      IsLine text e.line := by
  unfold ofText
  cases scanned : Lexemes.ofText text with
  | error fault =>
    obtain ⟨apart, line⟩ := Lexemes.ofText_fault scanned
    exact Or.inr ⟨_, rfl, rfl, apart, line⟩
  | ok lexemes =>
    have safe := Grammar.sourceFile_safe file (Lexemes.ofText_scanned scanned)
    cases read : Grammar.sourceFile file (Cursor.ofLexemes lexemes) with
    | ok r =>
      rw [read] at safe
      exact Or.inl ⟨r.1, by simp [Except.bind, ofLexemes, read, Except.map, Except.mapError], safe⟩
    | error fault =>
      rw [read] at safe
      exact Or.inr ⟨fault.inFile file,
        by simp [Except.bind, ofLexemes, read, Except.map, Except.mapError], rfl, safe.1,
        Lexemes.ofText_lines scanned safe.2⟩

theorem ofText_wellFormed {file text : String} {f : SourceFile}
    (run : ofText file text = .ok f) : f.WellFormed := by
  rcases ofText_ends file text with ⟨g, same, wellFormed⟩ | ⟨e, other, _⟩
  · rw [run] at same
    exact Except.ok.inj same ▸ wellFormed
  · rw [run] at other
    cases other

end SourceFile

end GoSpy
