import GoSpy.Proofs.Token.Adjacency
import GoSpy.Proofs.Token.Splitting
import GoSpy.Proofs.Grammar.Forms
import Mathlib.Algebra.GroupWithZero.Nat
/- Array lengths. A length is kept as the text of its tokens, with a blank behind each comma and
   nothing else between them. The text is cut into these tokens again exactly if none of them runs
   on into what is written behind it. -/
namespace GoSpy

namespace Grammar

def lengthText (tokens : List Token) : List Char :=
  tokens.flatMap fun t => (lengthSpelling t).toList

def apart : List Token → Bool
  | [] => true
  | t :: rest => !t.runsOn (lengthText rest) && apart rest

def blankBehind (t : Token) : List Char := if t = .comma then [' '] else []

theorem join_lengthSpelling (tokens : List Token) :
    (String.join (tokens.map lengthSpelling)).toList = lengthText tokens := by
  simp [lengthText, List.flatMap_map]

theorem lengthText_cons (t : Token) (rest : List Token) :
    lengthText (t :: rest) = t.spelling.toList ++ (blankBehind t ++ lengthText rest) := by
  unfold lengthText lengthSpelling blankBehind
  rw [List.flatMap_cons]
  split
  · rename_i comma
    rw [comma]
    rfl
  · rfl

end Grammar

namespace Scan

open Grammar

theorem runsOn_comma (behind : List Char) : Token.comma.runsOn behind = false := by
  have comma : piece [','] = .ok (.token .comma, []) := rfl
  exact (piece_behind_iff comma behind).mp rfl

theorem runsOn_blankBehind (t : Token) (behind : List Char) :
    t.runsOn (blankBehind t ++ behind) = t.runsOn behind := by
  unfold blankBehind
  split
  · rename_i comma
    rw [comma, runsOn_comma, runsOn_comma]
  · rfl

theorem blankBehind_flows (t : Token) (owed : Bool) (rest : List Char) :
    Flows owed (blankBehind t) [] owed rest := by
  unfold blankBehind
  split
  · exact .space owed rest
  · exact .nothing owed rest

/- From tokens that end to their text -/

theorem lengthText_flows {tokens : List Token} (found : ∀ t ∈ tokens, Found t)
    (ends : apart tokens = true) (owed : Bool) :
    ∃ owes, Flows owed (lengthText tokens) tokens owes [] := by
  induction tokens generalizing owed with
  | nil => exact ⟨owed, .nothing owed []⟩
  | cons t rest ih =>
    obtain ⟨⟨text, behind, run⟩, later⟩ := List.forall_mem_cons.mp found
    obtain ⟨here, ends⟩ := Bool.and_eq_true_iff.mp ends
    obtain ⟨owes, flows⟩ := ih later ends t.endsStatement
    refine ⟨owes, ?_⟩
    have first : piece (t.spelling.toList ++ (blankBehind t ++ lengthText rest ++ [])) =
        .ok (.token t, blankBehind t ++ lengthText rest ++ []) := by
      rw [piece_behind_iff run, List.append_nil, runsOn_blankBehind]
      simpa using here
    have behind := (blankBehind_flows t t.endsStatement _).append flows
    rw [lengthText_cons]
    exact Flows.append (.token owed first) behind

/- From a text to the tokens it was made of -/

def slashes (tokens : List Token) : Nat := (tokens.map (·.spelling.toList.count '/')).sum

def gapSlashes : List Piece → Nat
  | [] => 0
  | .gap text :: rest => text.count '/' + gapSlashes rest
  | .token _ :: rest => gapSlashes rest

theorem Cuts.slashes_eq {text rest : List Char} {ps : List Piece} (cuts : Cuts text ps rest)
    (owed : Bool) :
    text.count '/' = slashes (flow owed ps).1 + gapSlashes ps + rest.count '/' := by
  induction cuts generalizing owed with
  | done => simp [slashes, gapSlashes, flow]
  | @step c text behind rest p ps first later ih =>
    rw [← piece_splits first, List.count_append]
    cases p with
    | token t =>
      rw [ih t.endsStatement]
      simp only [Piece.text, flow, slashes, gapSlashes, List.map_cons, List.sum_cons]
      omega
    | gap text =>
      simp only [Piece.text, flow, gapSlashes]
      split
      · have none : Token.semicolon.spelling.toList.count '/' = 0 := by decide
        rw [ih false]
        simp only [slashes, List.map_cons, List.sum_cons, none]
        omega
      · rw [ih owed]
        omega

theorem slashes_append (ts us : List Token) : slashes (ts ++ us) = slashes ts + slashes us := by
  simp [slashes]

theorem slashes_due (owed : Bool) : slashes (due owed) = 0 := by
  cases owed <;> decide

theorem lengthText_slashes (tokens : List Token) :
    (lengthText tokens).count '/' = slashes tokens := by
  induction tokens with
  | nil => rfl
  | cons t rest ih =>
    have blank : (blankBehind t).count '/' = 0 := by
      unfold blankBehind
      split <;> decide
    rw [lengthText_cons, List.count_append, List.count_append, blank, ih]
    simp [slashes]

theorem token_of_piece {c : Char} {text behind : List Char} {p : Piece} {ps : List Piece}
    (run : piece (c :: text) = .ok (p, behind)) (notBlank : Text.isBlank c = false)
    (noSlash : gapSlashes (p :: ps) = 0) : ∃ t, p = .token t := by
  cases piece_eq_ok.mp run with
  | lineComment | blockComment => simp [gapSlashes] at noSlash
  | blank blank =>
    rw [notBlank] at blank
    cases blank
  | string | raw | rune | number | word => exact ⟨_, rfl⟩
  | operator _ _ _ _ _ run => exact operator_token run

theorem Cuts.behind_blank {t : Token} {text : List Char} {ps : List Piece}
    (cuts : Cuts (blankBehind t ++ text) ps []) :
    ∃ ps', Cuts text ps' [] ∧ gapSlashes ps' = gapSlashes ps ∧
      ∀ owed, flow owed ps' = flow owed ps := by
  unfold blankBehind at cuts
  split at cuts
  · cases cuts with
    | @step _ _ behind _ p ps first later =>
      have blank : piece (' ' :: text) = .ok (.gap [' '], text) := rfl
      obtain ⟨rfl, rfl⟩ := Prod.mk.inj (Except.ok.inj (blank.symm.trans first))
      refine ⟨ps, later, by simp [gapSlashes], ?_⟩
      intro owed
      simp [flow]
  · exact ⟨ps, cuts, rfl, fun _ => rfl⟩

theorem apart_of_cuts {tokens : List Token} (found : ∀ t ∈ tokens, Found t) {ps : List Piece}
    (cuts : Cuts (lengthText tokens) ps []) (noSlash : gapSlashes ps = 0) {owed : Bool}
    {more more' : List Token} (same : (flow owed ps).1 ++ more = tokens ++ more') :
    apart tokens = true := by
  induction tokens generalizing ps owed with
  | nil => rfl
  | cons t rest ih =>
    obtain ⟨here, later⟩ := List.forall_mem_cons.mp found
    obtain ⟨c, tail, spelled, notBlank, -⟩ := here.front
    rw [lengthText_cons, spelled, List.cons_append] at cuts
    cases cuts with
    | @step _ _ behind _ p ps first cuts =>
      obtain ⟨u, rfl⟩ := token_of_piece first notBlank noSlash
      -- The tokens agree, so the first cut is as long as the first token is written.
      obtain ⟨rfl, behind⟩ := List.cons.inj same
      have whole := piece_splits first
      rw [Piece.text, spelled, List.cons_append] at whole
      obtain rfl := List.append_cancel_left (List.cons.inj whole).2
      obtain ⟨ps', cuts', gaps, flows⟩ := cuts.behind_blank
      obtain ⟨_, _, run⟩ := here
      rw [← List.cons_append, ← spelled, piece_behind_iff run, runsOn_blankBehind] at first
      have same' : (flow u.endsStatement ps').1 ++ more = rest ++ more' := by
        rw [flows]
        exact behind
      rw [apart, first, ih later cuts' (gaps.trans noSlash) same']
      rfl

theorem skipMark_lengthText {tokens : List Token} (found : ∀ t ∈ tokens, Found t) :
    skipMark (lengthText tokens) = lengthText tokens := by
  cases tokens with
  | nil => rfl
  | cons t rest =>
    obtain ⟨c, tail, spelled, -, notMark⟩ := (found t List.mem_cons_self).front
    rw [lengthText_cons, spelled, List.cons_append]
    unfold skipMark
    split
    · rename_i same
      exact absurd (List.cons.inj same).1 notMark
    · rfl

theorem lengthText_read_iff {tokens : List Token} (found : ∀ t ∈ tokens, Found t) {length : String}
    (text : length.toList = lengthText tokens) :
    (∃ l, Lexemes.ofText length = .ok l ∧
        l.items.map Lexeme.token = tokens ++ due (tokens.getLast?.any Token.endsStatement)) ↔
      apart tokens = true := by
  constructor
  · rintro ⟨l, run, same⟩
    obtain ⟨ps, cuts, rfl⟩ := Lexemes.ofText_eq_ok run
    rw [text, skipMark_lengthText found] at cuts
    rw [settle_tokens] at same
    refine apart_of_cuts found cuts ?_ same
    -- All slashes of the text are in its tokens: none is left for a comment.
    have whole := cuts.slashes_eq false
    have tokens' := congrArg slashes same
    rw [slashes_append, slashes_append, slashes_due, slashes_due] at tokens'
    rw [lengthText_slashes, List.count_nil] at whole
    omega
  · intro ends
    obtain ⟨owes, ps, cuts, flows⟩ := lengthText_flows found ends false
    rw [List.append_nil] at cuts
    refine ⟨settle false 1 ps, ?_, ?_⟩
    · simp only [Lexemes.ofText, text, skipMark_lengthText found, pieces_of_cuts 1 le_rfl cuts]
      rfl
    · rw [settle_tokens, flow_owes, flows]
      cases tokens.getLast? <;> rfl

end Scan

namespace Grammar

open Scan

theorem arrayLength_text {s behind : Cursor} {length : String}
    (run : arrayLength s = .ok (length, behind)) :
    ∃ between close, s.rest = between ++ close :: behind.rest ∧ close.token = .closeBracket ∧
      behind.endLine = s.endLine ∧
      lengthTokens 0 s.rest = some (between.map Lexeme.token, behind.rest) ∧
      length.toList = lengthText (between.map Lexeme.token) := by
  unfold arrayLength at run
  split at run
  · rename_i tokens rest taken
    obtain ⟨rfl, rfl⟩ := Prod.mk.inj (Except.ok.inj run)
    obtain ⟨between, close, shape, rfl, closes⟩ := lengthTokens_split taken
    exact ⟨between, close, shape, closes, rfl, taken, join_lengthSpelling _⟩
  · cases run

/-- The length of an array type is kept as the text of the tokens between its brackets. The text is
    cut into these tokens, with a semicolon where its end is due one, exactly if each of them ends
    where those behind it are written. -/
theorem array_length_kept_iff {text : String} {l : Lexemes} (lexed : Lexemes.ofText text = .ok l)
    {s behind : Cursor} (place : s.rest <:+ l.items) {depth : Nat} {length : String}
    {element : TypeExpr} (read : typeWithin depth s = .ok (.array length element, behind)) :
    ∃ opening between closing rest, s.rest = opening :: (between ++ closing :: rest) ∧
      opening.token = .openBracket ∧ closing.token = .closeBracket ∧
      lengthTokens 0 (between ++ closing :: rest) = some (between.map Lexeme.token, rest) ∧
      typeWithin (depth - 1) ⟨rest, s.endLine⟩ = .ok (element, behind) ∧
      length.toList = lengthText (between.map Lexeme.token) ∧
      ((∃ kept, Lexemes.ofText length = .ok kept ∧
          kept.items.map Lexeme.token = between.map Lexeme.token ++
            due ((between.map Lexeme.token).getLast?.any Token.endsStatement)) ↔
        apart (between.map Lexeme.token) = true) := by
  cases depth with
  | zero => cases read
  | succ depth =>
    obtain ⟨bracket, next, sized, inner⟩ : s.peek = some .openBracket ∧
        ∃ next, arrayLength s.advance = .ok (length, next) ∧
          typeWithin depth next = .ok (element, behind) := by
      cases form_of_typeForm read with
      | word _ opens => cases opens
      | array there sized run => exact ⟨there, _, sized, run⟩
    obtain ⟨between, closing, shape, closes, sameEnd, taken, spelled⟩ := arrayLength_text sized
    obtain ⟨opening, first, opens⟩ := Option.map_eq_some_iff.mp bracket
    have whole : s.rest = opening :: (between ++ closing :: next.rest) := by
      rw [← shape]
      exact List.eq_cons_of_mem_head? first
    have nextIs : next = ⟨next.rest, s.endLine⟩ := by
      rw [← show next.endLine = s.endLine from sameEnd]
    rw [nextIs] at inner
    rw [shape] at taken
    refine ⟨opening, between, closing, next.rest, whole, opens, closes, taken, inner, spelled, ?_⟩
    apply lengthText_read_iff _ spelled
    intro t member
    obtain ⟨x, inBetween, rfl⟩ := List.mem_map.mp member
    apply Lexemes.ofText_found lexed
    apply place.subset
    rw [whole]
    exact List.mem_cons_of_mem _ (List.mem_append_left _ inBetween)

def spacedLength : List Token :=
  [.word "f", .openParen, .number "0x1F", .comma, .word "s", .ellipsis, .closeParen, .star,
    .word "n", .operator "+", .word "len", .openParen, .string "\"a b\"", .closeParen,
    .operator "&^", .rune "'\\n'"]

theorem spaced_length_kept :
    ∃ l behind kept, Lexemes.ofText "[f(0x1F, s ...) * n + len(\"a b\") &^ '\\n' ]T" = .ok l ∧
      typeWithin 2 (Cursor.ofLexemes l) =
        .ok (.array "f(0x1F, s...)*n+len(\"a b\")&^'\\n'" (.name "T"), behind) ∧
      Lexemes.ofText "f(0x1F, s...)*n+len(\"a b\")&^'\\n'" = .ok kept ∧
      kept.items.map Lexeme.token = spacedLength ++ [.semicolon] := by
  let l : Lexemes :=
    ⟨onFirstLine (.openBracket :: spacedLength ++ [.closeBracket, .word "T", .semicolon]), 1⟩
  let behind : Cursor := ⟨[⟨.semicolon, 1⟩], 1⟩
  have lexed : Lexemes.ofText "[f(0x1F, s ...) * n + len(\"a b\") &^ '\\n' ]T" = .ok l := by
    decide +kernel
  have read : typeWithin 2 (Cursor.ofLexemes l) =
      .ok (.array "f(0x1F, s...)*n+len(\"a b\")&^'\\n'" (.name "T"), behind) := by
    rfl
  obtain ⟨opening, between, closing, rest, shape, -, -, taken, -, -, kept⟩ :=
    array_length_kept_iff lexed List.suffix_rfl read
  have inside : lengthTokens 0 l.items.tail =
      some (spacedLength, [⟨.word "T", 1⟩, ⟨.semicolon, 1⟩]) := by
    decide +kernel
  have behindBracket : l.items.tail = between ++ closing :: rest := congrArg List.tail shape
  have same : between.map Lexeme.token = spacedLength := by
    rw [behindBracket, taken] at inside
    exact (Prod.mk.inj (Option.some.inj inside)).1
  rw [same] at kept
  obtain ⟨again, run, tokens⟩ := kept.mpr (by decide +kernel)
  exact ⟨l, behind, again, lexed, read, run, tokens⟩

theorem length_signs_joined :
    ∃ l behind kept, Lexemes.ofText "[N - -1]T" = .ok l ∧
      typeWithin 2 (Cursor.ofLexemes l) = .ok (.array "N--1" (.name "T"), behind) ∧
      (lengthTokens 0 l.items.tail).map Prod.fst =
        some [.word "N", .operator "-", .operator "-", .number "1"] ∧
      Lexemes.ofText "N--1" = .ok kept ∧
      kept.items.map Lexeme.token = [.word "N", .operator "--", .number "1", .semicolon] := by
  refine ⟨⟨onFirstLine [.openBracket, .word "N", .operator "-", .operator "-", .number "1",
      .closeBracket, .word "T", .semicolon], 1⟩, ⟨[⟨.semicolon, 1⟩], 1⟩,
    ⟨onFirstLine [.word "N", .operator "--", .number "1", .semicolon], 1⟩, ?_⟩
  exact ⟨by decide +kernel, by rfl, by decide +kernel, by decide +kernel, by decide +kernel⟩

end Grammar

end GoSpy
