import GoSpy.Proofs.Token.Indexed
import Mathlib.Data.List.Find
/- The scanner over indices never fails, and finds what the scanner over lists finds. Each loop
   is compared with its counterpart on the text behind the place it has come to. -/
namespace GoSpy.Indexed

open Scan

variable {text : List Char}

/- Places in a text -/

theorem at_cons {pos : Nat} {c : Char} {rest : List Char} (behind : text.drop pos = c :: rest) :
    pos < text.length ∧ text[pos]? = some c ∧ text.drop (pos + 1) = rest := by
  have inside : pos < text.length := by
    have length := congrArg List.length behind
    simp only [List.length_drop, List.length_cons] at length
    omega
  rw [List.drop_eq_getElem_cons inside] at behind
  obtain ⟨first, later⟩ := List.cons.inj behind
  exact ⟨inside, by rw [List.getElem?_eq_getElem inside, first], later⟩

theorem at_nil {pos : Nat} (behind : text.drop pos = []) : text.length ≤ pos :=
  List.drop_eq_nil_iff.mp behind

theorem drop_behind {pos : Nat} {front rest : List Char}
    (behind : text.drop pos = front ++ rest) : text.drop (pos + front.length) = rest := by
  rw [← List.drop_drop, behind, List.drop_left]

theorem slice_front {pos : Nat} {front rest : List Char}
    (behind : text.drop pos = front ++ rest) (inside : pos ≤ text.length) :
    slice text pos (pos + front.length) = some front := by
  have length := congrArg List.length behind
  simp only [List.length_drop, List.length_append] at length
  unfold slice
  rw [if_pos ⟨by omega, by omega⟩, behind]
  simp

theorem nextIs_eq {pos : Nat} {c : Char} {rest : List Char} (test : Char → Bool)
    (behind : text.drop pos = c :: rest) :
    nextIs text test pos = some (rest.head?.any test) := by
  obtain ⟨-, -, later⟩ := at_cons behind
  unfold nextIs
  cases rest with
  | nil =>
    have := at_nil later
    rw [if_neg (by omega)]
    rfl
  | cons d more =>
    obtain ⟨inside, next, -⟩ := at_cons later
    rw [if_pos inside, next]
    rfl

/- Loops -/

theorem fuel_succ {fuel : Nat} {rest : List Char} (enough : rest.length < fuel) :
    ∃ more, fuel = more + 1 ∧ rest.length ≤ more :=
  ⟨fuel - 1, by omega, by omega⟩

theorem skipWhile_eq (test : Char → Bool) {fuel pos : Nat} {rest : List Char}
    (behind : text.drop pos = rest) (enough : rest.length < fuel) :
    skipWhile text test fuel pos = some (pos + (rest.takeWhile test).length) := by
  induction rest generalizing pos fuel with
  | nil =>
    obtain ⟨fuel, rfl, -⟩ := fuel_succ enough
    have := at_nil behind
    rw [skipWhile, if_neg (by omega)]
    rfl
  | cons c rest ih =>
    obtain ⟨fuel, rfl, fewer⟩ := fuel_succ enough
    obtain ⟨inside, here, later⟩ := at_cons behind
    rw [skipWhile, if_pos inside, here, List.takeWhile_cons]
    simp only [Option.bind_eq_bind, Option.bind_some]
    split
    · rw [ih later fewer, List.length_cons]
      congr 1
      omega
    · rfl

theorem lineBehind_eq {c : Char} {line : Nat}
    (few : line + (if c == '\n' then 1 else 0) < UInt32.size) :
    lineBehind c line = some (line + if c == '\n' then 1 else 0) := by
  unfold lineBehind nextLine
  by_cases ends : c = '\n'
  · subst ends
    exact if_pos few
  · simp [ends]

theorem comment_eq {fuel pos line : Nat} {rest : List Char} (behind : text.drop pos = rest)
    (enough : rest.length < fuel) (few : line + rest.count '\n' < UInt32.size) :
    comment text fuel pos line =
      some ((commentBody rest).map fun r => (pos + r.1.length, line + r.1.count '\n')) := by
  fun_induction commentBody rest generalizing pos line fuel with
  | case1 more =>
    obtain ⟨fuel, rfl, -⟩ := fuel_succ enough
    obtain ⟨inside, here, -⟩ := at_cons behind
    rw [comment, if_neg (by omega), here]
    simp [lineBehind, closes, nextIs_eq _ behind]
  | case2 c rest notEnd ih =>
    obtain ⟨fuel, rfl, fewer⟩ := fuel_succ enough
    obtain ⟨inside, here, later⟩ := at_cons behind
    rw [List.count_cons] at few
    have goesOn : closes text c pos = some false := by
      unfold closes
      split
      · rename_i star
        rw [nextIs_eq _ behind]
        cases rest with
        | nil => rfl
        | cons d more =>
          have other : d ≠ '/' := by
            rintro rfl
            exact notEnd more star rfl
          simp [other]
      · rfl
    rw [comment, if_neg (by omega), here]
    simp only [Option.bind_eq_bind, Option.bind_some, goesOn]
    rw [lineBehind_eq (by omega), Option.bind_some, if_neg (by simp),
      ih later fewer (by omega)]
    simp only [Option.map_map, Function.comp_def, List.length_cons, List.count_cons]
    congr 2
    funext r
    exact Prod.ext (by dsimp only; omega) (by dsimp only; omega)
  | case3 =>
    obtain ⟨fuel, rfl, -⟩ := fuel_succ enough
    rw [comment, if_pos (at_nil behind)]
    rfl

theorem quoted_round {quote c : Char} {pos fuel : Nat} {rest : List Char}
    (behind : text.drop pos = c :: rest) :
    quoted text quote (fuel + 1) pos =
      if c = '\n' then some none
      else if c = '\\' then quoted text quote fuel (pos + 2)
      else if c = quote then some (some (pos + 1))
      else quoted text quote fuel (pos + 1) := by
  obtain ⟨inside, here, -⟩ := at_cons behind
  rw [quoted, if_neg (by omega), here]
  rfl

theorem quoted_end {quote : Char} {pos fuel : Nat} (beyond : text.length ≤ pos) :
    quoted text quote (fuel + 1) pos = some none := by
  rw [quoted, if_pos beyond]

theorem quoted_eq {quote : Char} (notSlash : quote ≠ '\\') (notLine : quote ≠ '\n')
    {fuel pos : Nat} {rest : List Char} (behind : text.drop pos = rest)
    (enough : rest.length < fuel) :
    quoted text quote fuel pos =
      some ((quotedBody quote rest).map fun r => pos + r.1.length) := by
  fun_induction quotedBody quote rest generalizing pos fuel with
  | case1 c rest ih =>
    obtain ⟨fuel, rfl, fewer⟩ := fuel_succ enough
    obtain ⟨-, -, later⟩ := at_cons behind
    obtain ⟨-, -, latest⟩ := at_cons later
    rw [quoted_round behind, if_neg (by decide), if_pos rfl,
      ih latest (by simp at fewer; omega)]
    simp only [Option.map_map, Function.comp_def, List.length_cons]
    congr 2
    funext r
    omega
  | case2 c rest noPair ends =>
    obtain ⟨fuel, rfl, fewer⟩ := fuel_succ enough
    obtain ⟨-, -, later⟩ := at_cons behind
    rw [quoted_round behind]
    rcases ends with newline | slash
    · rw [if_pos newline]
      rfl
    · -- A backslash at the end leads beyond it.
      have last : rest = [] := by
        cases rest with
        | nil => rfl
        | cons d more => exact (noPair d more slash rfl).elim
      subst last
      have beyond := at_nil later
      obtain ⟨fuel, rfl⟩ := Nat.exists_eq_add_of_le' (Nat.lt_of_lt_of_le Nat.zero_lt_one fewer)
      rw [if_neg (by rw [slash]; decide), if_pos slash, quoted_end (by omega)]
      rfl
  | case3 rest _ plain =>
    obtain ⟨fuel, rfl, -⟩ := fuel_succ enough
    rw [quoted_round behind, if_neg notLine, if_neg notSlash, if_pos rfl]
    rfl
  | case4 c rest _ plain other ih =>
    obtain ⟨fuel, rfl, fewer⟩ := fuel_succ enough
    obtain ⟨-, -, later⟩ := at_cons behind
    obtain ⟨notNewline, noSlash⟩ := not_or.mp plain
    rw [quoted_round behind, if_neg notNewline, if_neg noSlash, if_neg other, ih later fewer]
    simp only [Option.map_map, Function.comp_def, List.length_cons]
    congr 2
    funext r
    omega
  | case5 =>
    obtain ⟨fuel, rfl, -⟩ := fuel_succ enough
    rw [quoted_end (at_nil behind)]
    rfl

theorem raw_eq {fuel pos line : Nat} {rest : List Char} (behind : text.drop pos = rest)
    (enough : rest.length < fuel) (few : line + rest.count '\n' < UInt32.size) :
    raw text fuel pos line =
      some ((rawBody rest).map fun r => (pos + r.1.length, line + r.1.count '\n')) := by
  induction rest generalizing pos line fuel with
  | nil =>
    obtain ⟨fuel, rfl, -⟩ := fuel_succ enough
    rw [raw, if_pos (at_nil behind)]
    rfl
  | cons c rest ih =>
    obtain ⟨fuel, rfl, fewer⟩ := fuel_succ enough
    obtain ⟨inside, here, later⟩ := at_cons behind
    rw [List.count_cons] at few
    rw [raw, if_neg (by omega), here]
    simp only [Option.bind_eq_bind, Option.bind_some, pred?, here]
    rw [lineBehind_eq (by omega), Option.bind_some, rawBody]
    split
    · rename_i closes
      simp [closes]
    · rw [ih later fewer (by omega)]
      simp only [Option.map_map, Function.comp_def, List.length_cons, List.count_cons]
      congr 2
      funext r
      exact Prod.ext (by dsimp only; omega) (by dsimp only; omega)

theorem number_eq (hex : Bool) {fuel pos : Nat} {before : Char} {rest : List Char}
    (inFront : text[pos]? = some before) (behind : text.drop (pos + 1) = rest)
    (enough : rest.length < fuel) :
    number text hex fuel (pos + 1) =
      some (pos + 1 + (numberBody hex before rest).1.length) := by
  induction rest generalizing pos before fuel with
  | nil =>
    obtain ⟨fuel, rfl, -⟩ := fuel_succ enough
    have := at_nil behind
    rw [number, if_neg (by omega)]
    rfl
  | cons d rest ih =>
    obtain ⟨fuel, rfl, fewer⟩ := fuel_succ enough
    obtain ⟨inside, here, later⟩ := at_cons behind
    have sign : signs text hex d (pos + 1) =
        some ((d == '+' || d == '-') && isExponentMark hex before) := by
      unfold signs
      split
      · rename_i marked
        simp [pred?, inFront, marked]
      · rename_i plain
        simp [plain]
    rw [number, if_pos inside, here]
    simp only [Option.bind_eq_bind, Option.bind_some, sign, numberBody]
    split
    · rw [ih here later fewer, List.length_cons]
      congr 1
      omega
    · rfl

/- Rounds -/

theorem matchesFrom_eq (pos k : Nat) (operator : List Char) :
    ((operator.zipIdx k).all fun x => text[pos + x.2]? == some x.1) =
      operator.isPrefixOf (text.drop (pos + k)) := by
  induction operator generalizing k with
  | nil => simp
  | cons o more ih =>
    rw [List.zipIdx_cons, List.all_cons, ih]
    cases behind : text.drop (pos + k) with
    | nil =>
      have := at_nil behind
      simp [List.isPrefixOf, List.getElem?_eq_none this]
    | cons c rest =>
      obtain ⟨-, here, later⟩ := at_cons behind
      rw [here, ← Nat.add_assoc, later, List.isPrefixOf, Bool.beq_comm]
      rfl

theorem matchesAt_eq (pos : Nat) (operator : List Char) :
    matchesAt text pos operator = operator.isPrefixOf (text.drop pos) :=
  matchesFrom_eq pos 0 operator

def State.after (s : State) (p : Piece) : State where
  pos := s.pos + p.text.length
  line := s.line + p.lines
  tokens := match p with
    | .token t => s.tokens ++ [⟨t, s.line⟩]
    | .gap g => if g.contains '\n' then endLine s.tokens s.line else s.tokens

theorem hexAt_eq {pos : Nat} {c : Char} {rest : List Char} (behind : text.drop pos = c :: rest) :
    hexAt text pos c = isHex (c :: rest) := by
  obtain ⟨-, -, later⟩ := at_cons behind
  unfold hexAt
  cases rest with
  | nil => simp [isHex, List.getElem?_eq_none (at_nil later)]
  | cons x more =>
    obtain ⟨-, next, -⟩ := at_cons later
    rw [next]
    by_cases zero : c = '0'
    · subst zero
      rfl
    · simp [isHex, zero]

theorem startsNumber_eq (c : Char) (rest : List Char) :
    startsNumber (c :: rest) = true ↔
      c.isDigit = true ∨ c = '.' ∧ rest.head?.any Char.isDigit = true := by
  by_cases dot : c = '.'
  · subst dot
    cases rest <;> simp [startsNumber]
  · simp [startsNumber, dot]

theorem State.push_eq {s : State} {t : Token} {front : List Char}
    (spelled : t.spelling.toList = front) (oneLine : (Piece.token t).lines = 0) :
    s.push (s.pos + front.length) t = s.after (.token t) := by
  simp [push, after, Piece.text, spelled, oneLine]

theorem State.after_gap {s : State} {gap : List Char} (oneLine : '\n' ∉ gap) :
    s.after (.gap gap) = { s with pos := s.pos + gap.length } := by
  simp [after, Piece.text, Piece.lines, oneLine, List.count_eq_zero_of_not_mem oneLine]

theorem lines_symbol {t : Token} (symbol : t.isSymbol = true) : (Piece.token t).lines = 0 := by
  cases t <;> first | rfl | cases symbol

theorem ofLongOperator_symbol (text : List Char) : (ofLongOperator text).isSymbol = true := by
  unfold ofLongOperator
  split
  · rfl
  · split <;> rfl

section

variable {s : State} {c : Char} {rest : List Char} (behind : text.drop s.pos = c :: rest)

include behind

theorem cut_eq {front more : List Char} (kind : String → Token)
    (split : c :: rest = front ++ more) :
    cut text s (s.pos + front.length) kind =
      some (.ok (s.push (s.pos + front.length) (kind (String.ofList front)))) := by
  unfold cut
  rw [slice_front (split ▸ behind) (at_cons behind).1.le]
  rfl

theorem length_le : (c :: rest).length < text.length + 1 := by
  rw [← behind, List.length_drop]
  omega

theorem literal_eq {kind : String → Token} {cause : Cause} (plain : c ≠ '\\' ∧ c ≠ '\n') :
    literal text s c kind cause = some (match quotedBody c rest with
      | some (body, _) =>
        .ok (s.push (s.pos + (c :: body).length) (kind (String.ofList (c :: body))))
      | none => .error ⟨s.line, cause⟩) := by
  obtain ⟨-, -, later⟩ := at_cons behind
  have fewer := length_le behind
  unfold literal
  rw [quoted_eq plain.1 plain.2 later (by simp at fewer; omega)]
  cases run : quotedBody c rest with
  | none => rfl
  | some r =>
    obtain ⟨body, more⟩ := r
    have split : c :: rest = (c :: body) ++ more := by
      rw [List.cons_append, quotedBody_splits run]
    have stop : s.pos + 1 + body.length = s.pos + (c :: body).length := by
      rw [List.length_cons]
      omega
    simp only [Option.map_some, Option.bind_eq_bind, Option.bind_some, stop]
    exact cut_eq behind kind split

theorem operators_eq : operators text s c =
    some (((Scan.operator (c :: rest)).mapError (Fault.mk s.line)).map fun r => s.after r.1) := by
  have same : longOperators.find? (matchesAt text s.pos) =
      longOperators.find? (·.isPrefixOf (c :: rest)) :=
    List.find?_congr fun o _ => by rw [matchesAt_eq, behind]
  unfold operators Scan.operator
  rw [same]
  cases longOperators.find? (·.isPrefixOf (c :: rest)) with
  | some o =>
    dsimp only
    rw [State.push_eq (ofLongOperator_spelling o) (lines_symbol (ofLongOperator_symbol o))]
    rfl
  | none =>
    dsimp only
    cases mark : ofMark c with
    | some t =>
      have next : s.push (s.pos + 1) t = s.after (.token t) :=
        State.push_eq (ofMark_spelling mark) (lines_symbol (ofMark_symbol mark))
      simp only [next]
      rfl
    | none => rfl

theorem lineComment_eq {more : List Char} (slash : c = '/') (shape : rest = '/' :: more) :
    ((skipWhile text (· ≠ '\n') (text.length + 1) s.pos).bind fun pos =>
      some (.ok { s with pos } : Except Fault State)) =
      some (.ok (s.after (.gap ('/' :: '/' :: more.takeWhile (· ≠ '\n'))))) := by
  have oneLine : '\n' ∉ '/' :: '/' :: more.takeWhile (· ≠ '\n') := by
    simp only [List.mem_cons, not_or]
    exact ⟨by decide, by decide, fun member => by simpa using List.mem_takeWhile_imp member⟩
  rw [skipWhile_eq _ behind (length_le behind), State.after_gap oneLine, slash, shape]
  simp

theorem comments_eq {more : List Char} (slash : c = '/') (shape : rest = '*' :: more)
    (few : s.line + (c :: rest).count '\n' < UInt32.size) :
    comments text s = some (match commentBody more with
      | some (body, _) => .ok (s.after (.gap ('/' :: '*' :: body)))
      | none => .error ⟨s.line, .openComment⟩) := by
  subst slash shape
  obtain ⟨-, -, later⟩ := at_cons behind
  obtain ⟨-, -, latest⟩ := at_cons later
  have fewer := length_le behind
  unfold comments
  rw [comment_eq latest (by simp at fewer; omega) (by simpa using few)]
  cases commentBody more with
  | none => rfl
  | some r =>
    obtain ⟨body, behind⟩ := r
    have lines : s.line < s.line + body.count '\n' ↔ '\n' ∈ body := by
      rw [← List.count_pos_iff]
      omega
    simp [State.after, Piece.text, Piece.lines, lines, Nat.add_comm, Nat.add_left_comm]

theorem newline_eq (newline : c = '\n') (few : s.line + (c :: rest).count '\n' < UInt32.size) :
    ((nextLine s.line).bind fun line =>
      some (.ok ⟨s.pos + 1, line, endLine s.tokens s.line⟩ : Except Fault State)) =
      some (.ok (s.after (.gap [c]))) := by
  subst newline
  have next : nextLine s.line = some (s.line + 1) := if_pos (by simp at few; omega)
  rw [next]
  rfl

theorem rawLiteral_eq (quote : c = '\x60') (few : s.line + (c :: rest).count '\n' < UInt32.size) :
    rawLiteral text s = some (match rawBody rest with
      | some (body, _) => .ok (s.after (.token (.string (String.ofList (c :: body)))))
      | none => .error ⟨s.line, .openRawString⟩) := by
  subst quote
  obtain ⟨inside, -, later⟩ := at_cons behind
  have fewer := length_le behind
  unfold rawLiteral
  rw [raw_eq later (by simp at fewer; omega) (by simpa using few)]
  cases run : rawBody rest with
  | none => rfl
  | some r =>
    obtain ⟨body, more⟩ := r
    have split : '\x60' :: rest = ('\x60' :: body) ++ more := by
      rw [List.cons_append, rawBody_splits run]
    have stop : s.pos + 1 + body.length = s.pos + ('\x60' :: body).length := by
      rw [List.length_cons]
      omega
    simp only [Option.map_some, Option.bind_eq_bind, Option.bind_some, stop]
    rw [slice_front (split ▸ behind) inside.le]
    simp [State.after, State.push, Piece.text, Piece.lines, Token.spelling]

theorem number_cut :
    ((number text (hexAt text s.pos c) (text.length + 1) (s.pos + 1)).bind fun stop =>
      cut text s stop .number) = some (.ok (s.after (.token (.number
        (String.ofList (c :: (numberBody (isHex (c :: rest)) c rest).1)))))) := by
  obtain ⟨-, here, later⟩ := at_cons behind
  have fewer := length_le behind
  rw [hexAt_eq behind, number_eq _ here later (by simp at fewer; omega), Option.bind_some]
  have split : c :: rest = (c :: (numberBody (isHex (c :: rest)) c rest).1) ++
      (numberBody (isHex (c :: rest)) c rest).2 := by
    rw [List.cons_append, numberBody_splits]
  have stop : s.pos + 1 + (numberBody (isHex (c :: rest)) c rest).1.length =
      s.pos + (c :: (numberBody (isHex (c :: rest)) c rest).1).length := by
    rw [List.length_cons]
    omega
  rw [stop, cut_eq behind _ split, State.push_eq (by simp [Token.spelling]) rfl]

theorem word_cut (starts : Text.startsName c = true) :
    ((skipWhile text Text.continuesName (text.length + 1) s.pos).bind fun stop =>
      cut text s stop .word) = some (.ok (s.after (.token (.word
        (String.ofList (c :: rest.takeWhile Text.continuesName)))))) := by
  have whole : (c :: rest).takeWhile Text.continuesName =
      c :: rest.takeWhile Text.continuesName := by
    rw [List.takeWhile_cons, if_pos (Text.continuesName_of_startsName starts)]
  have split : c :: rest = (c :: rest.takeWhile Text.continuesName) ++
      rest.dropWhile Text.continuesName := by simp
  rw [skipWhile_eq _ behind (length_le behind), Option.bind_some, whole, cut_eq behind _ split,
    State.push_eq (by simp [Token.spelling]) rfl]

theorem round_eq (few : s.line + (c :: rest).count '\n' < UInt32.size) :
    round text s c =
      some (((piece (c :: rest)).mapError (Fault.mk s.line)).map fun r => s.after r.1) := by
  -- Both scanners try the same tests in the same order, and a test that fails stays in use below.
  unfold round
  rw [nextIs_eq _ behind, nextIs_eq _ behind, nextIs_eq _ behind]
  simp only [Option.bind_eq_bind, Option.bind_some, Option.pure_def, ← startsNumber_eq]
  by_cases lineComment : ∃ more, c :: rest = '/' :: '/' :: more
  · obtain ⟨more, shape⟩ := lineComment
    obtain ⟨slash, second⟩ := List.cons.inj shape
    have run : piece ('/' :: '/' :: more) = _ := piece_of_front (.lineComment more)
    rw [if_pos ⟨slash, by simp [second]⟩, lineComment_eq behind slash second, shape, run]
    rfl
  by_cases blockComment : ∃ more, c :: rest = '/' :: '*' :: more
  · obtain ⟨more, shape⟩ := blockComment
    obtain ⟨slash, second⟩ := List.cons.inj shape
    rw [if_neg (by simp [second]), if_pos ⟨slash, by simp [second]⟩,
      comments_eq behind slash second few, shape, piece]
    cases commentBody more <;> rfl
  have noComment {d : Char} (other : ¬∃ more, c :: rest = '/' :: d :: more) :
      ¬(c = '/' ∧ rest.head?.any (· == d) = true) := by
    rintro ⟨slash, second⟩
    cases rest with
    | nil => cases second
    | cons e more =>
      have same : e = d := by simpa using second
      exact other ⟨more, by rw [slash, same]⟩
  rw [if_neg (noComment lineComment), if_neg (noComment blockComment),
    piece_no_comment (fun more same => lineComment ⟨more, same⟩)
      (fun more same => blockComment ⟨more, same⟩)]
  by_cases newline : c = '\n'
  · rw [if_pos newline, newline_eq behind newline few, if_pos (by rw [newline]; decide)]
    rfl
  rw [if_neg newline]
  by_cases blank : Text.isBlank c = true
  · have oneLine : '\n' ∉ [c] := by simpa using Ne.symm newline
    rw [if_pos blank, if_pos blank]
    exact congrArg (fun s => some (Except.ok s)) (State.after_gap oneLine).symm
  rw [if_neg blank, if_neg blank]
  by_cases string : c = '"'
  · subst string
    rw [if_pos rfl, if_pos rfl, literal_eq behind (by decide)]
    cases quotedBody '"' rest with
    | none => rfl
    | some r =>
      dsimp only
      rw [State.push_eq (by simp [Token.spelling]) (by simp [Piece.lines])]
      rfl
  rw [if_neg string, if_neg string]
  by_cases rawString : c = '\x60'
  · rw [if_pos rawString, if_pos rawString, rawLiteral_eq behind rawString few]
    cases rawBody rest <;> rfl
  rw [if_neg rawString, if_neg rawString]
  by_cases rune : c = '\x27'
  · subst rune
    rw [if_pos rfl, if_pos rfl, literal_eq behind (by decide)]
    cases quotedBody '\x27' rest with
    | none => rfl
    | some r =>
      dsimp only
      rw [State.push_eq (by simp [Token.spelling]) rfl]
      rfl
  rw [if_neg rune, if_neg rune]
  by_cases number : startsNumber (c :: rest) = true
  · rw [if_pos number, if_pos number, number_cut behind]
    rfl
  rw [if_neg number, if_neg number]
  by_cases word : Text.startsName c = true
  · rw [if_pos word, if_pos word, word_cut behind word]
    rfl
  rw [if_neg word, if_neg word]
  exact operators_eq behind

end

/- Whole texts -/

def State.settled (s : State) (ps : List Piece) : Lexemes :=
  ⟨s.tokens ++ (settle (owed s.tokens) s.line ps).items,
    (settle (owed s.tokens) s.line ps).endLine⟩

theorem State.settled_nil (s : State) : s.settled [] = ⟨endLine s.tokens s.line, s.line⟩ := by
  unfold settled settle endLine
  cases owed s.tokens <;> simp

theorem State.settled_after (s : State) (p : Piece) (ps : List Piece) :
    (s.after p).settled ps = s.settled (p :: ps) := by
  cases p with
  | token t => simp [settled, after, settle, owed]
  | gap text =>
    by_cases ends : '\n' ∈ text
    · cases owes : owed s.tokens
      · simp [settled, after, settle, endLine, owes, ends]
      · have paid : owed (s.tokens ++ [⟨.semicolon, s.line⟩]) = false := by simp [owed]; rfl
        simp [settled, after, settle, endLine, owes, ends, paid]
    · simp [settled, after, settle, ends]

theorem State.after_piece {s : State} {c : Char} {rest later : List Char} {p : Piece}
    (behind : text.drop s.pos = c :: rest) (cut : piece (c :: rest) = .ok (p, later)) :
    text.drop (s.after p).pos = later ∧ (s.after p).pos ≠ 0 ∧ later.length ≤ rest.length ∧
      (s.after p).line + later.count '\n' ≤ s.line + (c :: rest).count '\n' := by
  have split := piece_splits cut
  have shorter : later.length ≤ rest.length := Nat.lt_succ_iff.mp (piece_shrinks cut)
  have length := congrArg List.length split
  rw [List.length_append, List.length_cons] at length
  have lines := congrArg (List.count '\n') split
  rw [List.count_append] at lines
  have own := p.lines_le
  refine ⟨drop_behind (split ▸ behind), ?_, shorter, ?_⟩
  · have : (s.after p).pos = s.pos + p.text.length := rfl
    omega
  · have : (s.after p).line = s.line + p.lines := rfl
    omega

theorem scan_eq {fuel enough : Nat} {s : State} {rest : List Char}
    (behind : text.drop s.pos = rest) (noMark : s.pos = 0 → rest.head? ≠ some '\ufeff')
    (rounds : rest.length < fuel) (cuts : rest.length ≤ enough)
    (few : s.line + rest.count '\n' < UInt32.size) :
    scan text fuel s = some ((pieces enough s.line rest).map s.settled) := by
  -- `fuel` bounds the rounds over indices and `enough` the pieces; neither has to be exact.
  induction fuel generalizing s rest enough with
  | zero => omega
  | succ fuel ih =>
    cases rest with
    | nil =>
      have atEnd := at_nil behind
      have none : pieces enough s.line [] = .ok [] := by cases enough <;> rfl
      rw [scan, if_neg (by omega), none, Except.map, State.settled_nil]
    | cons c rest =>
      obtain ⟨inside, here, -⟩ := at_cons behind
      obtain ⟨enough, rfl, fewer⟩ := fuel_succ (Nat.lt_of_lt_of_le (Nat.lt_succ_self _) cuts)
      have plain : ¬(s.pos = 0 ∧ c = '\ufeff') := fun ⟨start, mark⟩ =>
        noMark start (by simp [mark])
      rw [scan, if_pos inside, here]
      simp only [Option.bind_eq_bind, Option.bind_some]
      rw [if_neg plain, round_eq behind few, pieces]
      cases cut : piece (c :: rest) with
      | error cause => rfl
      | ok r =>
        obtain ⟨p, later⟩ := r
        obtain ⟨next, moved, shorter, lines⟩ := State.after_piece behind cut
        rw [List.length_cons] at rounds
        have run : scan text fuel (s.after p) =
            some ((pieces enough (s.line + p.lines) later).map (s.after p).settled) :=
          ih next (fun start => absurd start moved) (by omega) (by omega) (by omega)
        refine run.trans ?_
        dsimp only
        cases pieces enough (s.line + p.lines) later with
        | error => rfl
        | ok ps => exact congrArg (fun l => some (Except.ok l)) (s.settled_after p ps)

theorem lexemes_eq {text : String} (few : text.toList.count '\n' + 1 < UInt32.size) :
    lexemes text = some (Lexemes.ofText text) := by
  unfold lexemes Lexemes.ofText
  generalize text.toList = chars at few
  by_cases mark : chars.head? = some '\ufeff'
  · obtain ⟨rest, rfl⟩ := List.head?_eq_some_iff.mp mark
    have run : scan ('\ufeff' :: rest) (rest.length + 2) ⟨1, 1, []⟩ =
        some ((pieces rest.length 1 rest).map (settle false 1)) :=
      scan_eq (s := ⟨1, 1, []⟩) rfl (fun start => absurd start (by decide)) (by omega) le_rfl
        (by simp at few; simp; omega)
    rw [scan, if_pos (by simp)]
    exact run
  · have plain : skipMark chars = chars := by
      unfold skipMark
      split
      · exact absurd rfl mark
      · rfl
    rw [plain]
    exact scan_eq (s := ⟨0, 1, []⟩) rfl (fun _ => mark) (by omega) le_rfl (by simp; omega)

end GoSpy.Indexed
