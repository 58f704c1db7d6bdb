import GoSpy.Proofs.Token.Traps
import GoSpy.Proofs.Grammar.SafeTexts
/- Reading tokens over indices, as machines run it. The tokens stand in a vector behind whose last
   place, the end of the text, no reader comes; a place beyond it counts as the last one. As for
   the scanner, `none` is a failed step: a place out of range, or a difference below zero. -/
namespace GoSpy

namespace Indexed

def vector (l : Lexemes) : List (Option Token × Nat) :=
  l.items.map (fun x => (some x.token, x.line)) ++ [(none, l.endLine)]

section

variable (v : List (Option Token × Nat))

def tokenAt (pos : Nat) : Option (Option Token × Nat) := do
  let last ← pred? v.length
  v[min pos last]?

def advance (pos : Nat) : Option ((Option Token × Nat) × Nat) := do
  let t ← tokenAt v pos
  let last ← pred? v.length
  some (t, if pos < last then pos + 1 else pos)

def elementBehind : Nat → Nat → Nat → Option Bool
  | 0, _, _ => none
  | fuel + 1, depth, pos => do
    let (t, _) ← tokenAt v pos
    match t with
    | some .openBracket => elementBehind fuel (depth + 1) (pos + 1)
    | some .closeBracket =>
      let depth ← pred? depth
      if depth = 0 then
        let (next, _) ← tokenAt v (pos + 1)
        some (next.any Grammar.startsElement)
      else elementBehind fuel depth (pos + 1)
    | none => some false
    | _ => elementBehind fuel depth (pos + 1)

def bracketFollowsName (pos : Nat) : Option Bool := elementBehind v (v.length + 1) 0 (pos + 1)

def startsWithName (close : Token) (pos : Nat) : Option Bool := do
  let (t, _) ← tokenAt v pos
  if t.any Token.isName then
    let (next, _) ← tokenAt v (pos + 1)
    match next with
    | some .comma | some .dot | some .pipe => some false
    | some .openBracket => bracketFollowsName v pos
    | some t => some (t != close && match t with
      | .word _ | .star | .openParen | .arrow | .ellipsis | .tilde => true
      | _ => false)
    | none => some false
  else some false

def isEmbedded (pos : Nat) : Option Bool := do
  let (next, _) ← tokenAt v (pos + 1)
  match next with
  | some .dot | some .semicolon | some .closeBrace | some (.string _) => some true
  | some .openBracket => (bracketFollowsName v pos).map (!·)
  | _ => some false

def blockEnd (start : Nat) : Nat → Nat → Nat → Option (Except Fault Nat)
  | 0, _, _ => none
  | fuel + 1, depth, pos =>
    if depth = 0 then some (.ok pos)
    else do
      let ((t, _), pos) ← advance v pos
      match t with
      | some .openBrace => blockEnd start fuel (depth + 1) pos
      | some .closeBrace =>
        let depth ← pred? depth
        blockEnd start fuel depth pos
      | none => some (.error ⟨start, .openBlock⟩)
      | _ => blockEnd start fuel depth pos

def skipBody (pos : Nat) : Option (Except Fault Nat) := do
  let (t, line) ← tokenAt v pos
  if t = some .openBrace then
    let (_, pos) ← advance v pos
    blockEnd v line (v.length + 1) 1 pos
  else some (.ok pos)

def valuesEnd (start : Nat) : Nat → Nat → Nat → Option (Except Fault Nat)
  | 0, _, _ => none
  | fuel + 1, depth, pos => do
    let (t, line) ← tokenAt v pos
    match t with
    | none => some (if 0 < depth then .error ⟨start, .openExpression⟩ else .ok pos)
    | some t =>
      if depth = 0 ∧ (t = .semicolon ∨ t = .closeParen) then some (.ok pos)
      else
        match t with
        | .openParen | .openBracket | .openBrace => do
          let (_, pos) ← advance v pos
          valuesEnd start fuel (depth + 1) pos
        | .closeParen | .closeBracket | .closeBrace =>
          if depth = 0 then some (.error ⟨line, .strayCloser (some t)⟩)
          else do
            let depth ← pred? depth
            let (_, pos) ← advance v pos
            valuesEnd start fuel depth pos
        | _ => do
          let (_, pos) ← advance v pos
          valuesEnd start fuel depth pos

def skipValues (pos : Nat) : Option (Except Fault Nat) := do
  let (_, line) ← tokenAt v pos
  valuesEnd v line (v.length + 1) 0 pos

end

structure Stands (l : Lexemes) (s : Cursor) (pos : Nat) : Prop where
  rest : s.rest = l.items.drop pos
  endLine : s.endLine = l.endLine
  inside : pos ≤ l.items.length

variable {l : Lexemes} {s : Cursor} {pos : Nat}

theorem pred_vector (l : Lexemes) : pred? (vector l).length = some l.items.length := by
  simp [vector, pred?]

theorem tokenAt_vector (l : Lexemes) (pos : Nat) :
    tokenAt (vector l) pos = some (match l.items[pos]? with
      | some x => (some x.token, x.line)
      | none => (none, l.endLine)) := by
  unfold tokenAt
  rw [pred_vector, Option.bind_eq_bind, Option.bind_some]
  by_cases inside : pos < l.items.length
  · rw [Nat.min_eq_left inside.le, vector, List.getElem?_append_left (by simpa using inside)]
    simp [inside]
  · have beyond := Nat.not_lt.mp inside
    rw [Nat.min_eq_right beyond, vector, List.getElem?_append_right (by simp),
      List.getElem?_eq_none beyond]
    simp

theorem tokenAt_ahead (stands : Stands l s pos) (n : Nat) :
    ∃ line, tokenAt (vector l) (pos + n) = some (s.peekAt n, line) := by
  rw [tokenAt_vector, Cursor.peekAt, stands.rest, List.getElem?_drop]
  cases l.items[pos + n]? with
  | some x => exact ⟨x.line, rfl⟩
  | none => exact ⟨l.endLine, rfl⟩

theorem tokenAt_here (stands : Stands l s pos) :
    tokenAt (vector l) pos = some (s.peek, s.line) := by
  have first : l.items[pos]? = s.rest.head? := by
    rw [stands.rest, List.head?_drop]
  rw [tokenAt_vector, first, Cursor.peek, Cursor.line, stands.endLine]
  cases s.rest <;> rfl

theorem advance_eq (stands : Stands l s pos) :
    ∃ next, advance (vector l) pos = some ((s.peek, s.line), next) ∧ Stands l s.advance next := by
  have inside := stands.inside
  unfold advance
  rw [tokenAt_here stands, pred_vector]
  refine ⟨_, rfl, ?_, stands.endLine, by split <;> omega⟩
  rw [Cursor.advance, stands.rest, List.tail_drop]
  split
  · rfl
  · have atEnd : pos = l.items.length := by omega
    simp [atEnd]

/- Brackets -/

theorem stands_drop (stands : Stands l s pos) (n : Nat) :
    ∃ line, tokenAt (vector l) (pos + n) =
      some ((s.rest.drop n).head?.map Lexeme.token, line) := by
  rw [List.head?_drop]
  exact tokenAt_ahead stands n

theorem elementBehind_eq (stands : Stands l s pos) {fuel depth n : Nat} {rest : List Lexeme}
    (behind : s.rest.drop n = rest) (enough : rest.length < fuel)
    (opened : 0 < depth ∨ rest.head?.map Lexeme.token = some .openBracket) :
    elementBehind (vector l) fuel depth (pos + n) =
      some ((Grammar.behindBracket depth rest).head?.any fun x =>
        Grammar.startsElement x.token) := by
  induction rest generalizing fuel depth n with
  | nil =>
    obtain ⟨fuel, rfl⟩ := Nat.exists_eq_add_one_of_ne_zero (by omega : fuel ≠ 0)
    obtain ⟨line, here⟩ := stands_drop stands n
    rw [elementBehind, here, behind]
    rfl
  | cons x rest ih =>
    obtain ⟨fuel, rfl⟩ := Nat.exists_eq_add_one_of_ne_zero (by omega : fuel ≠ 0)
    obtain ⟨line, here⟩ := stands_drop stands n
    obtain ⟨nextLine, next⟩ := stands_drop stands (n + 1)
    have later : s.rest.drop (n + 1) = rest := by rw [← List.drop_drop, behind]; rfl
    have shorter : rest.length < fuel := by simpa using enough
    rw [elementBehind, here, behind]
    simp only [Option.bind_eq_bind, Option.bind_some, List.head?_cons, Option.map_some]
    unfold Grammar.behindBracket
    cases token : x.token with
    | openBracket => exact ih later shorter (Or.inl (Nat.succ_pos depth))
    | closeBracket =>
      have positive : 0 < depth := by simpa [token] using opened
      obtain ⟨depth, rfl⟩ := Nat.exists_eq_add_one_of_ne_zero positive.ne'
      simp only [pred?, Option.bind_some]
      by_cases outermost : depth = 0
      · subst outermost
        rw [if_pos rfl, if_pos le_rfl, Nat.add_assoc, next, later]
        cases rest <;> rfl
      · rw [if_neg outermost, if_neg (by omega)]
        exact ih later shorter (Or.inl (Nat.pos_of_ne_zero outermost))
    | _ => exact ih later shorter (Or.inl (by simpa [token] using opened))

theorem length_vector (l : Lexemes) : (vector l).length = l.items.length + 1 := by
  simp [vector]

theorem length_rest (stands : Stands l s pos) : s.rest.length ≤ l.items.length := by
  rw [stands.rest, List.length_drop]
  omega

theorem bracketFollowsName_eq (stands : Stands l s pos)
    (bracket : s.peekAt 1 = some .openBracket) :
    bracketFollowsName (vector l) pos = some (Grammar.bracketFollowsName s) := by
  have shape : s.rest.drop 1 = s.rest.tail := by simp
  have opened : s.rest.tail.head?.map Lexeme.token = some .openBracket := by
    rw [← shape, List.head?_drop]
    exact bracket
  have enough : s.rest.tail.length < (vector l).length + 1 := by
    have := length_rest stands
    simp only [List.length_tail, length_vector]
    omega
  exact elementBehind_eq stands shape enough (Or.inr opened)

theorem startsWithName_eq (stands : Stands l s pos) (close : Token) :
    startsWithName (vector l) close pos = some (Grammar.startsWithName close s) := by
  obtain ⟨line, next⟩ := tokenAt_ahead stands 1
  unfold startsWithName Grammar.startsWithName
  rw [tokenAt_here stands, next]
  simp only [Option.bind_eq_bind, Option.bind_some, Cursor.nextIsName]
  split
  · rename_i name
    rw [name, Bool.true_and]
    cases there : s.peekAt 1 with
    | none => rfl
    | some t =>
      cases t with
      | openBracket => exact bracketFollowsName_eq stands there
      | _ => rfl
  · rename_i noName
    simp [noName]

theorem isEmbedded_eq (stands : Stands l s pos) :
    isEmbedded (vector l) pos = some (Grammar.isEmbedded s) := by
  obtain ⟨line, next⟩ := tokenAt_ahead stands 1
  unfold isEmbedded Grammar.isEmbedded
  rw [next]
  simp only [Option.bind_eq_bind, Option.bind_some]
  cases there : s.peekAt 1 with
  | none => rfl
  | some t =>
    cases t with
    | openBracket =>
      dsimp only
      rw [bracketFollowsName_eq stands there]
      rfl
    | _ => rfl

/- Passing over -/

/-- A run over indices comes to the place at which the cursor comes to stand, or to its fault. -/
def Agrees (l : Lexemes) (run : Option (Except Fault Nat)) : Except Fault Cursor → Prop
  | .ok s => ∃ pos, run = some (.ok pos) ∧ Stands l s pos
  | .error fault => run = some (.error fault)

theorem stands_tail (stands : Stands l s pos) {x : Lexeme} {rest : List Lexeme}
    (shape : s.rest = x :: rest) :
    ∃ line next, advance (vector l) pos = some ((some x.token, line), next) ∧
      Stands l { s with rest } next := by
  obtain ⟨next, run, behind⟩ := advance_eq stands
  refine ⟨s.line, next, ?_, ?_⟩
  · rw [run, Cursor.peek, shape]
    rfl
  · rw [Cursor.advance, shape] at behind
    exact behind

theorem blockEnd_eq {start fuel depth : Nat} (stands : Stands l s pos)
    (enough : s.rest.length + 1 < fuel) :
    Agrees l (blockEnd (vector l) start fuel (depth + 1) pos)
      (match Grammar.behindBlock (depth + 1) s.rest with
        | some rest => .ok { s with rest }
        | none => .error ⟨start, .openBlock⟩) := by
  obtain ⟨rest, endLine⟩ := s
  dsimp only at enough ⊢
  induction rest generalizing fuel depth pos with
  | nil =>
    obtain ⟨fuel, rfl⟩ := Nat.exists_eq_add_one_of_ne_zero (by omega : fuel ≠ 0)
    obtain ⟨next, run, -⟩ := advance_eq stands
    rw [blockEnd, if_neg (Nat.succ_ne_zero depth), run]
    rfl
  | cons x rest ih =>
    obtain ⟨fuel, rfl⟩ := Nat.exists_eq_add_one_of_ne_zero (by omega : fuel ≠ 0)
    obtain ⟨line, next, run, behind⟩ := stands_tail stands rfl
    have fewer : rest.length + 1 < fuel := by simpa using enough
    rw [blockEnd, if_neg (Nat.succ_ne_zero depth), run]
    simp only [Option.bind_eq_bind, Option.bind_some]
    unfold Grammar.behindBlock
    cases x.token with
    | openBrace => exact ih behind fewer
    | closeBrace =>
      dsimp only [pred?, Option.bind_some]
      cases depth with
      | zero =>
        obtain ⟨fuel, rfl⟩ := Nat.exists_eq_add_one_of_ne_zero (by omega : fuel ≠ 0)
        exact ⟨next, rfl, behind⟩
      | succ depth =>
        rw [if_neg (by omega)]
        exact ih behind fewer
    | _ => exact ih behind fewer

theorem skipBody_eq (stands : Stands l s pos) :
    Agrees l (skipBody (vector l) pos)
      (if s.peek = some .openBrace then Grammar.skipBlock s else .ok s) := by
  unfold skipBody
  rw [tokenAt_here stands]
  simp only [Option.bind_eq_bind, Option.bind_some]
  split
  · rename_i brace
    obtain ⟨x, first, token⟩ := Option.map_eq_some_iff.mp brace
    obtain ⟨rest, shape⟩ := List.head?_eq_some_iff.mp first
    obtain ⟨line, next, run, behind⟩ := stands_tail stands shape
    have enough : rest.length + 1 < (vector l).length + 1 := by
      have := length_rest stands
      simp only [shape, List.length_cons] at this
      rw [length_vector]
      omega
    rw [run]
    unfold Grammar.skipBlock
    rw [shape, Grammar.behindBlock, token]
    exact blockEnd_eq behind enough
  · exact ⟨pos, rfl, stands⟩

theorem valuesEnd_eq {start fuel depth : Nat} (stands : Stands l s pos)
    (enough : s.rest.length < fuel) :
    Agrees l (valuesEnd (vector l) start fuel depth pos)
      ((Grammar.behindValues start depth s.rest).map fun rest => { s with rest }) := by
  obtain ⟨rest, endLine⟩ := s
  dsimp only at enough ⊢
  induction rest generalizing fuel depth pos with
  | nil =>
    obtain ⟨fuel, rfl⟩ := Nat.exists_eq_add_one_of_ne_zero (by omega : fuel ≠ 0)
    rw [valuesEnd, tokenAt_here stands]
    unfold Grammar.behindValues
    cases depth with
    | zero => exact ⟨pos, rfl, stands⟩
    | succ => rfl
  | cons x rest ih =>
    obtain ⟨fuel, rfl⟩ := Nat.exists_eq_add_one_of_ne_zero (by omega : fuel ≠ 0)
    obtain ⟨line, next, run, behind⟩ := stands_tail stands rfl
    have fewer : rest.length < fuel := by simpa using enough
    have here : tokenAt (vector l) pos = some (some x.token, x.line) := tokenAt_here stands
    rw [valuesEnd, here]
    simp only [Option.bind_eq_bind, Option.bind_some, run]
    unfold Grammar.behindValues
    cases depth with
    | zero =>
      -- At depth 0 a closing mark ends the values or is a fault, so nothing is counted down.
      cases x.token with
      | semicolon | closeParen => exact ⟨pos, rfl, stands⟩
      | closeBracket | closeBrace => rfl
      | _ => exact ih behind fewer
    | succ depth => cases x.token <;> exact ih behind fewer

theorem skipValues_eq (stands : Stands l s pos) :
    Agrees l (skipValues (vector l) pos) (Grammar.skipValues s) := by
  have enough : s.rest.length < (vector l).length + 1 := by
    have := length_rest stands
    rw [length_vector]
    omega
  unfold skipValues
  rw [tokenAt_here stands]
  exact valuesEnd_eq stands enough

/-- Whatever a reader looks up from a place is there, and what it counts down was counted up. -/
structure Guarded (l : Lexemes) (s : Cursor) (pos : Nat) : Prop where
  stands : Stands l s pos
  here : tokenAt (vector l) pos = some (s.peek, s.line)
  ahead : ∀ n, ∃ line, tokenAt (vector l) (pos + n) = some (s.peekAt n, line)
  behind : ∃ next, advance (vector l) pos = some ((s.peek, s.line), next) ∧ Stands l s.advance next
  name : ∀ close, startsWithName (vector l) close pos = some (Grammar.startsWithName close s)
  embedded : isEmbedded (vector l) pos = some (Grammar.isEmbedded s)
  body : Agrees l (skipBody (vector l) pos)
    (if s.peek = some .openBrace then Grammar.skipBlock s else .ok s)
  values : Agrees l (skipValues (vector l) pos) (Grammar.skipValues s)

theorem Stands.guarded (stands : Stands l s pos) : Guarded l s pos where
  stands := stands
  here := tokenAt_here stands
  ahead := tokenAt_ahead stands
  behind := advance_eq stands
  name := startsWithName_eq stands
  embedded := isEmbedded_eq stands
  body := skipBody_eq stands
  values := skipValues_eq stands

theorem stands_of_past {n : Nat} (past : (Cursor.ofLexemes l).Past n s) :
    ∃ pos, Stands l s pos := by
  obtain ⟨front, whole⟩ := past.suffix
  have items : front ++ s.rest = l.items := whole
  refine ⟨front.length, ?_, past.endLine, ?_⟩
  · rw [← items, List.drop_left]
  · rw [← items, List.length_append]
    omega

end Indexed

namespace SourceFile

/-- On a text whose lines can be numbered by 32 bits neither scanning nor reading fails in a step
    over indices, from wherever in the tokens it is read, and there is fuel for all of it: the
    result is a source file, or an error in the file on a line that the text has. -/
theorem ofText_total (file text : String) (short : text.toList.count '\n' + 1 < UInt32.size - 1) :
    Indexed.lexemes text = some (Lexemes.ofText text) ∧
      (∀ l, Lexemes.ofText text = .ok l → ∀ n s, (Cursor.ofLexemes l).Past n s →
        ∃ pos, Indexed.Guarded l s pos) ∧
      ((∃ f, ofText file text = .ok f) ∨
        ∃ e, ofText file text = .error e ∧ e.file = file ∧ e.cause ≠ .tooDeep ∧
          1 ≤ e.line ∧ e.line ≤ 1 + text.toList.count '\n') := by
  refine ⟨Indexed.lexemes_eq (by omega), fun l _ n s past => ?_, ?_⟩
  · obtain ⟨pos, stands⟩ := Indexed.stands_of_past past
    exact ⟨pos, stands.guarded⟩
  · rcases ofText_ends file text with ⟨f, run, _⟩ | refused
    · exact Or.inl ⟨f, run⟩
    · exact Or.inr refused

/-- A literal that breaks off behind a backslash, right at the end of the text. -/
theorem truncated_total :
    "package a\nvar s = \"\\".toList.count '\n' + 1 < UInt32.size - 1 ∧
      Indexed.lexemes "package a\nvar s = \"\\" = some (.error ⟨2, .openString⟩) ∧
      ∃ e, ofText "a.go" "package a\nvar s = \"\\" = .error e ∧ e.file = "a.go" ∧ e.line ≤ 2 := by
  have short : "package a\nvar s = \"\\".toList.count '\n' + 1 < UInt32.size - 1 := by
    decide +kernel
  have fault : Lexemes.ofText "package a\nvar s = \"\\" = .error ⟨2, .openString⟩ := by
    decide +kernel
  obtain ⟨scanned, -, outcome⟩ := ofText_total "a.go" "package a\nvar s = \"\\" short
  refine ⟨short, scanned.trans (congrArg some fault), ?_⟩
  rcases outcome with ⟨f, run⟩ | ⟨e, run, named, -, -, below⟩
  · simp [ofText, fault, Except.bind, Except.mapError] at run
  · exact ⟨e, run, named, below⟩

end SourceFile

end GoSpy
