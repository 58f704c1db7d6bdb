import GoSpy.Proofs.Grammar.SafeTypes
/- Reading in front of an edge is local. An edge is a bracket that closes the ones around it, or a mark
   behind which brackets pair up. As long as a reader stays in front of it, what stands behind it has
   no bearing on what it reads: not on the tokens it takes, not on those it looks ahead at, and not on
   how often its loops go round. -/
namespace GoSpy.Grammar

open Cursor Reader

/- Brackets that close -/

/-- The tokens run up to the bracket that closes `depth` open ones, whatever is behind it. -/
def Closes (depth : Nat) (xs : List Lexeme) : Prop := ∀ after, behindBracket depth (xs ++ after) = after

def Enclosed (xs : List Lexeme) : Prop := ∃ depth, 0 < depth ∧ Closes depth xs

section

variable {x : Lexeme} {xs : List Lexeme} {depth : Nat}

theorem behindBracket_open (isOpen : x.token = .openBracket) :
    behindBracket depth (x :: xs) = behindBracket (depth + 1) xs := by
  simp only [behindBracket, isOpen]

theorem behindBracket_close (closes : x.token = .closeBracket) :
    behindBracket depth (x :: xs) = if depth ≤ 1 then xs else behindBracket (depth - 1) xs := by
  simp only [behindBracket, closes]

theorem behindBracket_other (notOpen : x.token ≠ .openBracket) (notClose : x.token ≠ .closeBracket) :
    behindBracket depth (x :: xs) = behindBracket depth xs := by
  rw [behindBracket]
  split
  · exact absurd ‹_› notOpen
  · exact absurd ‹_› notClose
  · rfl

theorem not_closes_nil : ¬ Closes depth [] := by
  intro closes
  have bracket := closes [⟨.closeBracket, 0⟩]
  rw [List.nil_append, behindBracket_close rfl] at bracket
  split at bracket <;> cases bracket

namespace Closes

variable (closes : Closes depth (x :: xs))

include closes

theorem behind_open (isOpen : x.token = .openBracket) : Closes (depth + 1) xs := by
  intro after
  rw [← behindBracket_open isOpen]
  exact closes after

theorem behind_close (isClose : x.token = .closeBracket) (deep : 1 < depth) :
    Closes (depth - 1) xs := by
  intro after
  have whole := closes after
  rwa [List.cons_append, behindBracket_close isClose, if_neg (by omega)] at whole

theorem behind_last (isClose : x.token = .closeBracket) (flat : depth ≤ 1) : xs = [] := by
  have whole := closes []
  rwa [List.cons_append, behindBracket_close isClose, if_pos flat, List.append_nil] at whole

theorem behind_other (notOpen : x.token ≠ .openBracket) (notClose : x.token ≠ .closeBracket) :
    Closes depth xs := by
  intro after
  rw [← behindBracket_other notOpen notClose]
  exact closes after

end Closes

theorem Closes.inner {more : Nat} (closes : Closes more xs) (positive : 0 < depth)
    (fewer : depth < more) :
    ∃ ys, ys ≠ [] ∧ ∀ after, behindBracket depth (xs ++ after) = ys ++ after := by
  induction xs generalizing depth more with
  | nil => exact absurd closes not_closes_nil
  | cons x xs ih =>
    by_cases isOpen : x.token = .openBracket
    · simp only [List.cons_append, behindBracket_open isOpen]
      exact ih (closes.behind_open isOpen) (by omega) (by omega)
    · by_cases isClose : x.token = .closeBracket
      · have later := closes.behind_close isClose (by omega)
        simp only [List.cons_append, behindBracket_close isClose]
        split
        · refine ⟨xs, ?_, fun _ => rfl⟩
          rintro rfl
          exact not_closes_nil later
        · exact ih later (by omega) (by omega)
      · simp only [List.cons_append, behindBracket_other isOpen isClose]
        exact ih (closes.behind_other isOpen isClose) positive fewer

namespace Enclosed

theorem some (enclosed : Enclosed xs) : xs ≠ [] := by
  obtain ⟨depth, positive, closes⟩ := enclosed
  rintro rfl
  exact not_closes_nil closes

theorem behind (enclosed : Enclosed (x :: xs)) :
    x.token = .closeBracket ∧ xs = [] ∨ Enclosed xs := by
  obtain ⟨depth, positive, closes⟩ := enclosed
  by_cases isOpen : x.token = .openBracket
  · exact Or.inr ⟨depth + 1, by omega, closes.behind_open isOpen⟩
  · by_cases isClose : x.token = .closeBracket
    · by_cases flat : depth ≤ 1
      · exact Or.inl ⟨isClose, closes.behind_last isClose flat⟩
      · exact Or.inr ⟨depth - 1, by omega, closes.behind_close isClose (by omega)⟩
    · exact Or.inr ⟨depth, positive, closes.behind_other isOpen isClose⟩

theorem behind_other (enclosed : Enclosed (x :: xs)) (other : x.token ≠ .closeBracket) :
    Enclosed xs := by
  rcases enclosed.behind with ⟨close, _⟩ | tail
  · exact absurd close other
  · exact tail

theorem lookahead (enclosed : Enclosed (x :: xs)) (isOpen : x.token = .openBracket) :
    ∃ ys, ys ≠ [] ∧ ∀ after, behindBracket 0 (x :: xs ++ after) = ys ++ after := by
  obtain ⟨depth, positive, closes⟩ := enclosed
  simp only [List.cons_append, behindBracket_open isOpen]
  exact (closes.behind_open isOpen).inner (by omega) (by omega)

end Enclosed

end

/- Two texts with the same tokens in front -/

/-- A mark that no lookahead goes on from: it is no name, no semicolon and opens no bracket. -/
def isEdge : Token → Bool
  | .closeBracket | .openBrace | .assign => true
  | _ => false

/-- Tokens up to an edge, in front of `after` in one text and of `after'` in the other one. The token
    that is looked ahead at behind a bracket is the same in both. -/
inductive Fronts (after after' : List Lexeme) : List Lexeme → Prop where
  | edge {x : Lexeme} (ends : isEdge x.token = true) : Fronts after after' [x]
  | more {x : Lexeme} {xs : List Lexeme}
      (sees : x.token = .openBracket → (behindBracket 0 (x :: xs ++ after')).head? =
        (behindBracket 0 (x :: xs ++ after)).head?)
      (later : Fronts after after' xs) : Fronts after after' (x :: xs)

section

variable {after after' : List Lexeme}

namespace Fronts

variable {x : Lexeme} {xs ys : List Lexeme}

theorem some (fronts : Fronts after after' xs) : xs ≠ [] := by
  cases fronts <;> exact List.cons_ne_nil _ _

theorem tail (fronts : Fronts after after' (x :: xs)) (more : xs ≠ []) : Fronts after after' xs := by
  cases fronts with
  | edge => exact absurd rfl more
  | more _ later => exact later

theorem behind (fronts : Fronts after after' (x :: xs)) (inner : isEdge x.token = false) :
    Fronts after after' xs := by
  cases fronts with
  | edge ends => exact absurd ends (by simp [inner])
  | more _ later => exact later

theorem suffix (fronts : Fronts after after' (xs ++ ys)) (more : ys ≠ []) :
    Fronts after after' ys := by
  induction xs with
  | nil => exact fronts
  | cons x xs ih => exact ih (fronts.tail (List.append_ne_nil_of_right_ne_nil xs more))

theorem lookahead (fronts : Fronts after after' (x :: xs)) (isOpen : x.token = .openBracket) :
    (behindBracket 0 (x :: xs ++ after')).head? = (behindBracket 0 (x :: xs ++ after)).head? := by
  cases fronts with
  | edge ends => simp [isOpen, isEdge] at ends
  | more sees => exact sees isOpen

theorem dropSemicolons (fronts : Fronts after after' xs) :
    ∃ ys, Fronts after after' ys ∧
      ∀ rest, Cursor.dropSemicolons (xs ++ rest) = ys ++ rest := by
  induction xs with
  | nil => exact absurd rfl fronts.some
  | cons x xs ih =>
    by_cases semicolon : x.token = .semicolon
    · obtain ⟨ys, inside, skips⟩ := ih (fronts.behind (by simp [semicolon, isEdge]))
      refine ⟨ys, inside, ?_⟩
      intro rest
      rw [List.cons_append, Cursor.dropSemicolons, if_pos semicolon]
      exact skips rest
    · refine ⟨x :: xs, fronts, ?_⟩
      intro rest
      rw [List.cons_append, Cursor.dropSemicolons, if_neg semicolon]

end Fronts

theorem Enclosed.fronts {xs : List Lexeme} (enclosed : Enclosed xs) : Fronts after after' xs := by
  induction xs with
  | nil => exact absurd rfl enclosed.some
  | cons x xs ih =>
    rcases enclosed.behind with ⟨close, rfl⟩ | inside
    · exact .edge (by simp [close, isEdge])
    · refine .more ?_ (ih inside)
      intro isOpen
      obtain ⟨ys, some, sees⟩ := enclosed.lookahead isOpen
      obtain ⟨y, ys, rfl⟩ := List.exists_cons_of_ne_nil some
      rw [sees, sees]
      rfl

def Twins (after after' : List Lexeme) (s s' : Cursor) : Prop :=
  ∃ xs, Fronts after after' xs ∧ s.rest = xs ++ after ∧ s'.rest = xs ++ after'

/-- Cursors that look the same to a reader. Only at a name or an open bracket it looks further. -/
structure Looks (s s' : Cursor) : Prop where
  head : s'.rest.head? = s.rest.head?
  second : s.nextIsName = true ∨ s.peek = some .openBracket → s'.peekAt 1 = s.peekAt 1
  third : s.peek = some .openBracket → (s.peekAt 1).any Token.isName = true →
    s'.peekAt 2 = s.peekAt 2
  lookahead : s.nextIsName = true → s.peekAt 1 = some .openBracket →
    bracketFollowsName s' = bracketFollowsName s

theorem Looks.refl (s : Cursor) : Looks s s := ⟨rfl, fun _ => rfl, fun _ _ => rfl, fun _ _ => rfl⟩

theorem not_edge_of_name {t : Token} (isName : t.isName = true) : isEdge t = false := by
  cases t <;> first | rfl | cases isName

theorem Twins.looks {s s' : Cursor} (twins : Twins after after' s s') : Looks s s' := by
  obtain ⟨xs, fronts, rest, rest'⟩ := twins
  obtain ⟨x, xs, rfl⟩ := List.exists_cons_of_ne_nil fronts.some
  have peek : s.peek = some x.token := by simp [Cursor.peek, rest]
  have named : s.nextIsName = true → isEdge x.token = false := by
    intro isName
    exact not_edge_of_name (by simpa [nextIsName, peek] using isName)
  have bracket : s.peek = some .openBracket → isEdge x.token = false := by
    intro isOpen
    simp [Option.some.inj (peek.symm.trans isOpen), isEdge]
  refine ⟨by simp [rest, rest'], ?_, ?_, ?_⟩
  · intro further
    obtain ⟨y, ys, rfl⟩ :=
      List.exists_cons_of_ne_nil (fronts.behind (further.elim named bracket)).some
    simp [peekAt, rest, rest']
  · intro isOpen isName
    have inside := fronts.behind (bracket isOpen)
    obtain ⟨y, ys, rfl⟩ := List.exists_cons_of_ne_nil inside.some
    have inner : isEdge y.token = false := not_edge_of_name (by simpa [peekAt, rest] using isName)
    obtain ⟨z, zs, rfl⟩ := List.exists_cons_of_ne_nil (inside.behind inner).some
    simp [peekAt, rest, rest']
  · intro isName isOpen
    have inside := fronts.behind (named isName)
    obtain ⟨y, ys, rfl⟩ := List.exists_cons_of_ne_nil inside.some
    have sees := inside.lookahead (by simpa [peekAt, rest] using isOpen)
    have tail (more : List Lexeme) : (x :: y :: ys ++ more).tail = y :: ys ++ more := rfl
    simp only [bracketFollowsName, rest, rest', tail, sees]

theorem Twins.advance {s s' : Cursor} (twins : Twins after after' s s')
    (long : after.length < s.advance.rest.length) : Twins after after' s.advance s'.advance := by
  obtain ⟨xs, fronts, rest, rest'⟩ := twins
  obtain ⟨y, ys, rfl⟩ := List.exists_cons_of_ne_nil fronts.some
  have rest₁ : s.advance.rest = ys ++ after := congrArg List.tail rest
  have rest₁' : s'.advance.rest = ys ++ after' := congrArg List.tail rest'
  refine ⟨ys, fronts.tail ?_, rest₁, rest₁'⟩
  rintro rfl
  rw [rest₁, List.nil_append] at long
  omega

theorem Twins.skipSemicolons {s s' : Cursor} (twins : Twins after after' s s') :
    Twins after after' s.skipSemicolons s'.skipSemicolons := by
  obtain ⟨xs, fronts, rest, rest'⟩ := twins
  obtain ⟨ys, inside, drops⟩ := fronts.dropSemicolons
  refine ⟨ys, inside, ?_, ?_⟩
  · rw [Cursor.skipSemicolons, rest, drops]
  · rw [Cursor.skipSemicolons, rest', drops]

end

end GoSpy.Grammar

namespace GoSpy

open Cursor Grammar

section

variable {after after' : List Lexeme} {α β : Type}

/-- Two readings. The first one goes `k` tokens on at least, and as long as it stays in front of
    the edge, the second one, with less than `n` tokens in front of it, follows it. -/
def Follows (after after' : List Lexeme) (k n : Nat) (s s' : Cursor)
    (x x' : Except Fault (α × Cursor)) : Prop :=
  ∀ v t, x = .ok (v, t) → s.Past k t ∧
    (Twins after after' s s' → s'.rest.length < n → after.length < t.rest.length →
      ∃ t', x' = .ok (v, t') ∧ s'.Past k t' ∧ Twins after after' t t')

def Reader.Follows (after after' : List Lexeme) (k n : Nat) (r r' : Reader α) : Prop :=
  ∀ s s', GoSpy.Follows after after' k n s s' (r s) (r' s')

namespace Follows

variable {s s' : Cursor} {j k m n : Nat} {x x' : Except Fault (α × Cursor)}

theorem ok (v : α) : Follows after after' 0 n s s' (.ok (v, s)) (.ok (v, s')) := by
  intro v' t run
  obtain ⟨rfl, rfl⟩ := Prod.mk.inj (Except.ok.inj run)
  exact ⟨.refl s, fun twins _ _ => ⟨s', rfl, .refl s', twins⟩⟩

theorem error {fault : Fault} : Follows after after' k n s s' (.error fault) x' := by
  intro v t run
  cases run

theorem weaken (follows : Follows after after' j n s s' x x') (fewer : k ≤ j) (small : m ≤ n) :
    Follows after after' k m s s' x x' := by
  intro v t run
  obtain ⟨past, both⟩ := follows v t run
  refine ⟨past.weaken fewer, ?_⟩
  intro twins less long
  obtain ⟨t', run', past', twins'⟩ := both twins (by omega) long
  exact ⟨t', run', past'.weaken fewer, twins'⟩

theorem fueled (follows : Follows after after' k (min n s'.fuel) s s' x x') :
    Follows after after' k n s s' x x' := by
  intro v t run
  obtain ⟨past, both⟩ := follows v t run
  refine ⟨past, ?_⟩
  intro twins less long
  exact both twins (by simp only [fuel]; omega) long

theorem starved {x'' : Except Fault (α × Cursor)} (follows : Follows after after' k n s s' x x') :
    Follows after after' k 0 s s' x x'' := by
  intro v t run
  refine ⟨(follows v t run).1, ?_⟩
  intro _ none
  omega

theorem andThen {f f' : α × Cursor → Except Fault (β × Cursor)}
    (first : Follows after after' k n s s' x x')
    (later : ∀ a, Reader.Follows after after' j m (fun t => f (a, t)) (fun t => f' (a, t)))
    (small : n ≤ m + k) : Follows after after' (k + j) n s s' (x >>= f) (x' >>= f') := by
  intro v u run
  obtain ⟨⟨a, t⟩, run₁, run₂⟩ := bind_eq_ok.mp run
  obtain ⟨past₁, both₁⟩ := first a t run₁
  have past₂ := (later a t t v u run₂).1
  refine ⟨past₁.trans past₂, ?_⟩
  intro twins less long
  have further := past₂.length
  obtain ⟨t', run₁', past₁', twins'⟩ := both₁ twins less (by omega)
  have further' := past₁'.length
  obtain ⟨u', run₂', past₂', twins''⟩ := (later a t t' v u run₂).2 twins' (by omega) long
  exact ⟨u', bind_eq_ok.mpr ⟨_, run₁', run₂'⟩, past₁'.trans past₂', twins''⟩

theorem bind {f f' : α × Cursor → Except Fault (β × Cursor)}
    (first : Follows after after' k n s s' x x')
    (later : ∀ a, Reader.Follows after after' 0 n (fun t => f (a, t)) (fun t => f' (a, t))) :
    Follows after after' k n s s' (x >>= f) (x' >>= f') :=
  first.andThen later (Nat.le_add_right n k)

theorem bindLater {f f' : α × Cursor → Except Fault (β × Cursor)}
    (first : Follows after after' 0 n s s' x x')
    (later : ∀ a, Reader.Follows after after' k n (fun t => f (a, t)) (fun t => f' (a, t))) :
    Follows after after' k n s s' (x >>= f) (x' >>= f') :=
  (first.andThen later le_rfl).weaken (by omega) le_rfl

theorem behind {t : Token} (there : s.peek = some t)
    (later : Follows after after' 0 n s.advance s'.advance x x') :
    Follows after after' 1 (n + 1) s s' x x' := by
  intro v u run
  obtain ⟨past, both⟩ := later v u run
  have forward := (past_advance there).trans past
  refine ⟨forward, ?_⟩
  intro twins less long
  have there' : s'.peek = some t := by
    rw [← there]
    exact congrArg (Option.map Lexeme.token) twins.looks.head
  have past' := past_advance there'
  have further := past.length
  have twins' := twins.advance (by omega)
  have shorter := past'.length
  obtain ⟨u', run', past'', twins''⟩ := both twins' (by omega) long
  exact ⟨u', run', past'.trans past'', twins''⟩

theorem beyond {t : Token} (there : s.peek = some t)
    (later : Follows after after' 0 n s.advance s'.advance x x') :
    Follows after after' 0 n s s' x x' :=
  (behind there later).weaken (Nat.zero_le 1) (Nat.le_succ n)

theorem skip (later : Follows after after' k n s.skipSemicolons s'.skipSemicolons x x') :
    Follows after after' k n s s' x x' := by
  intro v u run
  obtain ⟨past, both⟩ := later v u run
  have skips := past_skipSemicolons s
  have skips' := past_skipSemicolons s'
  refine ⟨(skips.trans past).weaken (by omega), ?_⟩
  intro twins less long
  have shorter := skips'.length
  obtain ⟨u', run', past', twins''⟩ := both twins.skipSemicolons (by omega) long
  exact ⟨u', run', (skips'.trans past').weaken (by omega), twins''⟩

end Follows

namespace Reader.Follows

variable {j k m n : Nat}

/-- It is enough to compare readings that start at cursors which look the same: a reading is as
    long as itself, and where the second has to follow, the cursors do look the same. -/
theorem of_looks {r r' : Reader α}
    (follows : ∀ s s', Looks s s' → GoSpy.Follows after after' k n s s' (r s) (r' s')) :
    Reader.Follows after after' k n r r' := by
  intro s s' v t run
  refine ⟨(follows s s (.refl s) v t run).1, ?_⟩
  intro twins
  exact (follows s s' twins.looks v t run).2 twins

theorem past {r r' : Reader α} (follows : Reader.Follows after after' k n r r') {s t : Cursor} {v : α}
    (run : r s = .ok (v, t)) : s.Past k t := (follows s s v t run).1

theorem weaken {r r' : Reader α} (follows : Reader.Follows after after' j n r r') (fewer : k ≤ j)
    (small : m ≤ n) : Reader.Follows after after' k m r r' :=
  fun s s' => (follows s s').weaken fewer small

theorem free {r r' : Reader α} (follows : Reader.Follows after after' k n r r') :
    Reader.Follows after after' 0 n r r' := follows.weaken (Nat.zero_le k) le_rfl

theorem bind {r r' : Reader α} {f f' : α × Cursor → Except Fault (β × Cursor)}
    (first : Reader.Follows after after' k n r r')
    (later : ∀ a, Reader.Follows after after' 0 n (fun t => f (a, t)) (fun t => f' (a, t))) :
    Reader.Follows after after' k n (fun s => r s >>= f) (fun s => r' s >>= f') :=
  fun s s' => (first s s').bind later

theorem ok (v : α) : Reader.Follows after after' 0 n (fun s => .ok (v, s)) (fun s => .ok (v, s)) :=
  fun _ _ => .ok v

end Reader.Follows

namespace Grammar.Looks

variable {s s' : Cursor} (looks : Looks s s')

include looks

theorem peek : s'.peek = s.peek := congrArg (Option.map Lexeme.token) looks.head

theorem nextIsName : s'.nextIsName = s.nextIsName := by
  rw [Cursor.nextIsName, looks.peek, Cursor.nextIsName]

theorem line {t : Token} (there : s.peek = some t) : s'.line = s.line := by
  obtain ⟨x, first, -⟩ := Option.map_eq_some_iff.mp there
  obtain ⟨rest, shape⟩ := List.head?_eq_some_iff.mp first
  obtain ⟨rest', shape'⟩ := List.head?_eq_some_iff.mp (looks.head.trans first)
  simp only [Cursor.line, shape, shape']

theorem eat (t : Token) : s.eat? t = none ∧ s'.eat? t = none ∨
    s.peek = some t ∧ s.eat? t = some s.advance ∧ s'.eat? t = some s'.advance := by
  unfold eat?
  rw [looks.peek]
  by_cases there : s.peek = some t
  · exact Or.inr ⟨there, if_pos there, if_pos there⟩
  · exact Or.inl ⟨if_neg there, if_neg there⟩

theorem startsWithName (close : Token) :
    Grammar.startsWithName close s' = Grammar.startsWithName close s := by
  unfold Grammar.startsWithName
  rw [looks.nextIsName]
  by_cases named : s.nextIsName = true
  · rw [looks.second (Or.inl named)]
    by_cases bracket : s.peekAt 1 = some .openBracket
    · rw [looks.lookahead named bracket]
    · split <;> first | rfl | exact absurd ‹_› bracket
  · simp [named]

end Grammar.Looks

theorem Follows.expect {s s' : Cursor} {n : Nat} (looks : Looks s s') (t : Token)
    {f f' : Reader α} (later : Reader.Follows after after' 0 n f f') :
    Follows after after' 0 n s s' (s.expect t >>= f) (s'.expect t >>= f') := by
  unfold Cursor.expect
  rcases looks.eat t with ⟨other, other'⟩ | ⟨there, eaten, eaten'⟩
  · rw [other, other']
    exact .error
  · rw [eaten, eaten']
    exact .beyond there (later _ _)

namespace Reader.Follows

variable {k n : Nat}

theorem expect (t : Token) {f f' : Reader α} (later : Reader.Follows after after' 0 n f f') :
    Reader.Follows after after' 0 n (fun s => s.expect t >>= f) (fun s => s.expect t >>= f') :=
  of_looks fun _ _ looks => .expect looks t later

theorem endEntry {f f' : Reader α} (later : Reader.Follows after after' 0 n f f') :
    Reader.Follows after after' 0 n (fun s => s.endEntry >>= f) (fun s => s.endEntry >>= f') := by
  refine of_looks fun s s' looks => ?_
  unfold Cursor.endEntry
  rw [looks.peek]
  split
  · exact .beyond ‹_› (later _ _)
  · exact later s s'
  · exact later s s'
  · exact later s s'
  · exact .error

theorem name : Reader.Follows after after' 1 n Cursor.name Cursor.name := by
  refine of_looks fun s s' looks => ?_
  unfold Cursor.name
  rw [looks.peek]
  split
  · split
    · exact .error
    · exact (GoSpy.Follows.behind ‹_› (.ok _)).weaken (by omega) (Nat.le_succ n)
  · exact .error

/- Repetition -/

/-- A loop follows another one if it does so round by round. Without fuel for a round it need not,
    but the other one is no longer for that. -/
theorem of_rounds {loop : Reader α} (loop' : Nat → Reader α) (fuel' : Nat)
    (round : ∀ fuel', Reader.Follows after after' k (min n (fuel' + 1)) loop (loop' (fuel' + 1))) :
    Reader.Follows after after' k (min n fuel') loop (loop' fuel') := by
  cases fuel' with
  | zero =>
    -- Without fuel nothing is asked of the other loop.
    rw [Nat.min_zero]
    exact fun s s' => .starved (round 0 s s')
  | succ fuel' => exact round fuel'

variable {item item' : Reader α}

theorem commaItems (each : Reader.Follows after after' 1 n item item') (close : Token)
    (fuel fuel' : Nat) :
    Reader.Follows after after' 0 (min n fuel') (Reader.commaItems close item fuel)
      (Reader.commaItems close item' fuel') := by
  induction fuel generalizing fuel' with
  | zero => exact fun _ _ => .error
  | succ fuel ih =>
    refine of_rounds (Reader.commaItems close item') fuel' fun fuel' => ?_
    refine of_looks fun s s' looks => ?_
    unfold Reader.commaItems
    rw [looks.peek]
    split
    · exact .ok []
    · refine .bind ((each s s').weaken (by omega) (by omega)) fun x => ?_
      refine of_looks fun t t' looks => ?_
      dsimp only
      rcases looks.eat .comma with ⟨other, other'⟩ | ⟨comma, eaten, eaten'⟩
      · rw [other, other']
        exact .ok [x]
      · rw [eaten, eaten']
        refine (GoSpy.Follows.behind comma (.bind (ih fuel' _ _) fun xs => ?_)).weaken
          (by omega) (by omega)
        exact .ok (x :: xs)

theorem separated (each : Reader.Follows after after' 1 n item item') (mark : Token)
    (fuel fuel' : Nat) :
    Reader.Follows after after' 1 (min n fuel') (Reader.separated mark item fuel)
      (Reader.separated mark item' fuel') := by
  induction fuel generalizing fuel' with
  | zero => exact fun _ _ => .error
  | succ fuel ih =>
    refine of_rounds (Reader.separated mark item') fuel' fun fuel' => ?_
    refine bind (each.weaken le_rfl (by omega)) fun x => of_looks fun t t' looks => ?_
    dsimp only
    rcases looks.eat mark with ⟨other, other'⟩ | ⟨there, eaten, eaten'⟩
    · rw [other, other']
      exact .ok [x]
    · rw [eaten, eaten']
      refine (GoSpy.Follows.behind there (.bind ((ih fuel').free _ _) fun xs => ?_)).weaken
        (by omega) (by omega)
      exact .ok (x :: xs)

theorem entries {item item' : List α → Reader α}
    (each : ∀ before, Reader.Follows after after' 1 n (item before) (item' before)) (close : Token)
    (fuel fuel' : Nat) (before : List α) :
    Reader.Follows after after' 0 (min n fuel') (Reader.entries close item fuel before)
      (Reader.entries close item' fuel' before) := by
  induction fuel generalizing fuel' before with
  | zero => exact fun _ _ => .error
  | succ fuel ih =>
    refine of_rounds (Reader.entries close item' · before) fuel' fun fuel' => ?_
    intro s s'
    refine .skip ?_
    simp only [Reader.entries]
    generalize s.skipSemicolons = s₁
    generalize s'.skipSemicolons = s₁'
    revert s₁ s₁'
    refine of_looks fun s₁ s₁' looks => ?_
    rw [looks.peek]
    split
    · exact .ok []
    · have first : Reader.Follows after after' 1 (min n (fuel' + 1)) (item before)
          (item' before) := (each before).weaken le_rfl (by omega)
      refine ((first s₁ s₁').andThen (j := 0) (m := min n fuel') (fun x => ?_) (by omega)).weaken
        (Nat.zero_le _) le_rfl
      dsimp only
      refine .endEntry (.bind (ih fuel' (x :: before)) fun xs => ?_)
      exact .ok (x :: xs)

theorem names : Reader.Follows after after' 1 n Reader.names Reader.names :=
  fun s s' => .fueled (separated name .comma s.fuel s'.fuel s s')

end Reader.Follows

end

end GoSpy
