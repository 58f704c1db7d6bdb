import GoSpy.Grammar.Sequence
import GoSpy.Proofs.Syntax.NormalForm
import Mathlib.Data.List.Infix
/- Reading is safe wherever it starts: it comes to a value and a cursor further on, or to a fault
   on the line of a token that is left, and it never runs out of fuel. Each reader says how many
   tokens it takes at least, and from that every loop has rounds enough. -/
namespace GoSpy

def Token.isScanned (t : Token) : Bool :=
  !t.spelling.isEmpty &&
    match t with
    | word w => Text.isWord w
    | string text => isStringLiteral text
    | _ => true

namespace Cursor

/-- `s'` lies `n` tokens behind `s` at least, in the same run of tokens. -/
structure Past (n : Nat) (s s' : Cursor) : Prop where
  endLine : s'.endLine = s.endLine
  suffix : s'.rest <:+ s.rest
  length : s'.rest.length + n ≤ s.rest.length

def OnLine (s : Cursor) (line : Nat) : Prop := line = s.endLine ∨ ∃ x ∈ s.rest, x.line = line

def Scanned (s : Cursor) : Prop := ∀ x ∈ s.rest, x.token.isScanned = true

namespace Past

variable {s s' s'' : Cursor} {m n : Nat}

theorem refl (s : Cursor) : Past 0 s s := ⟨rfl, List.suffix_rfl, le_rfl⟩

theorem trans (first : Past m s s') (later : Past n s' s'') : Past (m + n) s s'' where
  endLine := later.endLine.trans first.endLine
  suffix := later.suffix.trans first.suffix
  length := by
    have := first.length
    have := later.length
    omega

theorem weaken (past : Past n s s') (fewer : m ≤ n) : Past m s s' :=
  ⟨past.endLine, past.suffix, by have := past.length; omega⟩

theorem scanned (past : Past n s s') (all : s.Scanned) : s'.Scanned :=
  fun x member => all x (past.suffix.subset member)

theorem onLine (past : Past n s s') {line : Nat} (on : s'.OnLine line) : s.OnLine line := by
  rcases on with atEnd | ⟨x, member, same⟩
  · exact Or.inl (atEnd.trans past.endLine)
  · exact Or.inr ⟨x, past.suffix.subset member, same⟩

end Past

theorem onLine_line (s : Cursor) : s.OnLine s.line := by
  unfold line
  split
  · exact Or.inl rfl
  · rename_i x rest shape
    exact Or.inr ⟨x, by simp [shape], rfl⟩

/-- A reading that starts at `s` comes to a result with a property, or to a fault on a line of
    `s` that is no lack of fuel. -/
def Safe {α : Type} (s : Cursor) (post : α → Prop) : Except Fault α → Prop
  | .ok result => post result
  | .error fault => fault.cause ≠ .tooDeep ∧ s.OnLine fault.line

namespace Safe

variable {α β : Type} {s s' : Cursor} {post : α → Prop} {next : β → Prop}

theorem bind {e : Except Fault α} {f : α → Except Fault β} (first : s.Safe post e)
    (rest : ∀ a, post a → s.Safe next (f a)) : s.Safe next (e >>= f) := by
  cases e with
  | ok a => exact rest a first
  | error => exact first

theorem ofTest {test : Prop} [Decidable test] {yes no : Except Fault α}
    {f : α → Except Fault β} (joined : s.Safe next ((if test then yes else no) >>= f)) :
    s.Safe next (if test then yes >>= f else no >>= f) := by
  split <;> simpa [*] using joined

theorem fail {cause : Cause} (apart : cause ≠ .tooDeep) : s.Safe post (s.fail cause) :=
  ⟨apart, s.onLine_line⟩

theorem back {n : Nat} (past : s.Past n s') {e : Except Fault α} (safe : s'.Safe post e) :
    s.Safe post e := by
  cases e with
  | ok => exact safe
  | error => exact ⟨safe.1, past.onLine safe.2⟩

theorem weaken {e : Except Fault α} {wider : α → Prop} (safe : s.Safe post e)
    (wide : ∀ a, post a → wider a) : s.Safe wider e := by
  cases e with
  | ok a => exact wide a safe
  | error => exact safe

end Safe

/- Single tokens -/

variable {s s' : Cursor} {t : Token}

theorem past_advance (there : s.peek = some t) : s.Past 1 s.advance := by
  obtain ⟨x, first, -⟩ := Option.map_eq_some_iff.mp there
  obtain ⟨rest, shape⟩ := List.head?_eq_some_iff.mp first
  refine ⟨rfl, ?_, ?_⟩ <;> simp [advance, shape]

theorem eat_eq_some (eaten : s.eat? t = some s') : s.peek = some t ∧ s' = s.advance := by
  unfold eat? at eaten
  split at eaten
  · rename_i there
    exact ⟨there, (Option.some.inj eaten).symm⟩
  · cases eaten

theorem past_eat (eaten : s.eat? t = some s') : s.Past 1 s' := by
  obtain ⟨there, rfl⟩ := eat_eq_some eaten
  exact past_advance there

theorem scanned_peek (scanned : s.Scanned) (there : s.peek = some t) : t.isScanned = true := by
  obtain ⟨x, first, rfl⟩ := Option.map_eq_some_iff.mp there
  exact scanned x (List.mem_of_head? first)

theorem expect_behind (s : Cursor) (t : Token) :
    s.Safe (fun s' => s.Past 1 s' ∧ s' = s.advance) (s.expect t) := by
  unfold expect
  split
  · rename_i s' eaten
    exact ⟨past_eat eaten, (eat_eq_some eaten).2⟩
  · exact .fail (by simp)

theorem expect_safe (s : Cursor) (t : Token) : s.Safe (s.Past 1) (s.expect t) :=
  (expect_behind s t).weaken fun _ => And.left

theorem past_dropSemicolons (lexemes : List Lexeme) : dropSemicolons lexemes <:+ lexemes := by
  induction lexemes with
  | nil => exact List.suffix_rfl
  | cons x rest ih =>
    unfold dropSemicolons
    split
    · exact ih.trans (List.suffix_cons x rest)
    · exact List.suffix_rfl

theorem past_skipSemicolons (s : Cursor) : s.Past 0 s.skipSemicolons :=
  ⟨rfl, past_dropSemicolons s.rest, (past_dropSemicolons s.rest).length_le⟩

theorem endEntry_safe (s : Cursor) : s.Safe (s.Past 0) s.endEntry := by
  unfold endEntry
  split
  · exact (past_advance ‹_›).weaken (by omega)
  · exact .refl s
  · exact .refl s
  · exact .refl s
  · exact .fail (by simp)

end Cursor

/- Readers -/

/-- A reader at `s` takes `n` tokens at least, and what it gives is good. -/
def Reader.Yields {α : Type} (reader : Reader α) (n : Nat) (good : α → Prop) (s : Cursor) : Prop :=
  s.Safe (fun r => s.Past n r.2 ∧ good r.1) (reader s)

namespace Cursor

theorem name_behind {s : Cursor} (scanned : s.Scanned) :
    s.Safe (fun r => s.Past 1 r.2 ∧ isIdentifier r.1 = true ∧ r.2 = s.advance) s.name := by
  unfold name
  split
  · rename_i w there
    split
    · exact .fail (by simp)
    · rename_i free
      have word := scanned_peek scanned there
      simp only [Token.isScanned, Bool.and_eq_true] at word
      exact ⟨past_advance there, (isIdentifier_iff w).mpr ⟨word.2, by simpa using free⟩, rfl⟩
  · exact .fail (by simp)

theorem name_yields {s : Cursor} (scanned : s.Scanned) :
    Reader.Yields name 1 (fun w => isIdentifier w = true) s :=
  (name_behind scanned).weaken fun _ ⟨past, identifier, _⟩ => ⟨past, identifier⟩

theorem string_yields {s : Cursor} (scanned : s.Scanned) :
    Reader.Yields string 1 (fun text => isStringLiteral text = true) s := by
  unfold Reader.Yields string
  split
  · rename_i text there
    have literal := scanned_peek scanned there
    simp only [Token.isScanned, Bool.and_eq_true] at literal
    exact ⟨past_advance there, literal.2⟩
  · exact .fail (by simp)

end Cursor

namespace Reader

open Cursor

section

variable {α : Type} {good : α → Prop} {here : Cursor → α → Prop} {s : Cursor} {fuel : Nat}

structure Items (here : Cursor → α → Prop) (s : Cursor) (xs : List α) : Prop where
  each : ∀ x ∈ xs, ∃ s', s.Past 0 s' ∧ here s' x
  first : ∀ x ∈ xs.head?, here s x

theorem Items.nil : Items here s [] := ⟨by simp, by simp⟩

theorem Items.cons {n : Nat} {s' : Cursor} {x : α} {xs : List α} (first : here s x)
    (past : s.Past n s') (later : Items here s' xs) : Items here s (x :: xs) where
  each := by
    refine List.forall_mem_cons.mpr ⟨⟨s, .refl s, first⟩, fun y member => ?_⟩
    obtain ⟨s'', further, good⟩ := later.each y member
    exact ⟨s'', (past.trans further).weaken (by omega), good⟩
  first := by simpa using first

theorem commaItems_yields {close : Token} {item : Reader α}
    (each : ∀ s', s.Past 0 s' → item.Yields 1 (here s') s') (enough : s.rest.length < fuel) :
    (commaItems close item fuel).Yields 0
      (fun xs => Items here s xs ∧ (s.peek ≠ some close → xs ≠ [])) s := by
  induction fuel generalizing s with
  | zero => omega
  | succ fuel ih =>
    unfold Yields commaItems
    split
    · rename_i closes
      exact ⟨.refl s, .nil, fun opens => absurd closes opens⟩
    · refine (each s (.refl s)).bind fun ⟨x, s₁⟩ ⟨past₁, first⟩ => ?_
      dsimp only
      split
      · exact ⟨past₁.weaken (by omega), .cons first past₁ .nil, by simp⟩
      · rename_i s₂ eaten
        have past₂ := past₁.trans (past_eat eaten)
        have later := ih (fun s' past => each s' ((past₂.trans past).weaken (by omega)))
          (by have := past₂.length; omega)
        refine (Safe.back past₂ later).bind fun ⟨xs, s₃⟩ ⟨past₃, all, _⟩ => ?_
        exact ⟨(past₂.trans past₃).weaken (by omega), .cons first past₂ all, by simp⟩

theorem separated_yields {mark : Token} {item : Reader α}
    (each : ∀ s', s.Past 0 s' → item.Yields 1 (here s') s') (enough : s.rest.length < fuel) :
    (separated mark item fuel).Yields 1 (fun xs => Items here s xs ∧ xs ≠ []) s := by
  induction fuel generalizing s with
  | zero => omega
  | succ fuel ih =>
    unfold Yields separated
    refine (each s (.refl s)).bind fun ⟨x, s₁⟩ ⟨past₁, first⟩ => ?_
    dsimp only
    split
    · exact ⟨past₁, .cons first past₁ .nil, by simp⟩
    · rename_i s₂ eaten
      have past₂ := past₁.trans (past_eat eaten)
      have later := ih (fun s' past => each s' ((past₂.trans past).weaken (by omega)))
        (by have := past₂.length; omega)
      refine (Safe.back past₂ later).bind fun ⟨xs, s₃⟩ ⟨past₃, all, _⟩ => ?_
      exact ⟨(past₂.trans past₃).weaken (by omega), .cons first past₂ all, by simp⟩

theorem entries_yields {close : Token} {item : List α → Reader α} (whole : List α → Prop)
    {before : List α}
    (each : ∀ earlier s', s.Past 0 s' → whole earlier →
      (item earlier).Yields 1 (fun x => good x ∧ whole (x :: earlier)) s')
    (start : whole before) (enough : s.rest.length < fuel) :
    (entries close item fuel before).Yields 0
      (fun xs => (∀ x ∈ xs, good x) ∧ whole (xs.reverse ++ before)) s := by
  induction fuel generalizing s before with
  | zero => omega
  | succ fuel ih =>
    unfold Yields entries
    have past := past_skipSemicolons s
    dsimp only
    split
    · exact ⟨past, by simp, start⟩
    · refine Safe.back past ((each before _ past start).bind fun ⟨x, s₁⟩ ⟨past₁, first, now⟩ => ?_)
      refine (Safe.back past₁ (endEntry_safe s₁)).bind fun s₂ past₂ => ?_
      have past₃ := past.trans (past₁.trans past₂)
      have later := ih (fun earlier s' further => each earlier s'
        ((past₃.trans further).weaken (by omega))) now (by have := past₃.length; omega)
      refine (Safe.back (past₁.trans past₂) later).bind fun ⟨xs, s₃⟩ ⟨past₄, all, done⟩ => ?_
      refine ⟨(past₃.trans past₄).weaken (by omega), List.forall_mem_cons.mpr ⟨first, all⟩, ?_⟩
      simpa using done

theorem group_yields {item : Reader α} (each : ∀ s', s.Past 0 s' → item.Yields 1 good s') :
    (group item).Yields 1 (fun r => ∀ x ∈ r.1, good x) s := by
  unfold Yields group
  split
  · refine (each s (.refl s)).bind fun ⟨x, s₁⟩ ⟨past₁, first⟩ => ?_
    exact ⟨past₁, by simpa using first⟩
  · rename_i s₁ eaten
    have past₁ := past_eat eaten
    have items : (entries .closeParen (fun _ => item) s₁.fuel []).Yields 0
        (fun xs => (∀ x ∈ xs, good x) ∧ True) s₁ :=
      entries_yields (fun _ => True)
        (fun _ s' past _ => (each s' ((past₁.trans past).weaken (by omega))).weaken
          fun _ ⟨further, x⟩ => ⟨further, x, trivial⟩)
        trivial (by simp [Cursor.fuel])
    refine (Safe.back past₁ items).bind fun ⟨xs, s₂⟩ ⟨past₂, all, _⟩ => ?_
    refine (Safe.back (past₁.trans past₂) (expect_safe s₂ _)).bind fun s₃ past₃ => ?_
    exact ⟨((past₁.trans past₂).trans past₃).weaken (by omega), all⟩

theorem names_yields (scanned : s.Scanned) :
    names.Yields 1 (fun ws => ws.all isIdentifier = true ∧ ws ≠ []) s := by
  have run : names.Yields 1 (fun ws => Items (fun _ w => isIdentifier w = true) s ws ∧ ws ≠ []) s :=
    separated_yields (fun s' past => name_yields (past.scanned scanned)) (Nat.lt_succ_self _)
  refine run.weaken fun _ ⟨past, all, nonempty⟩ => ⟨past, List.all_eq_true.mpr ?_, nonempty⟩
  intro w member
  obtain ⟨_, _, identifier⟩ := all.each w member
  exact identifier

end

end Reader

end GoSpy
