import GoSpy.Proofs.Grammar.Tokens
import GoSpy.Proofs.Syntax.WrittenShape
/- Lists of items, read by the tokens of each item. What an item is read as is left open; each
   list gives one value for each item, in order. -/
namespace GoSpy.Reader

open Cursor

variable {α β : Type} {value : β → α → Prop}

def Starts (close : Token) (tokens : List Token) : Prop :=
  ∃ t more, tokens = t :: more ∧ t ≠ close

theorem Starts.nonempty {close : Token} {tokens : List Token} (starts : Starts close tokens) :
    tokens ≠ [] := by
  obtain ⟨t, more, rfl, _⟩ := starts
  simp

theorem Starts.head {close : Token} {tokens : List Token} (starts : Starts close tokens)
    (rest : List Token) : (tokens ++ rest).head? ≠ some close := by
  obtain ⟨t, more, rfl, apart⟩ := starts
  simpa using apart

theorem length_parted (mark : Token) {entries : List (List Token)}
    (nonempty : ∀ tokens ∈ entries, tokens ≠ []) :
    entries.length ≤ (parted mark entries).length := by
  induction entries with
  | nil => simp [parted]
  | cons tokens rest ih =>
    have first := List.length_pos_iff.mpr (nonempty tokens List.mem_cons_self)
    have later := ih fun t member => nonempty t (List.mem_cons_of_mem _ member)
    by_cases more : rest = []
    · subst more
      simp only [parted, List.length_singleton]
      omega
    · rw [parted_cons mark tokens more]
      simp only [List.length_cons, List.length_append]
      omega

theorem length_lines {entries : List (List Token)} {tokens : List Token}
    (lines : Lines entries tokens) (nonempty : ∀ entry ∈ entries, entry ≠ []) :
    entries.length ≤ tokens.length := by
  induction lines with
  | none => simp
  | last entry =>
    have first := List.length_pos_iff.mpr (nonempty entry (by simp))
    simp only [List.length_singleton]
    omega
  | more entry _ ih =>
    have later := ih fun t member => nonempty t (List.mem_cons_of_mem _ member)
    simp only [List.length_cons, List.length_append]
    omega

structure ItemReads (close : Token) (item : Reader α) (fits : List Token → Prop)
    (value : β → α → Prop) (x : β) (tokens : List Token) : Prop where
  starts : Starts close tokens
  reads : Reads item tokens fits (value x)

theorem commaItems_reads {close : Token} {item : Reader α} {fits : List Token → Prop}
    {xs : List β} {entries : List (List Token)}
    (comma : ∀ rest, rest.head? = some .comma → fits rest)
    (closing : ∀ rest, rest.head? = some close → fits rest) (apart : close ≠ .comma)
    (each : List.Forall₂ (ItemReads close item fits value) xs entries) {fuel : Nat}
    (enough : entries.length < fuel) :
    Reads (commaItems close item fuel) (parted .comma entries)
      (fun rest => rest.head? = some close) (List.Forall₂ value xs) := by
  induction each generalizing fuel with
  | nil =>
    intro s rest shape stop
    obtain ⟨fuel, rfl⟩ := Nat.exists_eq_add_one_of_ne_zero (by omega : fuel ≠ 0)
    have closed : s.peek = some close := by
      rw [peek_eq, shape]
      exact stop
    exact ⟨[], s, by simp [commaItems, closed], shape, .nil⟩
  | @cons x tokens xs entries first later ih =>
    intro s rest shape stop
    obtain ⟨fuel, rfl⟩ := Nat.exists_eq_add_one_of_ne_zero (by omega : fuel ≠ 0)
    simp only [List.length_cons] at enough
    by_cases more : entries = []
    · subst more
      cases later
      have going : s.peek ≠ some close := by
        rw [peek_eq, shape]
        exact first.starts.head rest
      obtain ⟨y, s₁, run, behind, same⟩ := first.reads s rest shape (closing rest stop)
      have noComma : s₁.eat? .comma = none := by
        refine eat_other ?_
        rw [behind, stop]
        simpa using apart
      refine ⟨[y], s₁, ?_, behind, .cons same .nil⟩
      simp [commaItems, going, run, noComma, bind, Except.bind]
    · rw [parted_cons _ _ more, List.append_assoc, List.cons_append] at shape
      have going : s.peek ≠ some close := by
        rw [peek_eq, shape]
        exact first.starts.head _
      obtain ⟨y, s₁, run, behind, same⟩ := first.reads s _ shape (comma _ rfl)
      have shorter : entries.length < fuel := by omega
      obtain ⟨ys, s₂, runs, behind₂, all⟩ :=
        ih shorter s₁.advance rest (advance_cons behind) stop
      refine ⟨y :: ys, s₂, ?_, behind₂, .cons same all⟩
      simp [commaItems, going, run, eat_cons behind, runs, bind, Except.bind]

theorem commaItems_reads_all {close : Token} {item : Reader α} {fits : List Token → Prop}
    {xs : List β} {entries : List (List Token)}
    (comma : ∀ rest, rest.head? = some .comma → fits rest)
    (closing : ∀ rest, rest.head? = some close → fits rest) (apart : close ≠ .comma)
    (each : List.Forall₂ (ItemReads close item fits value) xs entries) :
    Reads (fun s => commaItems close item s.fuel s) (parted .comma entries)
      (fun rest => rest.head? = some close) (List.Forall₂ value xs) := by
  intro s rest shape stop
  refine commaItems_reads comma closing apart each ?_ s rest shape stop
  have nonempty : ∀ tokens ∈ entries, tokens ≠ [] := fun tokens member => by
    obtain ⟨_, _, item⟩ := exists_of_forall₂ each member
    exact item.starts.nonempty
  have := length_parted .comma nonempty
  rw [fuel_eq, shape, List.length_append]
  omega

theorem separated_reads {mark : Token} {item : Reader α} {fits : List Token → Prop}
    {xs : List β} {entries : List (List Token)} (nonempty : xs ≠ [])
    (marked : ∀ rest, rest.head? = some mark → fits rest)
    (each : List.Forall₂ (fun x tokens => Reads item tokens fits (value x)) xs entries)
    {fuel : Nat} (enough : entries.length ≤ fuel) :
    Reads (separated mark item fuel) (parted mark entries)
      (fun rest => fits rest ∧ rest.head? ≠ some mark) (List.Forall₂ value xs) := by
  induction each generalizing fuel with
  | nil => exact absurd rfl nonempty
  | @cons x tokens xs entries first later ih =>
    intro s rest shape stop
    simp only [List.length_cons] at enough
    obtain ⟨fuel, rfl⟩ := Nat.exists_eq_add_one_of_ne_zero (by omega : fuel ≠ 0)
    by_cases more : entries = []
    · subst more
      cases later
      obtain ⟨y, s₁, run, behind, same⟩ := first s rest shape stop.1
      have noMark : s₁.eat? mark = none := eat_other (behind ▸ stop.2)
      refine ⟨[y], s₁, ?_, behind, .cons same .nil⟩
      simp [separated, run, noMark, bind, Except.bind]
    · rw [parted_cons _ _ more, List.append_assoc, List.cons_append] at shape
      have others : xs ≠ [] := by
        rintro rfl
        cases later
        exact more rfl
      obtain ⟨y, s₁, run, behind, same⟩ := first s _ shape (marked _ rfl)
      have shorter : entries.length ≤ fuel := by omega
      obtain ⟨ys, s₂, runs, behind₂, all⟩ :=
        ih others shorter s₁.advance rest (advance_cons behind) stop
      refine ⟨y :: ys, s₂, ?_, behind₂, .cons same all⟩
      simp [separated, run, eat_cons behind, runs, bind, Except.bind]

theorem endEntry_semicolon {s : Cursor} {rest : List Token}
    (shape : s.tokens = .semicolon :: rest) : s.endEntry = .ok s.advance := by
  simp [endEntry, peek_cons shape]

theorem endEntry_close {s : Cursor} {close : Token}
    (closing : close = .closeParen ∨ close = .closeBrace) (next : s.tokens.head? = some close) :
    s.endEntry = .ok s := by
  rcases closing with rfl | rfl <;> simp [endEntry, peek_eq, next]

theorem entries_end {close : Token} {item : List α → Reader α} {before : List α} {fuel : Nat}
    {s : Cursor} (apart : some close ≠ some .semicolon) (next : s.tokens.head? = some close) :
    entries close item (fuel + 1) before s = .ok ([], s) := by
  simp only [entries]
  rw [skipSemicolons_other (next ▸ apart), if_pos (by rw [peek_eq, next])]

theorem entries_item {close : Token} {item : List α → Reader α} {before : List α} {fuel : Nat}
    {s : Cursor} (going : s.tokens.head? ≠ some close)
    (there : s.tokens.head? ≠ some .semicolon) :
    entries close item (fuel + 1) before s = (do
      let (x, s) ← item before s
      let s ← s.endEntry
      let (xs, s) ← entries close item fuel (x :: before) s
      .ok (x :: xs, s)) := by
  simp only [entries]
  rw [skipSemicolons_other there, if_neg (by rwa [peek_eq])]

/-- Entries read one by one, each in view of those before it. `ready` says what the entries
    already read have to do with those still to come. -/
theorem entries_reads (ready : List α → List β → Prop) (before : List α) {close : Token}
    {item : List α → Reader α} {fits : List Token → Prop} {xs : List β}
    {runs : List (List Token)} {tokens : List Token}
    (semicolon : ∀ rest, rest.head? = some .semicolon → fits rest)
    (closes : ∀ rest, rest.head? = some close → fits rest)
    (closing : close = .closeParen ∨ close = .closeBrace)
    (next : ∀ before x xs y, ready before (x :: xs) → value x y → ready (y :: before) xs)
    (each : List.Forall₂ (fun x run => Starts close run ∧ Starts .semicolon run ∧
      ∀ before xs, ready before (x :: xs) → Reads (item before) run fits (value x)) xs runs)
    (lines : Lines runs tokens) (start : ready before xs) {fuel : Nat}
    (enough : runs.length < fuel) :
    Reads (entries close item fuel before) tokens (fun rest => rest.head? = some close)
      (List.Forall₂ value xs) := by
  have apart : some close ≠ some .semicolon := by
    rcases closing with rfl | rfl <;> simp
  induction lines generalizing xs before fuel with
  | none =>
    cases each
    intro s rest shape stop
    obtain ⟨fuel, rfl⟩ := Nat.exists_eq_add_one_of_ne_zero (by omega : fuel ≠ 0)
    exact ⟨[], s, entries_end apart (shape ▸ stop), shape, .nil⟩
  | last entry =>
    -- The last entry has no semicolon: it ends in front of the mark, and so does the next round.
    obtain _ | ⟨⟨starts, starts', reads⟩, none⟩ := each
    cases none
    intro s rest shape stop
    simp only [List.length_singleton] at enough
    obtain ⟨fuel, rfl⟩ := Nat.exists_eq_add_one_of_ne_zero (by omega : fuel ≠ 0)
    obtain ⟨y, s₁, run, behind, same⟩ := reads before _ start s rest shape (closes rest stop)
    have ends := endEntry_close closing (behind ▸ stop)
    obtain ⟨fuel, rfl⟩ := Nat.exists_eq_add_one_of_ne_zero (by omega : fuel ≠ 0)
    have done : entries close item (fuel + 1) (y :: before) s₁ = .ok ([], s₁) :=
      entries_end apart (behind ▸ stop)
    refine ⟨[y], s₁, ?_, behind, .cons same .nil⟩
    rw [entries_item (shape ▸ starts.head rest) (shape ▸ starts'.head rest)]
    simp [run, ends, done, bind, Except.bind]
  | @more entry runs tokens later ih =>
    obtain _ | ⟨⟨starts, starts', reads⟩, others⟩ := each
    intro s rest shape stop
    rw [List.append_assoc, List.cons_append] at shape
    simp only [List.length_cons] at enough
    obtain ⟨fuel, rfl⟩ := Nat.exists_eq_add_one_of_ne_zero (by omega : fuel ≠ 0)
    obtain ⟨y, s₁, run, behind, same⟩ := reads before _ start s _ shape (semicolon _ rfl)
    have shorter : runs.length < fuel := by omega
    obtain ⟨ys, s₂, more, behind₂, all⟩ := ih (y :: before) others (next _ _ _ y start same)
      shorter s₁.advance rest (advance_cons behind) stop
    refine ⟨y :: ys, s₂, ?_, behind₂, .cons same all⟩
    rw [entries_item (shape ▸ starts.head _) (shape ▸ starts'.head _)]
    simp [run, endEntry_semicolon behind, more, bind, Except.bind]

end GoSpy.Reader
