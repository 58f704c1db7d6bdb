import GoSpy.Grammar.Declarations
import GoSpy.Proofs.Grammar.Locality
import Mathlib.Tactic.MkIffOfInductiveProp
/- Tokens with marks that pair up. Counting marks comes to where it started, so that the tokens are
   passed over as a body or as initial values, and a lookahead that runs into them comes out of them
   as deep as it was. -/
namespace GoSpy.Grammar

/-- How many marks are open behind the tokens if `depth` are in front of them, unless one is closed
    that is not open. -/
def openMarks («open» close : Token) : Nat → List Lexeme → Option Nat
  | depth, [] => some depth
  | depth, x :: rest =>
    if x.token = «open» then openMarks «open» close (depth + 1) rest
    else if x.token = close then
      if depth = 0 then none else openMarks «open» close (depth - 1) rest
    else openMarks «open» close depth rest

/-- The tokens close as many braces, brackets and parentheses as are open in front of them, none before
    it is open, and all that they open themselves. -/
@[mk_iff]
structure Closing (braces brackets parens : Nat) (xs : List Lexeme) : Prop where
  braces : openMarks .openBrace .closeBrace braces xs = some 0
  brackets : openMarks .openBracket .closeBracket brackets xs = some 0
  parens : openMarks .openParen .closeParen parens xs = some 0

def Balanced (xs : List Lexeme) : Prop := Closing 0 0 0 xs

def InnerSemicolons (xs : List Lexeme) : Prop :=
  ∀ front x back, xs = front ++ x :: back → x.token = .semicolon → ¬ Balanced front

instance (xs : List Lexeme) : Decidable (Balanced xs) := decidable_of_iff _ (closing_iff 0 0 0 xs).symm

theorem innerSemicolons_iff (xs : List Lexeme) :
    InnerSemicolons xs ↔ ∀ i, (inside : i < xs.length) → xs[i].token = .semicolon →
      ¬ Balanced (xs.take i) := by
  constructor
  · intro inner i inside semicolon
    refine inner (xs.take i) xs[i] (xs.drop (i + 1)) ?_ semicolon
    rw [List.getElem_cons_drop, List.take_append_drop]
  · rintro inner front x back rfl semicolon
    simpa using inner front.length (by simp) (by simpa using semicolon)

instance (xs : List Lexeme) : Decidable (InnerSemicolons xs) :=
  decidable_of_iff _ (innerSemicolons_iff xs).symm

/- Values token by token -/

section

variable {start depth : Nat} {x : Lexeme} {xs rest : List Lexeme}

theorem behindValues_open
    (opens : x.token = .openBrace ∨ x.token = .openBracket ∨ x.token = .openParen) :
    behindValues start depth (x :: xs) = behindValues start (depth + 1) xs := by
  rcases opens with kind | kind | kind <;> simp only [behindValues, kind]

theorem behindValues_close {less : Nat}
    (closes : x.token = .closeBrace ∨ x.token = .closeBracket ∨ x.token = .closeParen)
    (inside : depth = less + 1) :
    behindValues start depth (x :: xs) = behindValues start less xs := by
  subst inside
  rcases closes with kind | kind | kind <;>
    simp only [behindValues, kind, Nat.add_one_ne_zero, if_false, Nat.add_sub_cancel]

theorem behindValues_semicolon (semicolon : x.token = .semicolon) (inside : depth ≠ 0) :
    behindValues start depth (x :: xs) = behindValues start depth xs := by
  simp only [behindValues, semicolon, if_neg inside]

theorem behindValues_end (ends : ∀ y ∈ xs.head?, y.token = .semicolon ∨ y.token = .closeParen) :
    behindValues start 0 xs = .ok xs := by
  cases xs with
  | nil => rfl
  | cons y xs => rcases ends y rfl with kind | kind <;> simp only [behindValues, kind, if_true]

theorem behindValues_cons (run : behindValues start depth (x :: xs) = .ok rest) :
    (depth = 0 ∧ (x.token = .semicolon ∨ x.token = .closeParen) ∧ rest = x :: xs) ∨
      ∃ deep, behindValues start deep xs = .ok rest ∧
        ∀ start more, behindValues start depth (x :: more) = behindValues start deep more := by
  have goOn (deep : Nat)
      (same : ∀ start more, behindValues start depth (x :: more) = behindValues start deep more) :
      ∃ deep, behindValues start deep xs = .ok rest ∧
        ∀ start more, behindValues start depth (x :: more) = behindValues start deep more :=
    ⟨deep, (same start xs).symm.trans run, same⟩
  cases kind : x.token
  case openBrace | openBracket | openParen =>
    exact Or.inr (goOn (depth + 1) fun _ _ => behindValues_open (by simp [kind]))
  case closeParen =>
    cases depth with
    | zero =>
      simp only [behindValues, kind, if_true, Except.ok.injEq] at run
      exact Or.inl ⟨rfl, Or.inr rfl, run.symm⟩
    | succ less => exact Or.inr (goOn less fun _ _ => behindValues_close (by simp [kind]) rfl)
  case closeBrace | closeBracket =>
    cases depth with
    | zero =>
      simp only [behindValues, kind, if_true] at run
      cases run
    | succ less => exact Or.inr (goOn less fun _ _ => behindValues_close (by simp [kind]) rfl)
  case semicolon =>
    cases depth with
    | zero =>
      simp only [behindValues, kind, if_true, Except.ok.injEq] at run
      exact Or.inl ⟨rfl, Or.inl rfl, run.symm⟩
    | succ less => exact Or.inr (goOn (less + 1) fun _ _ => behindValues_semicolon kind (by omega))
  all_goals exact Or.inr (goOn depth fun _ _ => by simp only [behindValues, kind])

end

/- Tokens passed over -/

section

variable {x : Lexeme} {xs rest : List Lexeme} {depth behind : Nat}

theorem openMarks_cons {«open» close : Token}
    (marks : openMarks «open» close depth (x :: xs) = some behind) :
    (x.token = «open» ∧ openMarks «open» close (depth + 1) xs = some behind) ∨
      (x.token ≠ «open» ∧ x.token = close ∧
        ∃ less, depth = less + 1 ∧ openMarks «open» close less xs = some behind) ∨
      (x.token ≠ «open» ∧ x.token ≠ close ∧ openMarks «open» close depth xs = some behind) := by
  unfold openMarks at marks
  split at marks
  · exact Or.inl ⟨‹_›, marks⟩
  · split at marks
    · split at marks
      · cases marks
      · exact Or.inr (Or.inl ⟨‹_›, ‹_›, depth - 1, by omega, marks⟩)
    · exact Or.inr (Or.inr ⟨‹_›, ‹_›, marks⟩)

theorem openMarks_closed {«open» close : Token} (closes : x.token = close)
    (marks : openMarks «open» close depth (x :: xs) = some behind) (apart : «open» ≠ close) :
    ∃ less, depth = less + 1 := by
  rcases openMarks_cons marks with ⟨isOpen, -⟩ | ⟨-, -, less, same, -⟩ | ⟨-, other, -⟩
  · exact absurd (isOpen.symm.trans closes) apart
  · exact ⟨less, same⟩
  · exact absurd closes other

theorem behindBlock_balanced (braces : openMarks .openBrace .closeBrace depth xs = some behind) :
    behindBlock (depth + 1) (xs ++ rest) = behindBlock (behind + 1) rest := by
  induction xs generalizing depth with
  | nil => rw [← Option.some.inj braces, List.nil_append]
  | cons x xs ih =>
    rw [List.cons_append]
    rcases openMarks_cons braces with ⟨isOpen, later⟩ | ⟨-, isClose, less, rfl, later⟩ |
      ⟨notOpen, notClose, later⟩
    · simp only [behindBlock, isOpen, ih later]
    · simp only [behindBlock, isClose]
      rw [if_neg (by omega), Nat.add_sub_cancel, ih later]
    · rw [behindBlock]
      split
      · exact absurd ‹_› notOpen
      · exact absurd ‹_› notClose
      · exact ih later

theorem behindBracket_balanced (around : Nat)
    (brackets : openMarks .openBracket .closeBracket depth xs = some behind) :
    behindBracket (around + depth + 1) (xs ++ rest) = behindBracket (around + behind + 1) rest := by
  induction xs generalizing depth with
  | nil => rw [← Option.some.inj brackets, List.nil_append]
  | cons x xs ih =>
    rw [List.cons_append]
    rcases openMarks_cons brackets with ⟨isOpen, later⟩ | ⟨-, isClose, less, rfl, later⟩ |
      ⟨notOpen, notClose, later⟩
    · rw [behindBracket_open isOpen]
      exact ih later
    · rw [behindBracket_close isClose, if_neg (by omega)]
      exact ih later
    · rw [behindBracket_other notOpen notClose, ih later]

theorem Closing.step {braces brackets parens : Nat}
    (closing : Closing braces brackets parens (x :: xs))
    (deep : x.token = .semicolon → braces + brackets + parens ≠ 0) :
    ∃ b k p, (∀ more, Closing b k p more ↔ Closing braces brackets parens (x :: more)) ∧
      ∀ start more, behindValues start (braces + brackets + parens) (x :: more) =
        behindValues start (b + k + p) more := by
  -- A token changes one of the three numbers at most. Values go by their sum, and what closes a
  -- mark was opened, so none of them goes below zero.
  obtain ⟨inBraces, inBrackets, inParens⟩ := closing
  cases kind : x.token
  case openBrace =>
    refine ⟨braces + 1, brackets, parens, by simp [closing_iff, openMarks, kind], ?_⟩
    intro start more
    rw [behindValues_open (by simp [kind])]
    congr 1
    omega
  case openBracket =>
    refine ⟨braces, brackets + 1, parens, by simp [closing_iff, openMarks, kind], ?_⟩
    intro start more
    rw [behindValues_open (by simp [kind])]
    congr 1
    omega
  case openParen =>
    refine ⟨braces, brackets, parens + 1, by simp [closing_iff, openMarks, kind], ?_⟩
    intro start more
    rw [behindValues_open (by simp [kind])]
    congr 1
  case closeBrace =>
    obtain ⟨less, rfl⟩ := openMarks_closed kind inBraces nofun
    refine ⟨less, brackets, parens, by simp [closing_iff, openMarks, kind], ?_⟩
    intro start more
    exact behindValues_close (by simp [kind]) (by omega)
  case closeBracket =>
    obtain ⟨less, rfl⟩ := openMarks_closed kind inBrackets nofun
    refine ⟨braces, less, parens, by simp [closing_iff, openMarks, kind], ?_⟩
    intro start more
    exact behindValues_close (by simp [kind]) (by omega)
  case closeParen =>
    obtain ⟨less, rfl⟩ := openMarks_closed kind inParens nofun
    refine ⟨braces, brackets, less, by simp [closing_iff, openMarks, kind], ?_⟩
    intro start more
    exact behindValues_close (by simp [kind]) (by omega)
  case semicolon =>
    refine ⟨braces, brackets, parens, by simp [closing_iff, openMarks, kind], ?_⟩
    intro start more
    exact behindValues_semicolon kind (deep kind)
  all_goals
    refine ⟨braces, brackets, parens, by simp [closing_iff, openMarks, kind], ?_⟩
    intro start more
    simp only [behindValues, kind]

theorem behindValues_closing (start : Nat) {braces brackets parens : Nat}
    (closing : Closing braces brackets parens xs)
    (inner : ∀ front x back, xs = front ++ x :: back → x.token = .semicolon →
      ¬ Closing braces brackets parens front) :
    behindValues start (braces + brackets + parens) (xs ++ rest) = behindValues start 0 rest := by
  induction xs generalizing braces brackets parens with
  | nil =>
    obtain ⟨inBraces, inBrackets, inParens⟩ := closing
    simp only [openMarks, Option.some.injEq] at inBraces inBrackets inParens
    simp [inBraces, inBrackets, inParens]
  | cons x xs ih =>
    have deep (semicolon : x.token = .semicolon) : braces + brackets + parens ≠ 0 := by
      intro flat
      refine inner [] x xs rfl semicolon ⟨?_, ?_, ?_⟩ <;> simp only [openMarks] <;> congr 1 <;> omega
    obtain ⟨b, k, p, counts, goesOn⟩ := closing.step deep
    rw [List.cons_append, goesOn]
    refine ih ((counts xs).mpr closing) ?_
    intro front y back shape semicolon closed
    exact inner (x :: front) y back (by rw [shape]; rfl) semicolon ((counts front).mp closed)

end

/- Balanced tokens behind an edge -/

section

variable {o : Lexeme} {inside inside' rest : List Lexeme}
  (edge : o.token = .openBrace ∨ o.token = .assign) (balanced : Balanced inside)
  (balanced' : Balanced inside')

include edge balanced balanced'

theorem behindBracket_same (front : List Lexeme) (depth : Nat) :
    (behindBracket (depth + 1) (front ++ o :: (inside' ++ rest))).head? =
      (behindBracket (depth + 1) (front ++ o :: (inside ++ rest))).head? := by
  have notOpen : o.token ≠ .openBracket := by
    rcases edge with same | same <;> simp [same]
  have notClose : o.token ≠ .closeBracket := by
    rcases edge with same | same <;> simp [same]
  induction front generalizing depth with
  | nil =>
    simp only [List.nil_append, behindBracket_other notOpen notClose]
    exact congrArg List.head? ((behindBracket_balanced depth balanced'.brackets).trans
      (behindBracket_balanced depth balanced.brackets).symm)
  | cons x front ih =>
    simp only [List.cons_append]
    by_cases isOpen : x.token = .openBracket
    · rw [behindBracket_open isOpen, behindBracket_open isOpen, ih]
    · by_cases isClose : x.token = .closeBracket
      · rw [behindBracket_close isClose, behindBracket_close isClose]
        cases depth with
        | zero => cases front <;> rfl
        | succ depth =>
          rw [if_neg (by omega), if_neg (by omega)]
          exact ih depth
      · rw [behindBracket_other isOpen isClose, behindBracket_other isOpen isClose, ih]

theorem fronts_of_balanced (front : List Lexeme) :
    Fronts (inside ++ rest) (inside' ++ rest) (front ++ [o]) := by
  induction front with
  | nil =>
    refine .edge ?_
    rcases edge with same | same <;> simp [same, isEdge]
  | cons x front ih =>
    refine .more ?_ ih
    intro isOpen
    simpa [behindBracket_open isOpen] using behindBracket_same edge balanced balanced' front 0

end

end GoSpy.Grammar
