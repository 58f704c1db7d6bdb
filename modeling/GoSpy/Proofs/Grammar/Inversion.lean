import GoSpy.Grammar.Declarations
import Mathlib.Data.List.Basic
/- What a successful reading says about the steps it was made of, and about the tokens that it
   took its names from. -/
namespace GoSpy

section

variable {ε ε' α β : Type}

theorem bind_eq_ok {x : Except ε α} {f : α → Except ε β} {r : β} :
    x >>= f = .ok r ↔ ∃ a, x = .ok a ∧ f a = .ok r := by
  cases x <;> simp [bind, Except.bind]

theorem map_eq_ok {x : Except ε α} {f : α → β} {r : β} :
    x.map f = .ok r ↔ ∃ a, x = .ok a ∧ f a = r := by
  cases x <;> simp [Except.map]

theorem mapError_eq_ok {x : Except ε α} {f : ε → ε'} {r : α} :
    x.mapError f = .ok r ↔ x = .ok r := by
  cases x <;> simp [Except.mapError]

theorem bind_eq_error {x : Except ε α} {f : α → Except ε β} {e : ε} :
    x >>= f = .error e ↔ x = .error e ∨ ∃ a, x = .ok a ∧ f a = .error e := by
  cases x <;> simp [bind, Except.bind]

theorem mapError_eq_error {x : Except ε α} {f : ε → ε'} {e : ε'} :
    x.mapError f = .error e ↔ ∃ cause, x = .error cause ∧ f cause = e := by
  cases x <;> simp [Except.mapError]

end

namespace Cursor

theorem name_eq_ok {s next : Cursor} {name : String} (run : s.name = .ok (name, next)) :
    s.peek = some (.word name) ∧ isKeyword name = false ∧ next = s.advance := by
  unfold Cursor.name at run
  split at run
  · rename_i w peeked
    split at run
    · simp [fail] at run
    · simp_all
  · simp [fail] at run

theorem mem_of_peek {s : Cursor} {t : Token} (peeked : s.peek = some t) :
    ∃ x ∈ s.rest, x.token = t := by
  obtain ⟨x, first, token⟩ := Option.map_eq_some_iff.mp peeked
  exact ⟨x, List.mem_of_head? first, token⟩

theorem mem_dropSemicolons {lexemes : List Lexeme} {x : Lexeme}
    (member : x ∈ dropSemicolons lexemes) : x ∈ lexemes := by
  induction lexemes with
  | nil => exact member
  | cons first rest ih =>
    unfold dropSemicolons at member
    split at member
    · exact List.mem_cons_of_mem _ (ih member)
    · exact member

theorem expect_eq_ok {s next : Cursor} {t : Token} (run : s.expect t = .ok next) :
    s.peek = some t ∧ next = s.advance := by
  unfold expect eat? at run
  split at run
  · rename_i eaten
    split at eaten
    · simp_all
    · simp at eaten
  · simp [fail] at run

end Cursor

theorem Grammar.sourceFile_package {path : String} {s next : Cursor} {file : SourceFile}
    (run : Grammar.sourceFile path s = .ok (file, next)) :
    (∃ x ∈ s.rest, x.token = .word file.package) ∧ isKeyword file.package = false := by
  unfold Grammar.sourceFile at run
  obtain ⟨s₁, package, run⟩ := bind_eq_ok.mp run
  obtain ⟨⟨name, s₂⟩, named, run⟩ := bind_eq_ok.mp run
  obtain ⟨s₃, _, run⟩ := bind_eq_ok.mp run
  obtain ⟨⟨imports, s₄⟩, _, run⟩ := bind_eq_ok.mp run
  obtain ⟨⟨decls, s₅⟩, _, run⟩ := bind_eq_ok.mp run
  simp only [Except.ok.injEq, Prod.mk.injEq] at run
  obtain ⟨rfl, _⟩ := run
  obtain ⟨peeked, free, _⟩ := Cursor.name_eq_ok named
  obtain ⟨x, member, token⟩ := Cursor.mem_of_peek peeked
  obtain ⟨_, rfl⟩ := Cursor.expect_eq_ok package
  exact ⟨⟨x, Cursor.mem_dropSemicolons (List.mem_of_mem_tail member), token⟩, free⟩

end GoSpy
