import GoSpy.Proofs.Grammar.Inversion
import GoSpy.Proofs.Syntax.Written
/- Reading by tokens: what a reader does with a cursor depends on the tokens in front of it and
   not on their lines, and what it leaves is told by tokens too. -/
namespace GoSpy

namespace Cursor

def tokens (s : Cursor) : List Token := s.rest.map Lexeme.token

theorem peek_eq (s : Cursor) : s.peek = s.tokens.head? := by
  simp [peek, tokens]

theorem peekAt_eq (s : Cursor) (n : Nat) : s.peekAt n = s.tokens[n]? := by
  simp [peekAt, tokens]

theorem fuel_eq (s : Cursor) : s.fuel = s.tokens.length + 1 := by
  simp [fuel, tokens]

theorem tokens_advance (s : Cursor) : s.advance.tokens = s.tokens.tail := by
  simp [advance, tokens]

variable {s : Cursor} {t : Token} {rest : List Token}

theorem peek_cons (shape : s.tokens = t :: rest) : s.peek = some t := by
  simp [peek_eq, shape]

theorem advance_cons (shape : s.tokens = t :: rest) : s.advance.tokens = rest := by
  simp [tokens_advance, shape]

theorem eat_cons (shape : s.tokens = t :: rest) : s.eat? t = some s.advance := by
  simp [eat?, peek_cons shape]

theorem eat_other (other : s.tokens.head? ≠ some t) : s.eat? t = none := by
  simp [eat?, peek_eq, other]

theorem expect_cons (shape : s.tokens = t :: rest) : s.expect t = .ok s.advance := by
  simp [expect, eat_cons shape]

theorem name_cons {name : String} (free : isKeyword name = false)
    (shape : s.tokens = .word name :: rest) : s.name = .ok (name, s.advance) := by
  simp [Cursor.name, peek_cons shape, free]

theorem nextIsName_eq (s : Cursor) : s.nextIsName = s.tokens.head?.any Token.isName := by
  simp [nextIsName, peek_eq]

theorem skipSemicolons_other (other : s.tokens.head? ≠ some .semicolon) :
    s.skipSemicolons = s := by
  unfold skipSemicolons
  cases lexemes : s.rest with
  | nil => simp [dropSemicolons, ← lexemes]
  | cons x more =>
    have apart : x.token ≠ .semicolon := by
      simpa [tokens, lexemes] using other
    simp [dropSemicolons, apart, ← lexemes]

end Cursor

/-- In front of tokens that `fits` allows, the reader takes `tokens` and gives such a value. -/
def Reads {α : Type} (reader : Reader α) (tokens : List Token) (fits : List Token → Prop)
    (value : α → Prop) : Prop :=
  ∀ (s : Cursor) (rest : List Token), s.tokens = tokens ++ rest → fits rest →
    ∃ x s', reader s = .ok (x, s') ∧ s'.tokens = rest ∧ value x

theorem behindBracket_tokens (depth : Nat) (lexemes : List Lexeme) :
    (Grammar.behindBracket depth lexemes).map Lexeme.token =
      beyond depth (lexemes.map Lexeme.token) := by
  induction lexemes generalizing depth with
  | nil => rfl
  | cons x rest ih =>
    simp only [Grammar.behindBracket, List.map_cons]
    cases x.token <;> simp only [beyond, ih]
    split
    · rfl
    · exact ih _

theorem lengthTokens_tokens (depth : Nat) (lexemes : List Lexeme) :
    (Grammar.lengthTokens depth lexemes).map (fun r => (r.1, r.2.map Lexeme.token)) =
      lengthPart depth (lexemes.map Lexeme.token) := by
  induction lexemes generalizing depth with
  | nil => rfl
  | cons x rest ih =>
    simp only [Grammar.lengthTokens, lengthPart, List.map_cons]
    split
    · rfl
    · rw [← ih, Option.map_map, Option.map_map]
      rfl

end GoSpy
