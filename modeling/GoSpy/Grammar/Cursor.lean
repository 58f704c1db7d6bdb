import GoSpy.Fault
/- Reading from a run of tokens. A reader takes a cursor and gives a value and the cursor
   behind it, or a fault. Behind the last token a cursor stands still. -/
namespace GoSpy

structure Cursor where
  rest : List Lexeme
  endLine : Nat
deriving DecidableEq, Repr

abbrev Reader (α : Type) := Cursor → Except Fault (α × Cursor)

namespace Cursor

def ofLexemes (lexemes : Lexemes) : Cursor := ⟨lexemes.items, lexemes.endLine⟩

def peek (s : Cursor) : Option Token := s.rest.head?.map Lexeme.token

def peekAt (s : Cursor) (n : Nat) : Option Token := s.rest[n]?.map Lexeme.token

def line (s : Cursor) : Nat :=
  match s.rest with
  | [] => s.endLine
  | x :: _ => x.line

def advance (s : Cursor) : Cursor := { s with rest := s.rest.tail }

/-- More than the number of tokens left: each round of reading takes one at least. -/
def fuel (s : Cursor) : Nat := s.rest.length + 1

def fail {α : Type} (s : Cursor) (cause : Cause) : Except Fault α := .error ⟨s.line, cause⟩

def eat? (s : Cursor) (t : Token) : Option Cursor :=
  if s.peek = some t then some s.advance else none

def expect (s : Cursor) (t : Token) : Except Fault Cursor :=
  match s.eat? t with
  | some next => .ok next
  | none => s.fail (.expected t s.peek)

def nextIsName (s : Cursor) : Bool := s.peek.any Token.isName

/-- A word that is no keyword. -/
def name : Reader String := fun s =>
  match s.peek with
  | some (.word w) =>
    if isKeyword w then s.fail (.expectedName s.peek) else .ok (w, s.advance)
  | got => s.fail (.expectedName got)

def string : Reader String := fun s =>
  match s.peek with
  | some (.string text) => .ok (text, s.advance)
  | got => s.fail (.expectedString got)

def dropSemicolons : List Lexeme → List Lexeme
  | x :: rest => if x.token = .semicolon then dropSemicolons rest else x :: rest
  | [] => []

def skipSemicolons (s : Cursor) : Cursor := { s with rest := dropSemicolons s.rest }

/-- An entry ends at a semicolon, or right before a closing mark or the end. -/
def endEntry (s : Cursor) : Except Fault Cursor :=
  match s.peek with
  | some .semicolon => .ok s.advance
  | some .closeParen | some .closeBrace | none => .ok s
  | got => s.fail (.expectedLineEnd got)

end Cursor

end GoSpy
