import GoSpy.Text.Quoted
/- The tokens of a Go source file. Literals keep the text they are written with; an operator
   that no declaration needs is only told apart from the others by its text. -/
namespace GoSpy

inductive Token where
  | word (text : String)
  | string (text : String)
  | rune (text : String)
  | number (text : String)
  | operator (text : String)
  | openBrace
  | closeBrace
  | openBracket
  | closeBracket
  | openParen
  | closeParen
  | comma
  | dot
  | colon
  | semicolon
  | star
  | ellipsis
  | arrow
  | tilde
  | pipe
  | assign
deriving DecidableEq, Repr

def keywords : List String :=
  ["break", "case", "chan", "const", "continue", "default", "defer", "else", "fallthrough",
   "for", "func", "go", "goto", "if", "import", "interface", "map", "package", "range",
   "return", "select", "struct", "switch", "type", "var"]

def isKeyword (word : String) : Bool := keywords.contains word

namespace Token

def spelling : Token → String
  | word text | string text | rune text | number text | operator text => text
  | openBrace => "\x7b"
  | closeBrace => "\x7d"
  | openBracket => "["
  | closeBracket => "]"
  | openParen => "("
  | closeParen => ")"
  | comma => ","
  | dot => "."
  | colon => ":"
  | semicolon => ";"
  | star => "*"
  | ellipsis => "..."
  | arrow => "<-"
  | tilde => "~"
  | pipe => "|"
  | assign => "="

def kind : Token → String
  | word _ => "Word"
  | string _ => "Str"
  | rune _ => "Char"
  | number _ => "Number"
  | operator _ => "Op"
  | openBrace => "LBrace"
  | closeBrace => "RBrace"
  | openBracket => "LBracket"
  | closeBracket => "RBracket"
  | openParen => "LParen"
  | closeParen => "RParen"
  | comma => "Comma"
  | dot => "Dot"
  | colon => "Colon"
  | semicolon => "Semicolon"
  | star => "Star"
  | ellipsis => "Ellipsis"
  | arrow => "Arrow"
  | tilde => "Tilde"
  | pipe => "Pipe"
  | assign => "Assign"

def payload? : Token → Option String
  | word text | string text | rune text | number text | operator text => some text
  | _ => none

/-- How a message names a token: its kind, and its text in quotes if the kind leaves it open. -/
def describe (t : Token) : String :=
  match t.payload? with
  | some text => t.kind ++ "(" ++ Text.quoted text ++ ")"
  | none => t.kind

/-- A line that ends in such a token ends a statement too. -/
def endsStatement : Token → Bool
  | word w => !isKeyword w || ["break", "continue", "fallthrough", "return"].contains w
  | string _ | rune _ | number _ => true
  | closeParen | closeBracket | closeBrace => true
  | operator o => o == "++" || o == "--"
  | _ => false

def isName : Token → Bool
  | word w => !isKeyword w
  | _ => false

def isWord : Token → Bool
  | word _ => true
  | _ => false

end Token

def describeNext : Option Token → String
  | some t => t.describe
  | none => "Eof"

structure Lexeme where
  token : Token
  line : Nat
deriving DecidableEq, Repr

structure Lexemes where
  items : List Lexeme
  endLine : Nat
deriving DecidableEq, Repr

end GoSpy
