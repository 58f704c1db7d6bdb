import GoSpy.Fault
/- From text to tokens, in two stages. `pieces` cuts the text into gaps and tokens, and
   `settle` numbers the lines and adds the semicolons that line ends stand for.
   An escaped line end inside a quoted literal belongs to the literal and is not counted. -/
namespace GoSpy

inductive Piece where
  | gap (text : List Char)
  | token (t : Token)
deriving DecidableEq, Repr

namespace Piece

def text : Piece → List Char
  | gap text => text
  | token t => t.spelling.toList

def lines : Piece → Nat
  | gap text => text.count '\n'
  | token (.string text) =>
    if text.toList.head? = some '\x60' then text.toList.count '\n' else 0
  | token _ => 0

end Piece

namespace Scan

def commentBody : List Char → Option (List Char × List Char)
  | '*' :: '/' :: rest => some (['*', '/'], rest)
  | c :: rest => (commentBody rest).map fun r => (c :: r.1, r.2)
  | [] => none

/-- The text up to and with the closing quote of a literal on one line, and the rest.
    A backslash keeps the character behind it, whatever that is. -/
def quotedBody (quote : Char) : List Char → Option (List Char × List Char)
  | '\\' :: c :: rest => (quotedBody quote rest).map fun r => ('\\' :: c :: r.1, r.2)
  | c :: rest =>
    if c = '\n' ∨ c = '\\' then none
    else if c = quote then some ([c], rest)
    else (quotedBody quote rest).map fun r => (c :: r.1, r.2)
  | [] => none

def rawBody : List Char → Option (List Char × List Char)
  | c :: rest =>
    if c = '\x60' then some ([c], rest)
    else (rawBody rest).map fun r => (c :: r.1, r.2)
  | [] => none

def isExponentMark (hex : Bool) (c : Char) : Bool :=
  if hex then c == 'p' || c == 'P' else c == 'e' || c == 'E'

/-- The rest of a number behind its character `before`: a sign belongs to it only directly
    behind an exponent mark. -/
def numberBody (hex : Bool) (before : Char) : List Char → List Char × List Char
  | c :: rest =>
    if c.isAlphanum || c == '_' || c == '.'
        || ((c == '+' || c == '-') && isExponentMark hex before) then
      let r := numberBody hex c rest
      (c :: r.1, r.2)
    else ([], c :: rest)
  | [] => ([], [])

/-- Operators of several characters, longer ones first. -/
def longOperators : List (List Char) :=
  ["<<=", ">>=", "&^=", "...", "&&", "||", "<-", "++", "--", "==", "!=", "<=", ">=", ":=",
   "+=", "-=", "*=", "/=", "%=", "&=", "|=", "^=", "<<", ">>", "&^"].map String.toList

def ofLongOperator (text : List Char) : Token :=
  if text = ['.', '.', '.'] then .ellipsis
  else if text = ['<', '-'] then .arrow
  else .operator (String.ofList text)

def ofMark : Char → Option Token
  | '{' => some .openBrace
  | '}' => some .closeBrace
  | '[' => some .openBracket
  | ']' => some .closeBracket
  | '(' => some .openParen
  | ')' => some .closeParen
  | ',' => some .comma
  | '.' => some .dot
  | ':' => some .colon
  | ';' => some .semicolon
  | '*' => some .star
  | '~' => some .tilde
  | '|' => some .pipe
  | '=' => some .assign
  | c => if "+-/%&^<>!".toList.contains c then some (.operator c.toString) else none

def startsNumber : List Char → Bool
  | '.' :: d :: _ => d.isDigit
  | c :: _ => c.isDigit
  | [] => false

def isHex : List Char → Bool
  | '0' :: x :: _ => x == 'x' || x == 'X'
  | _ => false

def operator (text : List Char) : Except Cause (Piece × List Char) :=
  match longOperators.find? (·.isPrefixOf text) with
  | some o => .ok (.token (ofLongOperator o), text.drop o.length)
  | none =>
    match text with
    | [] => .ok (.gap [], [])
    | c :: rest =>
      match ofMark c with
      | some t => .ok (.token t, rest)
      | none => .error (.strayCharacter c)

def piece : List Char → Except Cause (Piece × List Char)
  | '/' :: '/' :: rest =>
    .ok (.gap ('/' :: '/' :: rest.takeWhile (· ≠ '\n')), rest.dropWhile (· ≠ '\n'))
  | '/' :: '*' :: rest =>
    match commentBody rest with
    | some (body, rest) => .ok (.gap ('/' :: '*' :: body), rest)
    | none => .error .openComment
  | c :: rest =>
    if Text.isBlank c then .ok (.gap [c], rest)
    else if c = '"' then
      match quotedBody '"' rest with
      | some (body, rest) => .ok (.token (.string (String.ofList (c :: body))), rest)
      | none => .error .openString
    else if c = '\x60' then
      match rawBody rest with
      | some (body, rest) => .ok (.token (.string (String.ofList (c :: body))), rest)
      | none => .error .openRawString
    else if c = '\x27' then
      match quotedBody '\x27' rest with
      | some (body, rest) => .ok (.token (.rune (String.ofList (c :: body))), rest)
      | none => .error .openRune
    else if startsNumber (c :: rest) then
      let r := numberBody (isHex (c :: rest)) c rest
      .ok (.token (.number (String.ofList (c :: r.1))), r.2)
    else if Text.startsName c then
      .ok (.token (.word (String.ofList (c :: rest.takeWhile Text.continuesName))),
        rest.dropWhile Text.continuesName)
    else operator (c :: rest)
  | [] => .ok (.gap [], [])

/-- The pieces of a text that starts on `line`; the fuel bounds their number. -/
def pieces : Nat → Nat → List Char → Except Fault (List Piece)
  | 0, _, _ => .ok []
  | _, _, [] => .ok []
  | fuel + 1, line, c :: rest =>
    match piece (c :: rest) with
    | .error cause => .error ⟨line, cause⟩
    | .ok (p, rest) => (pieces fuel (line + p.lines) rest).map (p :: ·)

/-- The tokens of a run of pieces. A semicolon is owed behind a token that ends a statement
    and is paid on the line where the next line end begins. -/
def settle : Bool → Nat → List Piece → Lexemes
  | owed, line, [] => ⟨if owed then [⟨.semicolon, line⟩] else [], line⟩
  | _, line, .token t :: rest =>
    let r := settle t.endsStatement (line + (Piece.token t).lines) rest
    ⟨⟨t, line⟩ :: r.items, r.endLine⟩
  | owed, line, .gap text :: rest =>
    if owed && text.contains '\n' then
      let r := settle false (line + (Piece.gap text).lines) rest
      ⟨⟨.semicolon, line⟩ :: r.items, r.endLine⟩
    else settle owed (line + (Piece.gap text).lines) rest

/-- A byte order mark counts only as the first character. -/
def skipMark : List Char → List Char
  | '\ufeff' :: rest => rest
  | text => text

end Scan

def Lexemes.ofText (text : String) : Except Fault Lexemes :=
  let body := Scan.skipMark text.toList
  (Scan.pieces body.length 1 body).map (Scan.settle false 1)

end GoSpy
