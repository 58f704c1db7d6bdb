import GoSpy.Proofs.Token.Cutting
/- The scanner over indices, as machines run it: characters are looked up in a vector, stretches
   are cut out between two indices, and numbers are bounded. Each of these steps can fail; `none`
   is such a failure, and also the end of the fuel of a loop. -/
namespace GoSpy.Indexed

open Scan

def pred? : Nat → Option Nat
  | 0 => none
  | n + 1 => some n

/-- Lines are numbered by 32 bits. -/
def nextLine (line : Nat) : Option Nat := if line + 1 < UInt32.size then some (line + 1) else none

def lineBehind (c : Char) (line : Nat) : Option Nat :=
  if c = '\n' then nextLine line else some line

section

variable (text : List Char)

def slice (start stop : Nat) : Option (List Char) :=
  if start ≤ stop ∧ stop ≤ text.length then some ((text.drop start).take (stop - start)) else none

def nextIs (test : Char → Bool) (pos : Nat) : Option Bool :=
  if pos + 1 < text.length then (text[pos + 1]?).map test else some false

def skipWhile (test : Char → Bool) : Nat → Nat → Option Nat
  | 0, _ => none
  | fuel + 1, pos =>
    if pos < text.length then do
      let c ← text[pos]?
      if test c then skipWhile test fuel (pos + 1) else some pos
    else some pos

def closes (c : Char) (pos : Nat) : Option Bool :=
  if c = '*' then nextIs text (· == '/') pos else some false

def comment : Nat → Nat → Nat → Option (Option (Nat × Nat))
  | 0, _, _ => none
  | fuel + 1, pos, line =>
    if text.length ≤ pos then some none
    else do
      let c ← text[pos]?
      let line ← lineBehind c line
      let ends ← closes text c pos
      if ends then some (some (pos + 2, line)) else comment fuel (pos + 1) line

/-- The place behind a literal on one line, if it ends. A backslash may lead beyond the end. -/
def quoted (quote : Char) : Nat → Nat → Option (Option Nat)
  | 0, _ => none
  | fuel + 1, pos =>
    if text.length ≤ pos then some none
    else do
      let c ← text[pos]?
      if c = '\n' then some none
      else if c = '\\' then quoted quote fuel (pos + 2)
      else if c = quote then some (some (pos + 1))
      else quoted quote fuel (pos + 1)

def raw : Nat → Nat → Nat → Option (Option (Nat × Nat))
  | 0, _, _ => none
  | fuel + 1, pos, line =>
    if text.length ≤ pos then some none
    else do
      let c ← text[pos]?
      let line ← lineBehind c line
      let before ← pred? (pos + 1)
      let last ← text[before]?
      if last = '\x60' then some (some (pos + 1, line)) else raw fuel (pos + 1) line

def signs (hex : Bool) (c : Char) (pos : Nat) : Option Bool :=
  if c = '+' ∨ c = '-' then do
    let before ← pred? pos
    (text[before]?).map (isExponentMark hex)
  else some false

def number (hex : Bool) : Nat → Nat → Option Nat
  | 0, _ => none
  | fuel + 1, pos =>
    if pos < text.length then do
      let d ← text[pos]?
      let sign ← signs text hex d pos
      if d.isAlphanum || d == '_' || d == '.' || sign then number hex fuel (pos + 1)
      else some pos
    else some pos

def matchesAt (pos : Nat) (operator : List Char) : Bool :=
  operator.zipIdx.all fun x => text[pos + x.2]? == some x.1

end

structure State where
  pos : Nat
  line : Nat
  tokens : List Lexeme

def owed (tokens : List Lexeme) : Bool := tokens.getLast?.any (·.token.endsStatement)

def endLine (tokens : List Lexeme) (line : Nat) : List Lexeme :=
  if owed tokens then tokens ++ [⟨.semicolon, line⟩] else tokens

namespace State

def push (s : State) (pos : Nat) (t : Token) : State :=
  ⟨pos, s.line, s.tokens ++ [⟨t, s.line⟩]⟩

end State

section

variable (text : List Char)

def cut (s : State) (stop : Nat) (kind : String → Token) : Option (Except Fault State) := do
  let spelling ← slice text s.pos stop
  some (.ok (s.push stop (kind (String.ofList spelling))))

def comments (s : State) : Option (Except Fault State) := do
  match ← comment text (text.length + 1) (s.pos + 2) s.line with
  | none => some (.error ⟨s.line, .openComment⟩)
  | some (pos, line) =>
    some (.ok ⟨pos, line, if s.line < line then endLine s.tokens s.line else s.tokens⟩)

def literal (s : State) (quote : Char) (kind : String → Token) (cause : Cause) :
    Option (Except Fault State) := do
  match ← quoted text quote (text.length + 1) (s.pos + 1) with
  | none => some (.error ⟨s.line, cause⟩)
  | some stop => cut text s stop kind

def rawLiteral (s : State) : Option (Except Fault State) := do
  match ← raw text (text.length + 1) (s.pos + 1) s.line with
  | none => some (.error ⟨s.line, .openRawString⟩)
  | some (stop, line) => do
    let spelling ← slice text s.pos stop
    some (.ok { s.push stop (.string (String.ofList spelling)) with line })

def operators (s : State) (c : Char) : Option (Except Fault State) :=
  match longOperators.find? (matchesAt text s.pos) with
  | some o => some (.ok (s.push (s.pos + o.length) (ofLongOperator o)))
  | none =>
    match ofMark c with
    | some t => some (.ok (s.push (s.pos + 1) t))
    | none => some (.error ⟨s.line, .strayCharacter c⟩)

def hexAt (pos : Nat) (c : Char) : Bool :=
  c == '0' && text[pos + 1]?.any fun x => x == 'x' || x == 'X'

def round (s : State) (c : Char) : Option (Except Fault State) := do
  if c = '/' ∧ (← nextIs text (· == '/') s.pos) then
    let pos ← skipWhile text (· ≠ '\n') (text.length + 1) s.pos
    return .ok { s with pos }
  if c = '/' ∧ (← nextIs text (· == '*') s.pos) then comments text s
  else if c = '\n' then
    let line ← nextLine s.line
    return .ok ⟨s.pos + 1, line, endLine s.tokens s.line⟩
  else if Text.isBlank c then return .ok { s with pos := s.pos + 1 }
  else if c = '"' then literal text s '"' .string .openString
  else if c = '\x60' then rawLiteral text s
  else if c = '\x27' then literal text s '\x27' .rune .openRune
  else if c.isDigit ∨ (c = '.' ∧ (← nextIs text Char.isDigit s.pos)) then
    let stop ← number text (hexAt text s.pos c) (text.length + 1) (s.pos + 1)
    cut text s stop .number
  else if Text.startsName c then
    let stop ← skipWhile text Text.continuesName (text.length + 1) s.pos
    cut text s stop .word
  else operators text s c

def scan : Nat → State → Option (Except Fault Lexemes)
  | 0, _ => none
  | fuel + 1, s =>
    if s.pos < text.length then do
      let c ← text[s.pos]?
      let next ← if s.pos = 0 ∧ c = '\ufeff' then some (.ok { s with pos := s.pos + 1 })
        else round text s c
      match next with
      | .error fault => some (.error fault)
      | .ok s => scan fuel s
    else some (.ok ⟨endLine s.tokens s.line, s.line⟩)

end

def lexemes (text : String) : Option (Except Fault Lexemes) :=
  scan text.toList (text.toList.length + 2) ⟨0, 1, []⟩

end GoSpy.Indexed
