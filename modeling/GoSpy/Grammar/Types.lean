import GoSpy.Grammar.Sequence
import GoSpy.Syntax.Type
/- Types. Each form is a reader over the reader of the types inside it, and `typeWithin` ties
   the knot with fuel. Every inner type stands behind a token of its own, so the number of
   tokens left bounds the depth. -/
namespace GoSpy.Grammar

/-- The tokens up to the bracket that closes an array length, and what is behind it. Brackets
    and parentheses nest; a parenthesis too many is passed over. -/
def lengthTokens : Nat → List Lexeme → Option (List Token × List Lexeme)
  | _, [] => none
  | depth, x :: rest =>
    if x.token = .closeBracket && depth == 0 then some ([], rest)
    else
      let depth := match x.token with
        | .openBracket | .openParen => depth + 1
        | .closeBracket | .closeParen => depth - 1
        | _ => depth
      (lengthTokens depth rest).map fun r => (x.token :: r.1, r.2)

/-- Only a comma is set off from what follows. -/
def lengthSpelling (t : Token) : String := if t = .comma then ", " else t.spelling

def arrayLength : Reader String := fun s =>
  match lengthTokens 0 s.rest with
  | some (tokens, rest) => .ok (String.join (tokens.map lengthSpelling), { s with rest })
  | none => .error ⟨s.endLine, .openArrayLength⟩

def behindBracket : Nat → List Lexeme → List Lexeme
  | _, [] => []
  | depth, x :: rest =>
    match x.token with
    | .openBracket => behindBracket (depth + 1) rest
    | .closeBracket => if depth ≤ 1 then rest else behindBracket (depth - 1) rest
    | _ => behindBracket depth rest

def startsElement : Token → Bool
  | .word _ | .star | .openBracket | .openParen | .arrow => true
  | _ => false

/-- At a name and an open bracket: whether the bracket opens a type of its own, as in
    `name [N]T`, and not the arguments of the name, as in `Name[T]`. Only behind the bracket
    of an array or a slice another type follows. -/
def bracketFollowsName (s : Cursor) : Bool :=
  (behindBracket 0 s.rest.tail).head?.any fun x => startsElement x.token

/-- Whether a list entry in front of `close` is a name with a type rather than a bare type. -/
def startsWithName (close : Token) (s : Cursor) : Bool :=
  s.nextIsName &&
    match s.peekAt 1 with
    | some .comma | some .dot | some .pipe => false
    | some .openBracket => bracketFollowsName s
    | some t =>
      t != close &&
        match t with
        | .word _ | .star | .openParen | .arrow | .ellipsis | .tilde => true
        | _ => false
    | none => false

/-- An entry as it is read: whether it stands for a name is known at the end of the list. -/
abbrev Entry := Option String × TypeExpr

/-- Bare entries take the type of the next entry with a name, and must be names themselves. -/
def shareTypes : List Entry → List String → Option (List Field)
  | [], [] => some []
  | [], _ :: _ => none
  | (some name, type) :: rest, pending =>
    (shareTypes rest []).map (⟨pending ++ [name], type⟩ :: ·)
  | (none, .name name) :: rest, pending => shareTypes rest (pending ++ [name])
  | (none, _) :: _, _ => none

def fieldsOf (entries : List Entry) : Option (List Field) :=
  if entries.all fun e => e.1.isNone then some (entries.map fun e => ⟨[], e.2⟩)
  else shareTypes entries []

section

variable (type : Reader TypeExpr)

def typeName : Reader TypeExpr := fun s => do
  let (first, s) ← s.name
  let (base, s) ← (match s.eat? .dot with
    | some s => do
      let (name, s) ← s.name
      .ok (.qualified first name, s)
    | none => .ok (.name first, s) : Except Fault (TypeExpr × Cursor))
  if s.peek ≠ some .openBracket || s.peekAt 1 = some .closeBracket then .ok (base, s)
  else
    let s := s.advance
    let (args, s) ← Reader.commaItems .closeBracket type s.fuel s
    let s ← s.expect .closeBracket
    .ok (.generic base args, s)

def term : Reader Term := fun s =>
  match s.eat? .tilde with
  | some s => do
    let (type, s) ← type s
    .ok (⟨true, type⟩, s)
  | none => do
    let (type, s) ← type s
    .ok (⟨false, type⟩, s)

def ofTerms : List Term → TypeExpr
  | [⟨false, type⟩] => type
  | terms => .union terms

/-- A type set; a single plain type is just that type. -/
def constraint : Reader TypeExpr := fun s => do
  let (terms, s) ← Reader.separated .pipe (term type) s.fuel s
  .ok (ofTerms terms, s)

def entryType (constrained : Bool) : Reader TypeExpr := fun s =>
  match s.eat? .ellipsis with
  | some s => do
    let (element, s) ← type s
    .ok (.variadic element, s)
  | none => if constrained then constraint type s else type s

def entry (close : Token) (constrained : Bool) : Reader Entry := fun s =>
  if startsWithName close s then do
    let (name, s) ← s.name
    let (type, s) ← entryType type constrained s
    .ok ((some name, type), s)
  else do
    let (type, s) ← entryType type constrained s
    .ok ((none, type), s)

def fieldList («open» close : Token) (constrained : Bool) : Reader (List Field) := fun s => do
  let line := s.line
  let s ← s.expect «open»
  let (entries, s) ← Reader.commaItems close (entry type close constrained) s.fuel s
  let s ← s.expect close
  match fieldsOf entries with
  | some fields => .ok (fields, s)
  | none => .error ⟨line, .mixedNames⟩

def params : Reader (List Field) := fieldList type .openParen .closeParen false

def typeParams : Reader (List Field) := fieldList type .openBracket .closeBracket true

def startsResult : Option Token → Bool
  | some (.word _) | some .star | some .openBracket | some .arrow => true
  | _ => false

def results : Reader (List Field) := fun s =>
  if s.peek = some .openParen then params type s
  else if startsResult s.peek then do
    let (result, s) ← type s
    .ok ([⟨[], result⟩], s)
  else .ok ([], s)

def signature : Reader Signature := fun s => do
  let (params, s) ← params type s
  let (results, s) ← results type s
  .ok (⟨params, results⟩, s)

def methodNames (elements : List Element) : List String :=
  elements.filterMap fun e => e.method?.map Method.name

def element (before : List Element) : Reader Element := fun s =>
  if s.nextIsName && s.peekAt 1 = some .openParen then do
    let line := s.line
    let (name, s) ← s.name
    if (methodNames before).contains name then .error ⟨line, .repeatedMethod name⟩
    else
      let (signature, s) ← signature type s
      .ok (.method name signature line, s)
  else do
    let (type, s) ← constraint type s
    .ok (.embedded type, s)

def interfaceBody : Reader (List Element) := fun s => do
  let s ← s.expect .openBrace
  let (elements, s) ← Reader.entries .closeBrace (element type) s.fuel [] s
  let s ← s.expect .closeBrace
  .ok (elements, s)

def isEmbedded (s : Cursor) : Bool :=
  match s.peekAt 1 with
  | some .dot | some .semicolon | some .closeBrace | some (.string _) => true
  | some .openBracket => !bracketFollowsName s
  | _ => false

def memberType : Reader (List String × TypeExpr) := fun s =>
  match s.eat? .star with
  | some s => do
    let (target, s) ← typeName type s
    .ok (([], .pointer target), s)
  | none =>
    if isEmbedded s then do
      let (embedded, s) ← typeName type s
      .ok (([], embedded), s)
    else do
      let (names, s) ← Reader.names s
      let (type, s) ← type s
      .ok ((names, type), s)

def member : Reader Member := fun s => do
  let ((names, type), s) ← memberType type s
  match s.peek with
  | some (.string tag) => .ok (⟨names, type, some tag⟩, s.advance)
  | _ => .ok (⟨names, type, none⟩, s)

def structBody : Reader (List Member) := fun s => do
  let s ← s.expect .openBrace
  let (members, s) ← Reader.entries .closeBrace (fun _ => member type) s.fuel [] s
  let s ← s.expect .closeBrace
  .ok (members, s)

def mapType : Reader TypeExpr := fun s => do
  let s ← s.expect .openBracket
  let (key, s) ← type s
  let s ← s.expect .closeBracket
  let (value, s) ← type s
  .ok (.map key value, s)

def chanType : Reader TypeExpr := fun s =>
  match s.eat? .arrow with
  | some s => do
    let (element, s) ← type s
    .ok (.chan .send element, s)
  | none => do
    let (element, s) ← type s
    .ok (.chan .both element, s)

def bracketType : Reader TypeExpr := fun s =>
  match s.eat? .closeBracket with
  | some s => do
    let (element, s) ← type s
    .ok (.slice element, s)
  | none => do
    let (length, s) ← arrayLength s
    let (element, s) ← type s
    .ok (.array length element, s)

def receiveType : Reader TypeExpr := fun s => do
  let s ← s.expect (.word "chan")
  let (element, s) ← type s
  .ok (.chan .receive element, s)

def parenType : Reader TypeExpr := fun s => do
  let (inner, s) ← type s
  let s ← s.expect .closeParen
  .ok (.paren inner, s)

def wordType (word : String) : Reader TypeExpr := fun s =>
  match word with
  | "map" => mapType type s.advance
  | "chan" => chanType type s.advance
  | "func" => do
    let (signature, s) ← signature type s.advance
    .ok (.func signature, s)
  | "interface" => do
    let (elements, s) ← interfaceBody type s.advance
    .ok (.interface elements, s)
  | "struct" => do
    let (members, s) ← structBody type s.advance
    .ok (.struct members, s)
  | word => if isKeyword word then s.fail (.keywordAsType word) else typeName type s

def typeForm : Reader TypeExpr := fun s =>
  match s.peek with
  | some (.word word) => wordType type word s
  | some .star => do
    let (target, s) ← type s.advance
    .ok (.pointer target, s)
  | some .openBracket => bracketType type s.advance
  | some .arrow => receiveType type s.advance
  | some .openParen => parenType type s.advance
  | got => s.fail (.expectedType got)

end

def typeWithin : Nat → Reader TypeExpr
  | 0 => fun s => s.fail .tooDeep
  | depth + 1 => typeForm (typeWithin depth)

def type : Reader TypeExpr := fun s => typeWithin s.fuel s

end GoSpy.Grammar
