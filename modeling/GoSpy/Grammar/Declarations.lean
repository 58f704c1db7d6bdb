import GoSpy.Token.Scan
import GoSpy.Grammar.Types
import GoSpy.Syntax.Declaration
/- Source files at the level of declarations. Function bodies and initial values are passed
   over by counting brackets; only what the shape of a declaration needs is kept. -/
namespace GoSpy.Grammar

def behindBlock : Nat → List Lexeme → Option (List Lexeme)
  | _, [] => none
  | depth, x :: rest =>
    match x.token with
    | .openBrace => behindBlock (depth + 1) rest
    | .closeBrace => if depth ≤ 1 then some rest else behindBlock (depth - 1) rest
    | _ => behindBlock depth rest

def skipBlock (s : Cursor) : Except Fault Cursor :=
  match behindBlock 0 s.rest with
  | some rest => .ok { s with rest }
  | none => s.fail .openBlock

/-- What is behind a list of values that starts `depth` brackets deep: it ends outside of all
    brackets at a semicolon, a closing parenthesis or the end of the text. -/
def behindValues (start : Nat) : Nat → List Lexeme → Except Fault (List Lexeme)
  | depth, [] => if depth = 0 then .ok [] else .error ⟨start, .openExpression⟩
  | depth, x :: rest =>
    match x.token with
    | .semicolon => if depth = 0 then .ok (x :: rest) else behindValues start depth rest
    | .openParen | .openBracket | .openBrace => behindValues start (depth + 1) rest
    | .closeParen => if depth = 0 then .ok (x :: rest) else behindValues start (depth - 1) rest
    | .closeBracket | .closeBrace =>
      if depth = 0 then .error ⟨x.line, .strayCloser (some x.token)⟩
      else behindValues start (depth - 1) rest
    | _ => behindValues start depth rest

def skipValues (s : Cursor) : Except Fault Cursor := do
  let rest ← behindValues s.line 0 s.rest
  .ok { s with rest }

def unquote (literal : String) : String :=
  match literal.toList with
  | q :: rest =>
    if (q = '"' ∨ q = '\x60') ∧ rest.getLast? = some q then String.ofList rest.dropLast
    else literal
  | [] => literal

def importName : Reader (Option String) := fun s =>
  match s.peek with
  | some .dot => .ok (some ".", s.advance)
  | some (.word _) => do
    let (name, s) ← s.name
    .ok (some name, s)
  | _ => .ok (none, s)

def importSpec : Reader ImportSpec := fun s => do
  let line := s.line
  let (name, s) ← importName s
  let (literal, s) ← s.string
  .ok (⟨name, unquote literal, line⟩, s)

/-- At an open bracket behind the name of a type: whether type parameters follow. -/
def startsTypeParams (s : Cursor) : Bool :=
  (s.peekAt 1).any Token.isName &&
    match s.peekAt 2 with
    | some (.word _) | some .comma | some .tilde => true
    | _ => false

def typeSpec : Reader TypeSpec := fun s => do
  let line := s.line
  let (name, s) ← s.name
  let (typeParams, s) ←
    if s.peek = some .openBracket && startsTypeParams s then typeParams type s
    else .ok ([], s)
  let (isAlias, s) := match s.eat? .assign with
    | some s => (true, s)
    | none => (false, s)
  let (type, s) ← type s
  .ok (⟨name, typeParams, isAlias, type, line⟩, s)

/-- A receiver list stands for exactly one value. -/
def receiver (line : Nat) : Reader (Option Field) := fun s =>
  if s.peek = some .openParen then do
    let (fields, s) ← params type s
    match fields with
    | [field] =>
      if field.arity = 1 then .ok (some field, s) else .error ⟨line, .receiverCount⟩
    | _ => .error ⟨line, .receiverCount⟩
  else .ok (none, s)

def funcDecl (place : Place) : Reader FuncDecl := fun s => do
  let (receiver, s) ← receiver place.line s
  let (name, s) ← s.name
  let (typeParams, s) ←
    if s.peek = some .openBracket then typeParams type s else .ok ([], s)
  let (signature, s) ← signature type s
  let s ← if s.peek = some .openBrace then skipBlock s else .ok s
  .ok (⟨receiver, name, typeParams, signature, none, place⟩, s)

def valueType : Reader (Option TypeExpr) := fun s =>
  match s.peek with
  | some .assign | some .semicolon | some .closeParen | none => .ok (none, s)
  | _ => do
    let (type, s) ← type s
    .ok (some type, s)

def valueSpec : Reader ValueSpec := fun s => do
  let (names, s) ← Reader.names s
  let (type, s) ← valueType s
  let s ← match s.eat? .assign with
    | some s => skipValues s
    | none => .ok s
  .ok (⟨names, type⟩, s)

def valueDecl (kind : ValueKind) (place : Place) : Reader Decl := fun s => do
  let ((specs, _), s) ← Reader.group valueSpec s
  .ok (.value ⟨kind, specs, place⟩, s)

def decl (file : String) : Reader Decl := fun s =>
  let place : Place := ⟨file, s.line⟩
  match s.peek with
  | some (.word "type") => do
    let ((specs, grouped), s) ← Reader.group typeSpec s.advance
    .ok (.type ⟨specs, grouped, place⟩, s)
  | some (.word "func") => do
    let (func, s) ← funcDecl place s.advance
    .ok (.func func, s)
  | some (.word "var") => valueDecl .var place s.advance
  | some (.word "const") => valueDecl .const place s.advance
  | some (.word "import") => s.fail .lateImport
  | some (.word word) => s.fail (.strayStatement word)
  | got => s.fail (.expectedDeclaration got)

def imports : Nat → Reader (List ImportSpec)
  | 0, s => s.fail .tooDeep
  | fuel + 1, s =>
    let s := s.skipSemicolons
    match s.eat? (.word "import") with
    | none => .ok ([], s)
    | some s => do
      let ((specs, _), s) ← Reader.group importSpec s
      let s ← s.endEntry
      let (rest, s) ← imports fuel s
      .ok (specs ++ rest, s)

/-- Unlike an entry of a group, a declaration ends at a semicolon or the end only. -/
def endDecl (s : Cursor) : Except Fault Cursor :=
  if s.peek = none then .ok s else s.expect .semicolon

def decls (file : String) : Nat → Reader (List Decl)
  | 0, s => s.fail .tooDeep
  | fuel + 1, s =>
    let s := s.skipSemicolons
    if s.peek = none then .ok ([], s)
    else do
      let (first, s) ← decl file s
      let s ← endDecl s
      let (rest, s) ← decls file fuel s
      .ok (first :: rest, s)

def sourceFile (file : String) : Reader SourceFile := fun s => do
  let s ← s.skipSemicolons.expect (.word "package")
  let (package, s) ← s.name
  let s ← s.endEntry
  let (imports, s) ← imports s.fuel s
  let (decls, s) ← decls file s.fuel s
  .ok (⟨package, imports, decls⟩, s)

end GoSpy.Grammar

namespace GoSpy.SourceFile

def ofLexemes (file : String) (lexemes : Lexemes) : Except Fault SourceFile :=
  (Grammar.sourceFile file (Cursor.ofLexemes lexemes)).map Prod.fst

def ofText (file text : String) : Except SourceError SourceFile :=
  ((Lexemes.ofText text).bind (ofLexemes file)).mapError (Fault.inFile file)

end GoSpy.SourceFile
