import GoSpy.Token.Basic
/- Why a source text is refused. A fault knows its line; a source error knows its file too. -/
namespace GoSpy

inductive Cause where
  | openComment
  | openString
  | openRawString
  | openRune
  | strayCharacter (c : Char)
  | expected (wanted : Token) (got : Option Token)
  | expectedName (got : Option Token)
  | expectedString (got : Option Token)
  | expectedLineEnd (got : Option Token)
  | expectedType (got : Option Token)
  | keywordAsType (word : String)
  | expectedDeclaration (got : Option Token)
  | lateImport
  | strayStatement (word : String)
  | receiverCount
  | openBlock
  | openExpression
  | strayCloser (got : Option Token)
  | mixedNames
  | repeatedMethod (name : String)
  | openArrayLength
  | tooDeep
deriving DecidableEq, Repr

def Cause.message : Cause → String
  | openComment => "comment not terminated"
  | openString => "string literal not terminated"
  | openRawString => "raw string literal not terminated"
  | openRune => "rune literal not terminated"
  | strayCharacter c => "unexpected character '" ++ c.toString ++ "'"
  | expected wanted got => "expected '" ++ wanted.spelling ++ "', got " ++ describeNext got
  | expectedName got => "expected identifier, got " ++ describeNext got
  | expectedString got => "expected string literal, got " ++ describeNext got
  | expectedLineEnd got => "expected ';' or newline, got " ++ describeNext got
  | expectedType got => "expected type, got " ++ describeNext got
  | keywordAsType word => "expected type, got keyword '" ++ word ++ "'"
  | expectedDeclaration got => "expected declaration, got " ++ describeNext got
  | lateImport => "imports must appear before other declarations"
  | strayStatement word => "non-declaration statement outside function body: '" ++ word ++ "'"
  | receiverCount => "method must have exactly one receiver"
  | openBlock => "block not terminated"
  | openExpression => "expression not terminated"
  | strayCloser got => "unexpected " ++ describeNext got
  | mixedNames => "mixed named and unnamed parameters"
  | repeatedMethod name => "duplicate method " ++ name
  | openArrayLength => "array length not terminated"
  | tooDeep => "types nested too deep"

structure Fault where
  line : Nat
  cause : Cause
deriving DecidableEq, Repr

structure SourceError where
  file : String
  line : Nat
  cause : Cause
deriving DecidableEq, Repr

def Fault.inFile (file : String) (fault : Fault) : SourceError :=
  ⟨file, fault.line, fault.cause⟩

def SourceError.message (e : SourceError) : String :=
  e.file ++ ":" ++ toString e.line ++ ": " ++ e.cause.message

end GoSpy
