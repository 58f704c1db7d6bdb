import GoSpy.Syntax.Declaration
/- Declarations on lines, laid out the way the Go formatter lays them out. Struct fields form
   columns within a section; a section ends behind a field of several lines and around an
   embedded field. Widths count characters. -/
namespace GoSpy

structure Block where
  first : String
  rest : List String
deriving DecidableEq, Repr

namespace Block

def oneLine (text : String) : Block := ⟨text, []⟩

def toLines (b : Block) : List String := b.first :: b.rest

def behind (head : String) (b : Block) : Block := ⟨head ++ b.first, b.rest⟩

end Block

namespace Layout

def indent (depth : Nat) : String := String.ofList (List.replicate depth '\t')

def padded (width : Nat) (text : String) : String :=
  text ++ String.ofList (List.replicate (width - text.length) ' ')

def widest (texts : List String) : Nat := (texts.map String.length).foldl max 0

structure Row where
  names : String
  type : Block
  tag : Option String
deriving DecidableEq, Repr

def Row.isEmbedded (row : Row) : Bool := row.names.isEmpty

def Row.spansLines (row : Row) : Bool := !row.type.rest.isEmpty

def Row.joins (row next : Row) : Bool :=
  !row.isEmbedded && !row.spansLines && !next.isEmbedded

def sections : List Row → List (List Row)
  | [] => []
  | row :: rest =>
    match rest, sections rest with
    | next :: _, current :: others =>
      if row.joins next then (row :: current) :: others else [row] :: current :: others
    | _, others => [row] :: others

def nameWidth (rows : List Row) : Nat := widest (rows.map Row.names)

/-- Only tagged fields make the column of types wider. -/
def typeWidth (rows : List Row) : Nat :=
  widest ((rows.filter fun row => row.tag.isSome).map fun row => row.type.first)

def rowLines (depth names types : Nat) (row : Row) : List String :=
  let name := if row.isEmbedded then "" else padded names row.names ++ " "
  let type := match row.tag with
    | some tag => padded types row.type.first ++ " " ++ tag
    | none => row.type.first
  (indent depth ++ name ++ type) :: row.type.rest

def sectionLines (depth : Nat) (rows : List Row) : List String :=
  rows.flatMap (rowLines depth (nameWidth rows) (typeWidth rows))

def rowsLines (depth : Nat) (rows : List Row) : List String :=
  (sections rows).flatMap (sectionLines depth)

mutual

/-- A type that starts within a line at `depth`; its later lines carry their own indent. -/
def typeBlock (depth : Nat) : TypeExpr → Block
  | .struct [] => .oneLine "struct\x7b\x7d"
  | .struct members =>
    ⟨"struct \x7b", rowsLines (depth + 1) (memberRows (depth + 1) members)
      ++ [indent depth ++ "\x7d"]⟩
  | .interface [] => .oneLine "interface\x7b\x7d"
  | .interface elements =>
    ⟨"interface \x7b", (elementSpellings elements).map (indent (depth + 1) ++ ·)
      ++ [indent depth ++ "\x7d"]⟩
  | type => .oneLine type.spelling

def memberRows (depth : Nat) : List Member → List Row
  | [] => []
  | ⟨names, type, tag⟩ :: rest =>
    ⟨joined ", " names, typeBlock depth type, tag⟩ :: memberRows depth rest

end

def memberLines (depth : Nat) (members : List Member) : List String :=
  rowsLines depth (memberRows depth members)

def typeParamsText (params : List Field) : String :=
  if params.isEmpty then "" else "[" ++ listSpelling params ++ "]"

/-- The first line has no indent. -/
def specBlock (depth : Nat) (spec : TypeSpec) : Block :=
  (typeBlock depth spec.type).behind
    (spec.name ++ typeParamsText spec.typeParams ++ (if spec.isAlias then " = " else " "))

def grouped (keyword : String) (lines : List String) : List String :=
  (keyword ++ " (") :: lines ++ [")"]

def typeDeclLines (d : TypeDecl) : List String :=
  match d.grouped, d.specs with
  | false, [spec] => ((specBlock 0 spec).behind "type ").toLines
  | _, specs =>
    grouped "type" (specs.flatMap fun spec => ((specBlock 1 spec).behind (indent 1)).toLines)

def funcHead (d : FuncDecl) : String :=
  "func "
    ++ (match d.receiver with
        | some receiver => "(" ++ receiver.spelling ++ ") "
        | none => "")
    ++ d.name ++ typeParamsText d.typeParams ++ d.signature.spelling

def funcDeclLines (d : FuncDecl) : List String :=
  match d.body with
  | none => [funcHead d]
  | some [] => [funcHead d ++ " \x7b\x7d"]
  | some statements =>
    (funcHead d ++ " \x7b") :: statements.map (fun s => indent 1 ++ s.spelling) ++ ["\x7d"]

def valueKeyword : ValueKind → String
  | .var => "var"
  | .const => "const"

def valueSpecText (spec : ValueSpec) : String :=
  match spec.type with
  | some type => joined ", " spec.names ++ " " ++ type.spelling
  | none => joined ", " spec.names

def valueDeclLines (d : ValueDecl) : List String :=
  match d.specs with
  | [spec] => [valueKeyword d.kind ++ " " ++ valueSpecText spec]
  | specs =>
    grouped (valueKeyword d.kind) (specs.map fun spec => indent 1 ++ valueSpecText spec)

def declLines : Decl → List String
  | .type d => typeDeclLines d
  | .func d => funcDeclLines d
  | .value d => valueDeclLines d

def unlines (lines : List String) : String := String.join (lines.map (· ++ "\n"))

end Layout

def Decl.text (d : Decl) : String := Layout.unlines (Layout.declLines d)

end GoSpy
