import GoSpy.Syntax.Type
/- Types on one line, spaced the way the Go formatter spaces them. -/
namespace GoSpy

def joined (between : String) : List String → String
  | [] => ""
  | [text] => text
  | text :: rest => text ++ between ++ joined between rest

def Field.withNames (names : List String) (type : String) : String :=
  if names.isEmpty then type else joined ", " names ++ " " ++ type

def Direction.spelling : Direction → String
  | .both => "chan "
  | .send => "chan<- "
  | .receive => "<-chan "

mutual

def TypeExpr.spelling : TypeExpr → String
  | .name name => name
  | .qualified package name => package ++ "." ++ name
  | .generic base args => base.spelling ++ "[" ++ joined ", " (typeSpellings args) ++ "]"
  | .pointer target => "*" ++ target.spelling
  | .slice element => "[]" ++ element.spelling
  | .array length element => "[" ++ length ++ "]" ++ element.spelling
  | .map key value => "map[" ++ key.spelling ++ "]" ++ value.spelling
  | .chan direction element => direction.spelling ++ element.spelling
  | .func signature => "func" ++ signature.spelling
  | .interface [] => "interface\x7b\x7d"
  | .interface elements =>
    "interface\x7b " ++ joined "; " (elementSpellings elements) ++ " \x7d"
  | .struct [] => "struct\x7b\x7d"
  | .struct members => "struct\x7b " ++ joined "; " (memberSpellings members) ++ " \x7d"
  | .variadic element => "..." ++ element.spelling
  | .paren inner => "(" ++ inner.spelling ++ ")"
  | .union terms => joined " | " (termSpellings terms)

def typeSpellings : List TypeExpr → List String
  | [] => []
  | type :: rest => type.spelling :: typeSpellings rest

def Field.spelling : Field → String
  | ⟨names, type⟩ => Field.withNames names type.spelling

def fieldSpellings : List Field → List String
  | [] => []
  | field :: rest => field.spelling :: fieldSpellings rest

/-- A single anonymous result needs no parentheses. -/
def Signature.spelling : Signature → String
  | ⟨params, []⟩ => "(" ++ joined ", " (fieldSpellings params) ++ ")"
  | ⟨params, [⟨[], type⟩]⟩ =>
    "(" ++ joined ", " (fieldSpellings params) ++ ") " ++ type.spelling
  | ⟨params, results⟩ =>
    "(" ++ joined ", " (fieldSpellings params) ++ ") ("
      ++ joined ", " (fieldSpellings results) ++ ")"

def Element.spelling : Element → String
  | .method name signature _ => name ++ signature.spelling
  | .embedded type => type.spelling

def elementSpellings : List Element → List String
  | [] => []
  | element :: rest => element.spelling :: elementSpellings rest

def Member.spelling : Member → String
  | ⟨names, type, none⟩ => Field.withNames names type.spelling
  | ⟨names, type, some tag⟩ => Field.withNames names type.spelling ++ " " ++ tag

def memberSpellings : List Member → List String
  | [] => []
  | member :: rest => member.spelling :: memberSpellings rest

def Term.spelling : Term → String
  | ⟨tilde, type⟩ => (if tilde then "~" else "") ++ type.spelling

def termSpellings : List Term → List String
  | [] => []
  | term :: rest => term.spelling :: termSpellings rest

end

def listSpelling (fields : List Field) : String := joined ", " (fieldSpellings fields)

end GoSpy
