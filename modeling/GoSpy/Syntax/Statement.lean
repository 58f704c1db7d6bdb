import GoSpy.Syntax.Spelling
/- The statements of generated methods: reading and writing fields, and calls. -/
namespace GoSpy

inductive Expr where
  | ident (name : String)
  | select (base : Expr) (name : String)
  | call (function : Expr) (args : List Expr)
deriving BEq, Repr, Inhabited

inductive Statement where
  | assign (target value : Expr)
  | run (call : Expr)
  | defer (call : Expr)
  | give (values : List Expr)
deriving BEq, Repr, Inhabited

mutual

def Expr.spelling : Expr → String
  | .ident name => name
  | .select base name => base.spelling ++ "." ++ name
  | .call function args => function.spelling ++ "(" ++ joined ", " (exprSpellings args) ++ ")"

def exprSpellings : List Expr → List String
  | [] => []
  | expr :: rest => expr.spelling :: exprSpellings rest

end

def Statement.spelling : Statement → String
  | .assign target value => target.spelling ++ " = " ++ value.spelling
  | .run call => call.spelling
  | .defer call => "defer " ++ call.spelling
  | .give [] => "return"
  | .give values => "return " ++ joined ", " (exprSpellings values)

end GoSpy
