/- Go types as they are written, down to what a declaration's shape depends on. The length of
   an array is kept as text: it is an expression, and no expression is read here. -/
namespace GoSpy

inductive Direction where
  | both
  | send
  | receive
deriving DecidableEq, Repr

mutual

inductive TypeExpr where
  | name (name : String)
  | qualified (package name : String)
  | generic (base : TypeExpr) (args : List TypeExpr)
  | pointer (target : TypeExpr)
  | slice (element : TypeExpr)
  | array (length : String) (element : TypeExpr)
  | map (key value : TypeExpr)
  | chan (direction : Direction) (element : TypeExpr)
  | func (signature : Signature)
  | interface (elements : List Element)
  | struct (members : List Member)
  | variadic (element : TypeExpr)
  | paren (inner : TypeExpr)
  | union (terms : List Term)

/-- Names that share one type; without names it stands for one anonymous entry. -/
structure Field where
  names : List String
  type : TypeExpr

structure Signature where
  params : List Field
  results : List Field

inductive Element where
  | method (name : String) (signature : Signature) (line : Nat)
  | embedded (type : TypeExpr)

/-- A line of a struct literal; without names the type is embedded. -/
structure Member where
  names : List String
  type : TypeExpr
  tag : Option String

structure Term where
  tilde : Bool
  type : TypeExpr

end

deriving instance BEq, Repr, Inhabited for TypeExpr, Field, Signature, Element, Member, Term

def Field.arity (f : Field) : Nat := max f.names.length 1

structure Method where
  name : String
  signature : Signature
  line : Nat

def Element.method? : Element → Option Method
  | method name signature line => some ⟨name, signature, line⟩
  | embedded _ => none

def Element.embedded? : Element → Option TypeExpr
  | method .. => none
  | embedded type => some type

end GoSpy
