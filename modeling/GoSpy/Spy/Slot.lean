import GoSpy.Syntax.Type
/- Positional slots. `(a, b string, c int)` holds three of them: the index runs across all
   groups and across all names of a group. -/
namespace GoSpy

structure Slot where
  index : Nat
  name : Option String
  type : TypeExpr

/-- An anonymous or blank slot cannot be referred to. -/
def Slot.isUnnamed (slot : Slot) : Bool :=
  match slot.name with
  | none => true
  | some name => name == "_"

def Field.entries (f : Field) : List (Option String × TypeExpr) :=
  if f.names.isEmpty then [(none, f.type)] else f.names.map fun name => (some name, f.type)

def slots (fields : List Field) : List Slot :=
  (fields.flatMap Field.entries).mapIdx fun index e => ⟨index, e.1, e.2⟩

/-- What a slot's value is kept as: variadic arguments arrive as a slice. -/
def TypeExpr.captured : TypeExpr → TypeExpr
  | .variadic element => .slice element
  | type => type

end GoSpy
