import GoSpy.Syntax.Declaration
/- Contracts: the interfaces that get a spy. A type declaration counts when every type in it
   is declared by an interface literal; one alias or other type leaves out the whole group. -/
namespace GoSpy

structure Contract where
  name : String
  typeParams : List Field
  elements : List Element
  place : Place

namespace Contract

def ofSpec? (file : String) (spec : TypeSpec) : Option Contract :=
  match spec.type, spec.isAlias with
  | .interface elements, false =>
    some ⟨spec.name, spec.typeParams, elements, ⟨file, spec.line⟩⟩
  | _, _ => none

def methods (c : Contract) : List Method := c.elements.filterMap Element.method?

end Contract

namespace Decl

/-- The contracts of a declaration, if it is one of contracts only. -/
def contracts? : Decl → Option (List Contract)
  | type d => if d.specs.isEmpty then none else d.specs.mapM (Contract.ofSpec? d.place.file)
  | _ => none

def contracts (d : Decl) : List Contract := d.contracts?.getD []

end Decl

end GoSpy
