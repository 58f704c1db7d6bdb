import GoSpy.Syntax.Statement
import GoSpy.Syntax.Qualifiers
/- The declarations of a source file, each with the place it was declared at. -/
namespace GoSpy

structure Place where
  file : String
  line : Nat
deriving DecidableEq, Repr

/-- An import line; the names `.` and `_` bind no qualifier. -/
structure ImportSpec where
  name : Option String
  path : String
  line : Nat
deriving DecidableEq, Repr

structure TypeSpec where
  name : String
  typeParams : List Field
  isAlias : Bool
  type : TypeExpr
  line : Nat

structure TypeDecl where
  specs : List TypeSpec
  grouped : Bool
  place : Place

/-- A function or a method. A function read from a source file has no body here. -/
structure FuncDecl where
  receiver : Option Field
  name : String
  typeParams : List Field
  signature : Signature
  body : Option (List Statement)
  place : Place

inductive ValueKind where
  | var
  | const
deriving DecidableEq, Repr

structure ValueSpec where
  names : List String
  type : Option TypeExpr

structure ValueDecl where
  kind : ValueKind
  specs : List ValueSpec
  place : Place

inductive Decl where
  | type (decl : TypeDecl)
  | func (decl : FuncDecl)
  | value (decl : ValueDecl)

structure SourceFile where
  package : String
  imports : List ImportSpec
  decls : List Decl

namespace Decl

def place : Decl → Place
  | type d => d.place
  | func d => d.place
  | value d => d.place

def typeSpecQualifiers (spec : TypeSpec) : List String :=
  fieldQualifiers spec.typeParams ++ spec.type.qualifiers

def qualifiers : Decl → List String
  | type d => d.specs.flatMap typeSpecQualifiers
  | func d =>
    fieldQualifiers d.receiver.toList ++ fieldQualifiers d.typeParams ++ d.signature.qualifiers
  | value d => d.specs.flatMap fun spec => spec.type.toList.flatMap TypeExpr.qualifiers

def requalify (g : String → String) : Decl → Decl
  | type d => type
      { d with specs := d.specs.map fun spec =>
          { spec with
            typeParams := requalifyFields g spec.typeParams
            type := spec.type.requalify g } }
  | func d => func
      { d with
        receiver := d.receiver.map (Field.requalify g)
        typeParams := requalifyFields g d.typeParams
        signature := d.signature.requalify g }
  | value d => value
      { d with specs := d.specs.map fun spec =>
          { spec with type := spec.type.map (TypeExpr.requalify g) } }

end Decl

end GoSpy
