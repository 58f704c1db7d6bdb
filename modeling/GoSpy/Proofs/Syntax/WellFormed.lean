import GoSpy.Proofs.Syntax.TypeParameters
import GoSpy.Syntax.Declaration
/- What holds of every type that is read from a source file. Unlike a type in normal form it may
   have any text that was read as an array length, and variadic or bracketed results. -/
namespace GoSpy

mutual

def TypeExpr.isWellFormed : TypeExpr → Bool
  | .name name => isIdentifier name
  | .qualified package name => isIdentifier package && isIdentifier name
  | .generic base args =>
    base.isNamed && base.isWellFormed && !args.isEmpty && typesWellFormed args
  | .pointer target => target.isWellFormed
  | .slice element => element.isWellFormed
  | .array length element => !length.isEmpty && element.isWellFormed
  | .map key value => key.isWellFormed && value.isWellFormed
  | .chan direction element => !(direction == .both && element.isReceive) && element.isWellFormed
  | .func signature => signature.isWellFormed
  | .interface elements =>
    elementsWellFormed elements && decide (Grammar.methodNames elements).Nodup
  | .struct members => membersWellFormed members
  | .paren inner => inner.isWellFormed
  | .variadic _ | .union _ => false

def typesWellFormed : List TypeExpr → Bool
  | [] => true
  | type :: rest => type.isWellFormed && typesWellFormed rest

def Field.isWellFormed : Field → Bool
  | ⟨names, .variadic element⟩ => names.all isIdentifier && element.isWellFormed
  | ⟨names, type⟩ => names.all isIdentifier && type.isWellFormed

def fieldsWellFormed : List Field → Bool
  | [] => true
  | field :: rest => field.isWellFormed && fieldsWellFormed rest

def Signature.isWellFormed : Signature → Bool
  | ⟨params, results⟩ =>
    fieldsWellFormed params && sameNaming params && fieldsWellFormed results && sameNaming results

def Element.isWellFormed : Element → Bool
  | .method name signature _ => isIdentifier name && signature.isWellFormed
  | .embedded (.union terms) => termsWellFormed terms && isTypeSet terms
  | .embedded type => type.isWellFormed

def elementsWellFormed : List Element → Bool
  | [] => true
  | element :: rest => element.isWellFormed && elementsWellFormed rest

def Member.isWellFormed : Member → Bool
  | ⟨names, type, tag⟩ =>
    names.all isIdentifier && type.isWellFormed && (!names.isEmpty || type.isEmbeddable)
      && tag.all isStringLiteral

def membersWellFormed : List Member → Bool
  | [] => true
  | member :: rest => member.isWellFormed && membersWellFormed rest

def Term.isWellFormed : Term → Bool
  | ⟨_, type⟩ => type.isWellFormed

def termsWellFormed : List Term → Bool
  | [] => true
  | term :: rest => term.isWellFormed && termsWellFormed rest

end

def TypeExpr.isWellFormedConstraint : TypeExpr → Bool
  | .union terms => termsWellFormed terms && isTypeSet terms
  | type => type.isWellFormed

/-- What may stand behind the name of a list entry: a set of types only in a list of type
    parameters. -/
def TypeExpr.isWellFormedEntry (constrained : Bool) : TypeExpr → Bool
  | .variadic element => element.isWellFormed
  | type => if constrained then type.isWellFormedConstraint else type.isWellFormed

def Field.isWellFormedTypeParam (f : Field) : Bool :=
  f.names.all isIdentifier && f.type.isWellFormedEntry true

/- Lists -/

theorem typesWellFormed_iff {types : List TypeExpr} :
    typesWellFormed types = true ↔ ∀ t ∈ types, t.isWellFormed = true := by
  induction types with
  | nil => simp [typesWellFormed]
  | cons t rest ih => simp [typesWellFormed, ih]

theorem fieldsWellFormed_iff {fields : List Field} :
    fieldsWellFormed fields = true ↔ ∀ f ∈ fields, f.isWellFormed = true := by
  induction fields with
  | nil => simp [fieldsWellFormed]
  | cons f rest ih => simp [fieldsWellFormed, ih]

theorem elementsWellFormed_iff {elements : List Element} :
    elementsWellFormed elements = true ↔ ∀ e ∈ elements, e.isWellFormed = true := by
  induction elements with
  | nil => simp [elementsWellFormed]
  | cons e rest ih => simp [elementsWellFormed, ih]

theorem membersWellFormed_iff {members : List Member} :
    membersWellFormed members = true ↔ ∀ m ∈ members, m.isWellFormed = true := by
  induction members with
  | nil => simp [membersWellFormed]
  | cons m rest ih => simp [membersWellFormed, ih]

theorem termsWellFormed_iff {terms : List Term} :
    termsWellFormed terms = true ↔ ∀ x ∈ terms, x.isWellFormed = true := by
  induction terms with
  | nil => simp [termsWellFormed]
  | cons x rest ih => simp [termsWellFormed, ih]

theorem Field.isWellFormed_eq (f : Field) :
    f.isWellFormed = (f.names.all isIdentifier && f.type.isWellFormedEntry false) := by
  obtain ⟨names, type⟩ := f
  cases type <;> rfl

/- Declarations -/

/-- What holds of every type declaration that is read. Type parameters that have names can be
    told from the length of an array. -/
structure TypeSpec.WellFormed (spec : TypeSpec) : Prop where
  name : isIdentifier spec.name = true
  typeParams : ∀ f ∈ spec.typeParams, f.isWellFormedTypeParam = true
  sameNaming : sameNaming spec.typeParams = true
  apart : (∀ f ∈ spec.typeParams, f.names ≠ []) → separable spec.typeParams = true
  type : spec.type.isWellFormed = true

structure FuncDecl.WellFormed (d : FuncDecl) : Prop where
  receiver : ∀ r ∈ d.receiver, r.isWellFormed = true ∧ r.arity = 1
  name : isIdentifier d.name = true
  typeParams : ∀ f ∈ d.typeParams, f.isWellFormedTypeParam = true
  sameNaming : sameNaming d.typeParams = true
  signature : d.signature.isWellFormed = true
  body : d.body = none

structure ValueSpec.WellFormed (spec : ValueSpec) : Prop where
  names : spec.names.all isIdentifier = true
  type : ∀ t ∈ spec.type, t.isWellFormed = true

def Decl.WellFormed : Decl → Prop
  | type d => ∀ spec ∈ d.specs, spec.WellFormed
  | func d => d.WellFormed
  | value d => ∀ spec ∈ d.specs, spec.WellFormed

structure SourceFile.WellFormed (file : SourceFile) : Prop where
  package : isIdentifier file.package = true
  imports : ∀ i ∈ file.imports, ∀ name ∈ i.name, name = "." ∨ isIdentifier name = true
  decls : ∀ d ∈ file.decls, d.WellFormed

end GoSpy
