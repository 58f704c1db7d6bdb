import GoSpy.Syntax.Declaration
import Mathlib.Data.List.Forall2
/- Types that agree in everything but the packages of qualified names and the lines of methods.
   Which packages and lines may stand for each other is open: `package` and `line` say so for
   each place at which one occurs. -/
namespace GoSpy

section

variable (package : String → String → Prop) (line : Nat → Nat → Prop)

mutual

inductive TypeExpr.Alike : TypeExpr → TypeExpr → Prop where
  | name (name : String) : TypeExpr.Alike (.name name) (.name name)
  | qualified {p q : String} (name : String) (packages : package p q) :
      TypeExpr.Alike (.qualified p name) (.qualified q name)
  | generic {base base' : TypeExpr} {args args' : List TypeExpr}
      (bases : TypeExpr.Alike base base') (all : List.Forall₂ TypeExpr.Alike args args') :
      TypeExpr.Alike (.generic base args) (.generic base' args')
  | pointer {t t' : TypeExpr} (targets : TypeExpr.Alike t t') :
      TypeExpr.Alike (.pointer t) (.pointer t')
  | slice {t t' : TypeExpr} (elements : TypeExpr.Alike t t') :
      TypeExpr.Alike (.slice t) (.slice t')
  | array (length : String) {t t' : TypeExpr} (elements : TypeExpr.Alike t t') :
      TypeExpr.Alike (.array length t) (.array length t')
  | map {key key' value value' : TypeExpr} (keys : TypeExpr.Alike key key')
      (values : TypeExpr.Alike value value') : TypeExpr.Alike (.map key value) (.map key' value')
  | chan (direction : Direction) {t t' : TypeExpr} (elements : TypeExpr.Alike t t') :
      TypeExpr.Alike (.chan direction t) (.chan direction t')
  | func {s s' : Signature} (signatures : Signature.Alike s s') :
      TypeExpr.Alike (.func s) (.func s')
  | interface {es es' : List Element} (all : List.Forall₂ Element.Alike es es') :
      TypeExpr.Alike (.interface es) (.interface es')
  | struct {ms ms' : List Member} (all : List.Forall₂ Member.Alike ms ms') :
      TypeExpr.Alike (.struct ms) (.struct ms')
  | variadic {t t' : TypeExpr} (elements : TypeExpr.Alike t t') :
      TypeExpr.Alike (.variadic t) (.variadic t')
  | paren {t t' : TypeExpr} (inner : TypeExpr.Alike t t') : TypeExpr.Alike (.paren t) (.paren t')
  | union {ts ts' : List Term} (all : List.Forall₂ Term.Alike ts ts') :
      TypeExpr.Alike (.union ts) (.union ts')

inductive Field.Alike : Field → Field → Prop where
  | mk (names : List String) {t t' : TypeExpr} (types : TypeExpr.Alike t t') :
      Field.Alike ⟨names, t⟩ ⟨names, t'⟩

inductive Signature.Alike : Signature → Signature → Prop where
  | mk {ps ps' rs rs' : List Field} (params : List.Forall₂ Field.Alike ps ps')
      (results : List.Forall₂ Field.Alike rs rs') : Signature.Alike ⟨ps, rs⟩ ⟨ps', rs'⟩

inductive Element.Alike : Element → Element → Prop where
  | method (name : String) {s s' : Signature} {m n : Nat} (signatures : Signature.Alike s s')
      (lines : line m n) : Element.Alike (.method name s m) (.method name s' n)
  | embedded {t t' : TypeExpr} (types : TypeExpr.Alike t t') :
      Element.Alike (.embedded t) (.embedded t')

inductive Member.Alike : Member → Member → Prop where
  | mk (names : List String) {t t' : TypeExpr} (tag : Option String)
      (types : TypeExpr.Alike t t') : Member.Alike ⟨names, t, tag⟩ ⟨names, t', tag⟩

inductive Term.Alike : Term → Term → Prop where
  | mk (tilde : Bool) {t t' : TypeExpr} (types : TypeExpr.Alike t t') :
      Term.Alike ⟨tilde, t⟩ ⟨tilde, t'⟩

end

structure TypeSpec.Alike (s s' : TypeSpec) : Prop where
  name : s'.name = s.name
  typeParams : List.Forall₂ (Field.Alike package line) s.typeParams s'.typeParams
  isAlias : s'.isAlias = s.isAlias
  type : TypeExpr.Alike package line s.type s'.type
  lines : line s.line s'.line

structure ValueSpec.Alike (s s' : ValueSpec) : Prop where
  names : s'.names = s.names
  type : Option.Rel (TypeExpr.Alike package line) s.type s'.type

variable (place : Place → Place → Prop)
variable (body : Option (List Statement) → Option (List Statement) → Prop)

structure FuncDecl.Alike (d d' : FuncDecl) : Prop where
  receiver : Option.Rel (Field.Alike package line) d.receiver d'.receiver
  name : d'.name = d.name
  typeParams : List.Forall₂ (Field.Alike package line) d.typeParams d'.typeParams
  signature : Signature.Alike package line d.signature d'.signature
  bodies : body d.body d'.body
  places : place d.place d'.place

/-- Declarations that agree up to packages, lines, places and bodies. -/
inductive Decl.Alike : Decl → Decl → Prop where
  | type {specs specs' : List TypeSpec} (grouped : Bool) {here there : Place}
      (all : List.Forall₂ (TypeSpec.Alike package line) specs specs') (places : place here there) :
      Decl.Alike (.type ⟨specs, grouped, here⟩) (.type ⟨specs', grouped, there⟩)
  | func {d d' : FuncDecl} (functions : FuncDecl.Alike package line place body d d') :
      Decl.Alike (.func d) (.func d')
  | value (kind : ValueKind) {specs specs' : List ValueSpec} {here there : Place}
      (all : List.Forall₂ (ValueSpec.Alike package line) specs specs')
      (places : place here there) :
      Decl.Alike (.value ⟨kind, specs, here⟩) (.value ⟨kind, specs', there⟩)

end

end GoSpy
