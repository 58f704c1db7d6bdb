import GoSpy.Syntax.Type
/- The package qualifiers of a type in the order of its text, and their renaming. Array
   lengths are text and are left alone by both. -/
namespace GoSpy

mutual

def TypeExpr.qualifiers : TypeExpr → List String
  | .name _ => []
  | .qualified package _ => [package]
  | .generic base args => base.qualifiers ++ typeQualifiers args
  | .pointer target => target.qualifiers
  | .slice element => element.qualifiers
  | .array _ element => element.qualifiers
  | .map key value => key.qualifiers ++ value.qualifiers
  | .chan _ element => element.qualifiers
  | .func signature => signature.qualifiers
  | .interface elements => elementQualifiers elements
  | .struct members => memberQualifiers members
  | .variadic element => element.qualifiers
  | .paren inner => inner.qualifiers
  | .union terms => termQualifiers terms

def typeQualifiers : List TypeExpr → List String
  | [] => []
  | type :: rest => type.qualifiers ++ typeQualifiers rest

def Field.qualifiers : Field → List String
  | ⟨_, type⟩ => type.qualifiers

def fieldQualifiers : List Field → List String
  | [] => []
  | field :: rest => field.qualifiers ++ fieldQualifiers rest

def Signature.qualifiers : Signature → List String
  | ⟨params, results⟩ => fieldQualifiers params ++ fieldQualifiers results

def Element.qualifiers : Element → List String
  | .method _ signature _ => signature.qualifiers
  | .embedded type => type.qualifiers

def elementQualifiers : List Element → List String
  | [] => []
  | element :: rest => element.qualifiers ++ elementQualifiers rest

def Member.qualifiers : Member → List String
  | ⟨_, type, _⟩ => type.qualifiers

def memberQualifiers : List Member → List String
  | [] => []
  | member :: rest => member.qualifiers ++ memberQualifiers rest

def Term.qualifiers : Term → List String
  | ⟨_, type⟩ => type.qualifiers

def termQualifiers : List Term → List String
  | [] => []
  | term :: rest => term.qualifiers ++ termQualifiers rest

end

mutual

def TypeExpr.requalify (g : String → String) : TypeExpr → TypeExpr
  | .name name => .name name
  | .qualified package name => .qualified (g package) name
  | .generic base args => .generic (base.requalify g) (requalifyTypes g args)
  | .pointer target => .pointer (target.requalify g)
  | .slice element => .slice (element.requalify g)
  | .array length element => .array length (element.requalify g)
  | .map key value => .map (key.requalify g) (value.requalify g)
  | .chan direction element => .chan direction (element.requalify g)
  | .func signature => .func (signature.requalify g)
  | .interface elements => .interface (requalifyElements g elements)
  | .struct members => .struct (requalifyMembers g members)
  | .variadic element => .variadic (element.requalify g)
  | .paren inner => .paren (inner.requalify g)
  | .union terms => .union (requalifyTerms g terms)

def requalifyTypes (g : String → String) : List TypeExpr → List TypeExpr
  | [] => []
  | type :: rest => type.requalify g :: requalifyTypes g rest

def Field.requalify (g : String → String) : Field → Field
  | ⟨names, type⟩ => ⟨names, type.requalify g⟩

def requalifyFields (g : String → String) : List Field → List Field
  | [] => []
  | field :: rest => field.requalify g :: requalifyFields g rest

def Signature.requalify (g : String → String) : Signature → Signature
  | ⟨params, results⟩ => ⟨requalifyFields g params, requalifyFields g results⟩

def Element.requalify (g : String → String) : Element → Element
  | .method name signature line => .method name (signature.requalify g) line
  | .embedded type => .embedded (type.requalify g)

def requalifyElements (g : String → String) : List Element → List Element
  | [] => []
  | element :: rest => element.requalify g :: requalifyElements g rest

def Member.requalify (g : String → String) : Member → Member
  | ⟨names, type, tag⟩ => ⟨names, type.requalify g, tag⟩

def requalifyMembers (g : String → String) : List Member → List Member
  | [] => []
  | member :: rest => member.requalify g :: requalifyMembers g rest

def Term.requalify (g : String → String) : Term → Term
  | ⟨tilde, type⟩ => ⟨tilde, type.requalify g⟩

def requalifyTerms (g : String → String) : List Term → List Term
  | [] => []
  | term :: rest => term.requalify g :: requalifyTerms g rest

end

end GoSpy
