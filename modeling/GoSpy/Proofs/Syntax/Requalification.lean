import GoSpy.Proofs.Syntax.Alike
/- Renaming qualifiers changes nothing but the packages of qualified names, and it changes
   them one by one in the order in which they are listed. Each fact is proved over all the
   kinds of syntax at once, one case for each form. -/
namespace GoSpy

mutual

theorem TypeExpr.qualifiers_requalify (g : String → String) :
    ∀ t : TypeExpr, (t.requalify g).qualifiers = t.qualifiers.map g
  | .name _ => by simp [TypeExpr.requalify, TypeExpr.qualifiers]
  | .qualified _ _ => by simp [TypeExpr.requalify, TypeExpr.qualifiers]
  | .generic base args => by
    simp [TypeExpr.requalify, TypeExpr.qualifiers, TypeExpr.qualifiers_requalify g base,
      typeQualifiers_requalify g args]
  | .pointer t | .slice t | .array _ t | .chan _ t | .variadic t | .paren t => by
    simp [TypeExpr.requalify, TypeExpr.qualifiers, TypeExpr.qualifiers_requalify g t]
  | .map key value => by
    simp [TypeExpr.requalify, TypeExpr.qualifiers, TypeExpr.qualifiers_requalify g key,
      TypeExpr.qualifiers_requalify g value]
  | .func s => by
    simp [TypeExpr.requalify, TypeExpr.qualifiers, Signature.qualifiers_requalify g s]
  | .interface es => by
    simp [TypeExpr.requalify, TypeExpr.qualifiers, elementQualifiers_requalify g es]
  | .struct ms => by
    simp [TypeExpr.requalify, TypeExpr.qualifiers, memberQualifiers_requalify g ms]
  | .union ts => by
    simp [TypeExpr.requalify, TypeExpr.qualifiers, termQualifiers_requalify g ts]

theorem typeQualifiers_requalify (g : String → String) :
    ∀ ts : List TypeExpr, typeQualifiers (requalifyTypes g ts) = (typeQualifiers ts).map g
  | [] => rfl
  | t :: rest => by
    simp [requalifyTypes, typeQualifiers, TypeExpr.qualifiers_requalify g t,
      typeQualifiers_requalify g rest]

theorem fieldQualifiers_requalify (g : String → String) :
    ∀ fs : List Field, fieldQualifiers (requalifyFields g fs) = (fieldQualifiers fs).map g
  | [] => rfl
  | ⟨_, t⟩ :: rest => by
    simp [requalifyFields, fieldQualifiers, Field.requalify, Field.qualifiers,
      TypeExpr.qualifiers_requalify g t, fieldQualifiers_requalify g rest]

theorem Signature.qualifiers_requalify (g : String → String) :
    ∀ s : Signature, (s.requalify g).qualifiers = s.qualifiers.map g
  | ⟨params, results⟩ => by
    simp [Signature.requalify, Signature.qualifiers, fieldQualifiers_requalify g params,
      fieldQualifiers_requalify g results]

theorem elementQualifiers_requalify (g : String → String) :
    ∀ es : List Element,
      elementQualifiers (requalifyElements g es) = (elementQualifiers es).map g
  | [] => rfl
  | .method _ s _ :: rest => by
    simp [requalifyElements, elementQualifiers, Element.requalify, Element.qualifiers,
      Signature.qualifiers_requalify g s, elementQualifiers_requalify g rest]
  | .embedded t :: rest => by
    simp [requalifyElements, elementQualifiers, Element.requalify, Element.qualifiers,
      TypeExpr.qualifiers_requalify g t, elementQualifiers_requalify g rest]

theorem memberQualifiers_requalify (g : String → String) :
    ∀ ms : List Member, memberQualifiers (requalifyMembers g ms) = (memberQualifiers ms).map g
  | [] => rfl
  | ⟨_, t, _⟩ :: rest => by
    simp [requalifyMembers, memberQualifiers, Member.requalify, Member.qualifiers,
      TypeExpr.qualifiers_requalify g t, memberQualifiers_requalify g rest]

theorem termQualifiers_requalify (g : String → String) :
    ∀ ts : List Term, termQualifiers (requalifyTerms g ts) = (termQualifiers ts).map g
  | [] => rfl
  | ⟨_, t⟩ :: rest => by
    simp [requalifyTerms, termQualifiers, Term.requalify, Term.qualifiers,
      TypeExpr.qualifiers_requalify g t, termQualifiers_requalify g rest]

end

mutual

theorem TypeExpr.requalify_self : ∀ t : TypeExpr, t.requalify id = t
  | .name _ | .qualified .. => rfl
  | .generic base args => by
    simp [TypeExpr.requalify, TypeExpr.requalify_self base, requalifyTypes_self args]
  | .pointer t | .slice t | .array _ t | .chan _ t | .variadic t | .paren t => by
    simp [TypeExpr.requalify, TypeExpr.requalify_self t]
  | .map key value => by
    simp [TypeExpr.requalify, TypeExpr.requalify_self key, TypeExpr.requalify_self value]
  | .func s => by simp [TypeExpr.requalify, Signature.requalify_self s]
  | .interface es => by simp [TypeExpr.requalify, requalifyElements_self es]
  | .struct ms => by simp [TypeExpr.requalify, requalifyMembers_self ms]
  | .union ts => by simp [TypeExpr.requalify, requalifyTerms_self ts]

theorem requalifyTypes_self : ∀ ts : List TypeExpr, requalifyTypes id ts = ts
  | [] => rfl
  | t :: rest => by simp [requalifyTypes, TypeExpr.requalify_self t, requalifyTypes_self rest]

theorem requalifyFields_self : ∀ fs : List Field, requalifyFields id fs = fs
  | [] => rfl
  | ⟨_, t⟩ :: rest => by
    simp [requalifyFields, Field.requalify, TypeExpr.requalify_self t, requalifyFields_self rest]

theorem Signature.requalify_self : ∀ s : Signature, s.requalify id = s
  | ⟨params, results⟩ => by
    simp [Signature.requalify, requalifyFields_self params, requalifyFields_self results]

theorem requalifyElements_self : ∀ es : List Element, requalifyElements id es = es
  | [] => rfl
  | .method _ s _ :: rest => by
    simp [requalifyElements, Element.requalify, Signature.requalify_self s,
      requalifyElements_self rest]
  | .embedded t :: rest => by
    simp [requalifyElements, Element.requalify, TypeExpr.requalify_self t,
      requalifyElements_self rest]

theorem requalifyMembers_self : ∀ ms : List Member, requalifyMembers id ms = ms
  | [] => rfl
  | ⟨_, t, _⟩ :: rest => by
    simp [requalifyMembers, Member.requalify, TypeExpr.requalify_self t,
      requalifyMembers_self rest]

theorem requalifyTerms_self : ∀ ts : List Term, requalifyTerms id ts = ts
  | [] => rfl
  | ⟨_, t⟩ :: rest => by
    simp [requalifyTerms, Term.requalify, TypeExpr.requalify_self t, requalifyTerms_self rest]

end

section

variable (g : String → String) {package : String → String → Prop}

mutual

theorem TypeExpr.alike_requalify (allowed : ∀ p, package p (g p)) :
    ∀ t : TypeExpr, TypeExpr.Alike package Eq t (t.requalify g)
  | .name n => .name n
  | .qualified _ n => .qualified n (allowed _)
  | .generic base args =>
    .generic (TypeExpr.alike_requalify allowed base) (types_alike_requalify allowed args)
  | .pointer t => .pointer (TypeExpr.alike_requalify allowed t)
  | .slice t => .slice (TypeExpr.alike_requalify allowed t)
  | .array length t => .array length (TypeExpr.alike_requalify allowed t)
  | .map key value =>
    .map (TypeExpr.alike_requalify allowed key) (TypeExpr.alike_requalify allowed value)
  | .chan direction t => .chan direction (TypeExpr.alike_requalify allowed t)
  | .func s => .func (Signature.alike_requalify allowed s)
  | .interface es => .interface (elements_alike_requalify allowed es)
  | .struct ms => .struct (members_alike_requalify allowed ms)
  | .variadic t => .variadic (TypeExpr.alike_requalify allowed t)
  | .paren t => .paren (TypeExpr.alike_requalify allowed t)
  | .union ts => .union (terms_alike_requalify allowed ts)

theorem types_alike_requalify (allowed : ∀ p, package p (g p)) :
    ∀ ts : List TypeExpr,
      List.Forall₂ (TypeExpr.Alike package Eq) ts (requalifyTypes g ts)
  | [] => .nil
  | t :: rest => .cons (TypeExpr.alike_requalify allowed t) (types_alike_requalify allowed rest)

theorem fields_alike_requalify (allowed : ∀ p, package p (g p)) :
    ∀ fs : List Field, List.Forall₂ (Field.Alike package Eq) fs (requalifyFields g fs)
  | [] => .nil
  | ⟨names, t⟩ :: rest =>
    .cons (.mk names (TypeExpr.alike_requalify allowed t)) (fields_alike_requalify allowed rest)

theorem Signature.alike_requalify (allowed : ∀ p, package p (g p)) :
    ∀ s : Signature, Signature.Alike package Eq s (s.requalify g)
  | ⟨params, results⟩ =>
    .mk (fields_alike_requalify allowed params) (fields_alike_requalify allowed results)

theorem elements_alike_requalify (allowed : ∀ p, package p (g p)) :
    ∀ es : List Element,
      List.Forall₂ (Element.Alike package Eq) es (requalifyElements g es)
  | [] => .nil
  | .method name s _ :: rest =>
    .cons (.method name (Signature.alike_requalify allowed s) rfl)
      (elements_alike_requalify allowed rest)
  | .embedded t :: rest =>
    .cons (.embedded (TypeExpr.alike_requalify allowed t)) (elements_alike_requalify allowed rest)

theorem members_alike_requalify (allowed : ∀ p, package p (g p)) :
    ∀ ms : List Member,
      List.Forall₂ (Member.Alike package Eq) ms (requalifyMembers g ms)
  | [] => .nil
  | ⟨names, t, tag⟩ :: rest =>
    .cons (.mk names tag (TypeExpr.alike_requalify allowed t))
      (members_alike_requalify allowed rest)

theorem terms_alike_requalify (allowed : ∀ p, package p (g p)) :
    ∀ ts : List Term, List.Forall₂ (Term.Alike package Eq) ts (requalifyTerms g ts)
  | [] => .nil
  | ⟨tilde, t⟩ :: rest =>
    .cons (.mk tilde (TypeExpr.alike_requalify allowed t)) (terms_alike_requalify allowed rest)

end

section

variable (allowed : ∀ p, package p (g p))

include allowed

theorem Field.alike_requalify : ∀ f : Field, Field.Alike package Eq f (f.requalify g)
  | ⟨names, t⟩ => .mk names (TypeExpr.alike_requalify g allowed t)

theorem Decl.alike_requalify (d : Decl) :
    Decl.Alike package Eq Eq Eq d (d.requalify g) := by
  cases d with
  | type d =>
    refine .type d.grouped (List.forall₂_map_right_iff.mpr ?_) rfl
    exact List.forall₂_same.mpr fun spec _ =>
      ⟨rfl, fields_alike_requalify g allowed spec.typeParams, rfl,
        TypeExpr.alike_requalify g allowed spec.type, rfl⟩
  | func d =>
    refine .func ⟨?_, rfl, fields_alike_requalify g allowed d.typeParams,
      Signature.alike_requalify g allowed d.signature, rfl, rfl⟩
    obtain ⟨receiver, name, typeParams, signature, body, place⟩ := d
    cases receiver with
    | none => exact .none
    | some field => exact .some (Field.alike_requalify g allowed field)
  | value d =>
    refine .value d.kind (List.forall₂_map_right_iff.mpr ?_) rfl
    refine List.forall₂_same.mpr fun spec _ => ⟨rfl, ?_⟩
    obtain ⟨names, type⟩ := spec
    cases type with
    | none => exact .none
    | some t => exact .some (TypeExpr.alike_requalify g allowed t)

end

theorem Field.qualifiers_requalify : ∀ f : Field, (f.requalify g).qualifiers = f.qualifiers.map g
  | ⟨_, t⟩ => TypeExpr.qualifiers_requalify g t

theorem Decl.qualifiers_requalify (d : Decl) :
    (d.requalify g).qualifiers = d.qualifiers.map g := by
  cases d with
  | type d =>
    simp [Decl.requalify, Decl.qualifiers, Decl.typeSpecQualifiers, List.map_flatMap,
      List.flatMap_map, fieldQualifiers_requalify, TypeExpr.qualifiers_requalify]
  | func d =>
    obtain ⟨receiver, name, typeParams, signature, body, place⟩ := d
    cases receiver <;>
      simp [Decl.requalify, Decl.qualifiers, fieldQualifiers, Field.qualifiers_requalify,
        fieldQualifiers_requalify, Signature.qualifiers_requalify]
  | value d =>
    simp only [Decl.requalify, Decl.qualifiers, List.map_flatMap, List.flatMap_map]
    refine congrArg (List.flatMap · d.specs) (funext fun spec => ?_)
    obtain ⟨names, type⟩ := spec
    cases type <;> simp [TypeExpr.qualifiers_requalify]

end

end GoSpy
