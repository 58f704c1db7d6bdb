import GoSpy.Proofs.Syntax.Requalification
/- Rewriting qualifiers where they stand. A visitor is handed every qualifier of a type, one after the
   other, and what it gives back stands there afterwards; it may keep a state of its own. Such a visit
   goes along the list of the qualifiers, and a visitor without a state renames them. -/
namespace GoSpy

section

variable {σ : Type} (f : String → StateM σ String)

mutual

def TypeExpr.visit : TypeExpr → StateM σ TypeExpr
  | .name name => return .name name
  | .qualified package name => return .qualified (← f package) name
  | .generic base args => return .generic (← base.visit) (← visitTypes args)
  | .pointer target => return .pointer (← target.visit)
  | .slice element => return .slice (← element.visit)
  | .array length element => return .array length (← element.visit)
  | .map key value => return .map (← key.visit) (← value.visit)
  | .chan direction element => return .chan direction (← element.visit)
  | .func signature => return .func (← signature.visit)
  | .interface elements => return .interface (← visitElements elements)
  | .struct members => return .struct (← visitMembers members)
  | .variadic element => return .variadic (← element.visit)
  | .paren inner => return .paren (← inner.visit)
  | .union terms => return .union (← visitTerms terms)

def visitTypes : List TypeExpr → StateM σ (List TypeExpr)
  | [] => return []
  | type :: rest => return (← type.visit) :: (← visitTypes rest)

def Field.visit : Field → StateM σ Field
  | ⟨names, type⟩ => return ⟨names, ← type.visit⟩

def visitFields : List Field → StateM σ (List Field)
  | [] => return []
  | field :: rest => return (← field.visit) :: (← visitFields rest)

def Signature.visit : Signature → StateM σ Signature
  | ⟨params, results⟩ => return ⟨← visitFields params, ← visitFields results⟩

def Element.visit : Element → StateM σ Element
  | .method name signature line => return .method name (← signature.visit) line
  | .embedded type => return .embedded (← type.visit)

def visitElements : List Element → StateM σ (List Element)
  | [] => return []
  | element :: rest => return (← element.visit) :: (← visitElements rest)

def Member.visit : Member → StateM σ Member
  | ⟨names, type, tag⟩ => return ⟨names, ← type.visit, tag⟩

def visitMembers : List Member → StateM σ (List Member)
  | [] => return []
  | member :: rest => return (← member.visit) :: (← visitMembers rest)

def Term.visit : Term → StateM σ Term
  | ⟨tilde, type⟩ => return ⟨tilde, ← type.visit⟩

def visitTerms : List Term → StateM σ (List Term)
  | [] => return []
  | term :: rest => return (← term.visit) :: (← visitTerms rest)

end

mutual

theorem TypeExpr.mapM_qualifiers :
    ∀ t : TypeExpr, t.qualifiers.mapM f = TypeExpr.qualifiers <$> t.visit f
  | .name _ => by simp [TypeExpr.visit, TypeExpr.qualifiers]
  | .qualified _ _ => by simp [TypeExpr.visit, TypeExpr.qualifiers]
  | .generic base args => by
    simp [TypeExpr.visit, TypeExpr.qualifiers, TypeExpr.mapM_qualifiers base,
      mapM_typeQualifiers args]
  | .pointer t | .slice t | .array _ t | .chan _ t | .variadic t | .paren t => by
    simp [TypeExpr.visit, TypeExpr.qualifiers, TypeExpr.mapM_qualifiers t]
  | .map key value => by
    simp [TypeExpr.visit, TypeExpr.qualifiers, TypeExpr.mapM_qualifiers key,
      TypeExpr.mapM_qualifiers value]
  | .func s => by simp [TypeExpr.visit, TypeExpr.qualifiers, Signature.mapM_qualifiers s]
  | .interface es => by simp [TypeExpr.visit, TypeExpr.qualifiers, mapM_elementQualifiers es]
  | .struct ms => by simp [TypeExpr.visit, TypeExpr.qualifiers, mapM_memberQualifiers ms]
  | .union ts => by simp [TypeExpr.visit, TypeExpr.qualifiers, mapM_termQualifiers ts]

theorem mapM_typeQualifiers :
    ∀ ts : List TypeExpr, (typeQualifiers ts).mapM f = typeQualifiers <$> visitTypes f ts
  | [] => rfl
  | t :: rest => by
    simp [visitTypes, typeQualifiers, TypeExpr.mapM_qualifiers t, mapM_typeQualifiers rest]

theorem mapM_fieldQualifiers :
    ∀ fs : List Field, (fieldQualifiers fs).mapM f = fieldQualifiers <$> visitFields f fs
  | [] => rfl
  | ⟨_, t⟩ :: rest => by
    simp [visitFields, fieldQualifiers, Field.visit, Field.qualifiers, TypeExpr.mapM_qualifiers t,
      mapM_fieldQualifiers rest]

theorem Signature.mapM_qualifiers :
    ∀ s : Signature, s.qualifiers.mapM f = Signature.qualifiers <$> s.visit f
  | ⟨params, results⟩ => by
    simp [Signature.visit, Signature.qualifiers, mapM_fieldQualifiers params,
      mapM_fieldQualifiers results]

theorem mapM_elementQualifiers :
    ∀ es : List Element, (elementQualifiers es).mapM f = elementQualifiers <$> visitElements f es
  | [] => rfl
  | .method _ s _ :: rest => by
    simp [visitElements, elementQualifiers, Element.visit, Element.qualifiers,
      Signature.mapM_qualifiers s, mapM_elementQualifiers rest]
  | .embedded t :: rest => by
    simp [visitElements, elementQualifiers, Element.visit, Element.qualifiers,
      TypeExpr.mapM_qualifiers t, mapM_elementQualifiers rest]

theorem mapM_memberQualifiers :
    ∀ ms : List Member, (memberQualifiers ms).mapM f = memberQualifiers <$> visitMembers f ms
  | [] => rfl
  | ⟨_, t, _⟩ :: rest => by
    simp [visitMembers, memberQualifiers, Member.visit, Member.qualifiers,
      TypeExpr.mapM_qualifiers t, mapM_memberQualifiers rest]

theorem mapM_termQualifiers :
    ∀ ts : List Term, (termQualifiers ts).mapM f = termQualifiers <$> visitTerms f ts
  | [] => rfl
  | ⟨_, t⟩ :: rest => by
    simp [visitTerms, termQualifiers, Term.visit, Term.qualifiers, TypeExpr.mapM_qualifiers t,
      mapM_termQualifiers rest]

end

end

section

variable (g h : String → String)

mutual

theorem TypeExpr.requalify_requalify :
    ∀ t : TypeExpr, (t.requalify g).requalify h = t.requalify (h ∘ g)
  | .name _ | .qualified .. => rfl
  | .generic base args => by
    simp [TypeExpr.requalify, TypeExpr.requalify_requalify base, requalifyTypes_requalify args]
  | .pointer t | .slice t | .array _ t | .chan _ t | .variadic t | .paren t => by
    simp [TypeExpr.requalify, TypeExpr.requalify_requalify t]
  | .map key value => by
    simp [TypeExpr.requalify, TypeExpr.requalify_requalify key,
      TypeExpr.requalify_requalify value]
  | .func s => by simp [TypeExpr.requalify, Signature.requalify_requalify s]
  | .interface es => by simp [TypeExpr.requalify, requalifyElements_requalify es]
  | .struct ms => by simp [TypeExpr.requalify, requalifyMembers_requalify ms]
  | .union ts => by simp [TypeExpr.requalify, requalifyTerms_requalify ts]

theorem requalifyTypes_requalify : ∀ ts : List TypeExpr,
    requalifyTypes h (requalifyTypes g ts) = requalifyTypes (h ∘ g) ts
  | [] => rfl
  | t :: rest => by
    simp [requalifyTypes, TypeExpr.requalify_requalify t, requalifyTypes_requalify rest]

theorem requalifyFields_requalify : ∀ fs : List Field,
    requalifyFields h (requalifyFields g fs) = requalifyFields (h ∘ g) fs
  | [] => rfl
  | ⟨_, t⟩ :: rest => by
    simp [requalifyFields, Field.requalify, TypeExpr.requalify_requalify t,
      requalifyFields_requalify rest]

theorem Signature.requalify_requalify :
    ∀ s : Signature, (s.requalify g).requalify h = s.requalify (h ∘ g)
  | ⟨params, results⟩ => by
    simp [Signature.requalify, requalifyFields_requalify params, requalifyFields_requalify results]

theorem requalifyElements_requalify : ∀ es : List Element,
    requalifyElements h (requalifyElements g es) = requalifyElements (h ∘ g) es
  | [] => rfl
  | .method _ s _ :: rest => by
    simp [requalifyElements, Element.requalify, Signature.requalify_requalify s,
      requalifyElements_requalify rest]
  | .embedded t :: rest => by
    simp [requalifyElements, Element.requalify, TypeExpr.requalify_requalify t,
      requalifyElements_requalify rest]

theorem requalifyMembers_requalify : ∀ ms : List Member,
    requalifyMembers h (requalifyMembers g ms) = requalifyMembers (h ∘ g) ms
  | [] => rfl
  | ⟨_, t, _⟩ :: rest => by
    simp [requalifyMembers, Member.requalify, TypeExpr.requalify_requalify t,
      requalifyMembers_requalify rest]

theorem requalifyTerms_requalify : ∀ ts : List Term,
    requalifyTerms h (requalifyTerms g ts) = requalifyTerms (h ∘ g) ts
  | [] => rfl
  | ⟨_, t⟩ :: rest => by
    simp [requalifyTerms, Term.requalify, TypeExpr.requalify_requalify t,
      requalifyTerms_requalify rest]

end

end

section

variable {σ : Type} (g : String → String)

mutual

theorem TypeExpr.visit_pure : ∀ t : TypeExpr,
    t.visit (fun q => (pure (g q) : StateM σ String)) = pure (t.requalify g)
  | .name _ | .qualified .. => rfl
  | .generic base args => by
    simp [TypeExpr.visit, TypeExpr.requalify, TypeExpr.visit_pure base, visitTypes_pure args]
  | .pointer t | .slice t | .array _ t | .chan _ t | .variadic t | .paren t => by
    simp [TypeExpr.visit, TypeExpr.requalify, TypeExpr.visit_pure t]
  | .map key value => by
    simp [TypeExpr.visit, TypeExpr.requalify, TypeExpr.visit_pure key, TypeExpr.visit_pure value]
  | .func s => by simp [TypeExpr.visit, TypeExpr.requalify, Signature.visit_pure s]
  | .interface es => by simp [TypeExpr.visit, TypeExpr.requalify, visitElements_pure es]
  | .struct ms => by simp [TypeExpr.visit, TypeExpr.requalify, visitMembers_pure ms]
  | .union ts => by simp [TypeExpr.visit, TypeExpr.requalify, visitTerms_pure ts]

theorem visitTypes_pure : ∀ ts : List TypeExpr,
    visitTypes (fun q => (pure (g q) : StateM σ String)) ts = pure (requalifyTypes g ts)
  | [] => rfl
  | t :: rest => by
    simp [visitTypes, requalifyTypes, TypeExpr.visit_pure t, visitTypes_pure rest]

theorem visitFields_pure : ∀ fs : List Field,
    visitFields (fun q => (pure (g q) : StateM σ String)) fs = pure (requalifyFields g fs)
  | [] => rfl
  | ⟨_, t⟩ :: rest => by
    simp [visitFields, Field.visit, requalifyFields, Field.requalify, TypeExpr.visit_pure t,
      visitFields_pure rest]

theorem Signature.visit_pure : ∀ s : Signature,
    s.visit (fun q => (pure (g q) : StateM σ String)) = pure (s.requalify g)
  | ⟨params, results⟩ => by
    simp [Signature.visit, Signature.requalify, visitFields_pure params, visitFields_pure results]

theorem visitElements_pure : ∀ es : List Element,
    visitElements (fun q => (pure (g q) : StateM σ String)) es = pure (requalifyElements g es)
  | [] => rfl
  | .method _ s _ :: rest => by
    simp [visitElements, Element.visit, requalifyElements, Element.requalify,
      Signature.visit_pure s, visitElements_pure rest]
  | .embedded t :: rest => by
    simp [visitElements, Element.visit, requalifyElements, Element.requalify,
      TypeExpr.visit_pure t, visitElements_pure rest]

theorem visitMembers_pure : ∀ ms : List Member,
    visitMembers (fun q => (pure (g q) : StateM σ String)) ms = pure (requalifyMembers g ms)
  | [] => rfl
  | ⟨_, t, _⟩ :: rest => by
    simp [visitMembers, Member.visit, requalifyMembers, Member.requalify, TypeExpr.visit_pure t,
      visitMembers_pure rest]

theorem visitTerms_pure : ∀ ts : List Term,
    visitTerms (fun q => (pure (g q) : StateM σ String)) ts = pure (requalifyTerms g ts)
  | [] => rfl
  | ⟨_, t⟩ :: rest => by
    simp [visitTerms, Term.visit, requalifyTerms, Term.requalify, TypeExpr.visit_pure t,
      visitTerms_pure rest]

end

end

section

variable {σ : Type} (f : String → StateM σ String)

def AnyPackage (_ _ : String) : Prop := True

mutual

theorem TypeExpr.alike_visit :
    ∀ (t : TypeExpr) (s : σ), TypeExpr.Alike AnyPackage Eq t ((t.visit f).run s).1
  | .name n, _ => .name n
  | .qualified _ n, _ => .qualified n trivial
  | .generic base args, _ =>
    .generic (TypeExpr.alike_visit base _) (types_alike_visit args _)
  | .pointer t, s => .pointer (TypeExpr.alike_visit t s)
  | .slice t, s => .slice (TypeExpr.alike_visit t s)
  | .array length t, s => .array length (TypeExpr.alike_visit t s)
  | .map key value, _ => .map (TypeExpr.alike_visit key _) (TypeExpr.alike_visit value _)
  | .chan direction t, s => .chan direction (TypeExpr.alike_visit t s)
  | .func sig, s => .func (Signature.alike_visit sig s)
  | .interface es, s => .interface (elements_alike_visit es s)
  | .struct ms, s => .struct (members_alike_visit ms s)
  | .variadic t, s => .variadic (TypeExpr.alike_visit t s)
  | .paren t, s => .paren (TypeExpr.alike_visit t s)
  | .union ts, s => .union (terms_alike_visit ts s)

theorem types_alike_visit : ∀ (ts : List TypeExpr) (s : σ),
    List.Forall₂ (TypeExpr.Alike AnyPackage Eq) ts ((visitTypes f ts).run s).1
  | [], _ => .nil
  | t :: rest, _ => .cons (TypeExpr.alike_visit t _) (types_alike_visit rest _)

theorem fields_alike_visit : ∀ (fs : List Field) (s : σ),
    List.Forall₂ (Field.Alike AnyPackage Eq) fs ((visitFields f fs).run s).1
  | [], _ => .nil
  | ⟨names, t⟩ :: rest, _ =>
    .cons (.mk names (TypeExpr.alike_visit t _)) (fields_alike_visit rest _)

theorem Signature.alike_visit :
    ∀ (sig : Signature) (s : σ), Signature.Alike AnyPackage Eq sig ((sig.visit f).run s).1
  | ⟨params, results⟩, _ => .mk (fields_alike_visit params _) (fields_alike_visit results _)

theorem elements_alike_visit : ∀ (es : List Element) (s : σ),
    List.Forall₂ (Element.Alike AnyPackage Eq) es ((visitElements f es).run s).1
  | [], _ => .nil
  | .method name sig _ :: rest, _ =>
    .cons (.method name (Signature.alike_visit sig _) rfl) (elements_alike_visit rest _)
  | .embedded t :: rest, _ =>
    .cons (.embedded (TypeExpr.alike_visit t _)) (elements_alike_visit rest _)

theorem members_alike_visit : ∀ (ms : List Member) (s : σ),
    List.Forall₂ (Member.Alike AnyPackage Eq) ms ((visitMembers f ms).run s).1
  | [], _ => .nil
  | ⟨names, t, tag⟩ :: rest, _ =>
    .cons (.mk names tag (TypeExpr.alike_visit t _)) (members_alike_visit rest _)

theorem terms_alike_visit : ∀ (ts : List Term) (s : σ),
    List.Forall₂ (Term.Alike AnyPackage Eq) ts ((visitTerms f ts).run s).1
  | [], _ => .nil
  | ⟨tilde, t⟩ :: rest, _ =>
    .cons (.mk tilde (TypeExpr.alike_visit t _)) (terms_alike_visit rest _)

end

end

def noting (g : String → String) (q : String) : StateM (List String) String := do
  modify (· ++ [q])
  return g q

theorem mapM_noting (g : String → String) (qs noted : List String) :
    (qs.mapM (noting g)).run noted = (qs.map g, noted ++ qs) := by
  induction qs generalizing noted with
  | nil => simp only [List.mapM_nil, List.map_nil, List.append_nil]; rfl
  | cons q rest ih =>
    have first : (noting g q).run noted = (g q, noted ++ [q]) := rfl
    have later := ih (noted ++ [q])
    rw [List.append_assoc, List.singleton_append] at later
    rw [List.mapM_cons, StateT.run_bind, first]
    change ((rest.mapM (noting g) >>= fun qs => pure (g q :: qs)).run (noted ++ [q]) : Id _) = _
    rw [StateT.run_bind, later]
    rfl

/-- Two walks over one kind of syntax: `qualifiers` lists, and `visit` rewrites where the qualifiers
    stand, as `requalify` does for a function. -/
structure SameWalk {α : Type} (qualifiers : α → List String)
    (visit : ∀ {σ : Type}, (String → StateM σ String) → α → StateM σ α)
    (requalify : (String → String) → α → α)
    (alike : (String → String → Prop) → α → α → Prop) : Prop where
  /-- A visitor goes through the states of a walk along the list, and what it gives back on the way
      is listed afterwards. -/
  along : ∀ {σ : Type} (f : String → StateM σ String) (x : α) (s : σ),
    ((qualifiers x).mapM f).run s = (qualifiers ((visit f x).run s).1, ((visit f x).run s).2)
  order : ∀ (g : String → String) (x : α), ((visit (noting g) x).run []).2 = qualifiers x
  shape : ∀ {σ : Type} (f : String → StateM σ String) (x : α) (s : σ),
    alike AnyPackage x ((visit f x).run s).1
  function : ∀ {σ : Type} (g : String → String) (x : α) (s : σ),
    (visit (fun q => pure (g q)) x).run s = (requalify g x, s)
  images : ∀ (g : String → String) (x : α), qualifiers (requalify g x) = (qualifiers x).map g
  places : ∀ (g : String → String) (x : α), alike (fun p q => g p = q) x (requalify g x)
  self : ∀ x : α, requalify id x = x
  twice : ∀ (g h : String → String) (x : α), requalify h (requalify g x) = requalify (h ∘ g) x

section

variable {α : Type} {qualifiers : α → List String}
variable {visit : ∀ {σ : Type}, (String → StateM σ String) → α → StateM σ α}
variable (same : ∀ {σ : Type} (f : String → StateM σ String) (x : α),
  (qualifiers x).mapM f = qualifiers <$> visit f x)

include same

theorem run_along {σ : Type} (f : String → StateM σ String) (x : α) (s : σ) :
    ((qualifiers x).mapM f).run s = (qualifiers ((visit f x).run s).1, ((visit f x).run s).2) := by
  rw [same]
  rfl

theorem noted_order (g : String → String) (x : α) :
    ((visit (noting g) x).run []).2 = qualifiers x := by
  have whole := run_along same (noting g) x []
  rw [mapM_noting] at whole
  exact (Prod.mk.inj whole).2.symm

end

/-- Listing the qualifiers of a type and rewriting them where they stand are one walk: both come to the
    same qualifiers in the same order, and rewriting changes nothing else. -/
theorem qualifier_walks_coincide :
    SameWalk TypeExpr.qualifiers TypeExpr.visit TypeExpr.requalify (TypeExpr.Alike · Eq) ∧
      SameWalk Signature.qualifiers Signature.visit Signature.requalify (Signature.Alike · Eq) := by
  constructor
  · exact {
      along := run_along TypeExpr.mapM_qualifiers
      order := noted_order TypeExpr.mapM_qualifiers
      shape := TypeExpr.alike_visit
      function := fun g t s => by rw [TypeExpr.visit_pure]; rfl
      images := TypeExpr.qualifiers_requalify
      places := fun g t => TypeExpr.alike_requalify g (fun _ => rfl) t
      self := TypeExpr.requalify_self
      twice := TypeExpr.requalify_requalify }
  · exact {
      along := run_along Signature.mapM_qualifiers
      order := noted_order Signature.mapM_qualifiers
      shape := Signature.alike_visit
      function := fun g sig s => by rw [Signature.visit_pure]; rfl
      images := Signature.qualifiers_requalify
      places := fun g sig => Signature.alike_requalify g (fun _ => rfl) sig
      self := Signature.requalify_self
      twice := Signature.requalify_requalify }

end GoSpy
