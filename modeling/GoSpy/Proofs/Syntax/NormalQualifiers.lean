import GoSpy.Proofs.Syntax.NormalForm
import GoSpy.Syntax.Qualifiers
/- Renaming qualifiers by names keeps a type in normal form. The qualifiers of a type in normal
   form are names themselves, so that renaming them to themselves or to new names will do. -/
namespace GoSpy

def AllIdentifiers (names : List String) : Prop := ∀ name ∈ names, isIdentifier name = true

def KeepsIdentifiers (g : String → String) : Prop :=
  ∀ name, isIdentifier name = true → isIdentifier (g name) = true

theorem AllIdentifiers.append {front back : List String} (first : AllIdentifiers front)
    (second : AllIdentifiers back) : AllIdentifiers (front ++ back) := by
  intro name member
  rcases List.mem_append.mp member with inFront | inBack
  · exact first name inFront
  · exact second name inBack

theorem AllIdentifiers.none : AllIdentifiers [] := by simp [AllIdentifiers]

mutual

theorem TypeExpr.identifiers : ∀ t : TypeExpr, t.isNormal = true → AllIdentifiers t.qualifiers
  | .name _, _ => .none
  | .qualified package _, normal => by
    have parts := Bool.and_eq_true_iff.mp normal
    change AllIdentifiers [package]
    simpa [AllIdentifiers] using parts.1
  | .generic base args, normal => by
    obtain ⟨front, all⟩ := Bool.and_eq_true_iff.mp normal
    obtain ⟨front, _⟩ := Bool.and_eq_true_iff.mp front
    obtain ⟨_, normal⟩ := Bool.and_eq_true_iff.mp front
    exact (base.identifiers normal).append (types_identifiers args all)
  | .pointer target, normal => target.identifiers normal
  | .slice element, normal => element.identifiers normal
  | .array _ element, normal => element.identifiers (Bool.and_eq_true_iff.mp normal).2
  | .map key value, normal =>
    have parts := Bool.and_eq_true_iff.mp normal
    (key.identifiers parts.1).append (value.identifiers parts.2)
  | .chan _ element, normal => element.identifiers (Bool.and_eq_true_iff.mp normal).2
  | .func signature, normal => signature.identifiers normal
  | .interface elements, normal =>
    elements_identifiers elements (Bool.and_eq_true_iff.mp normal).1
  | .struct members, normal => members_identifiers members normal
  | .paren inner, normal => inner.identifiers normal
  | .variadic _, normal => by cases normal
  | .union _, normal => by cases normal

theorem types_identifiers : ∀ types : List TypeExpr, typesNormal types = true →
    AllIdentifiers (typeQualifiers types)
  | [], _ => .none
  | t :: rest, normal =>
    have parts := Bool.and_eq_true_iff.mp normal
    (t.identifiers parts.1).append (types_identifiers rest parts.2)

theorem Field.identifiersParam : ∀ f : Field, f.isNormalParam = true →
    AllIdentifiers f.qualifiers
  | ⟨_, type⟩, normal => by
    cases type with
    | variadic element => exact element.identifiers (Bool.and_eq_true_iff.mp normal).2
    | _ => exact TypeExpr.identifiers _ (Bool.and_eq_true_iff.mp normal).2

theorem params_identifiers : ∀ fields : List Field, paramsNormal fields = true →
    AllIdentifiers (fieldQualifiers fields)
  | [], _ => .none
  | f :: rest, normal =>
    have parts := Bool.and_eq_true_iff.mp normal
    (f.identifiersParam parts.1).append (params_identifiers rest parts.2)

theorem results_identifiers : ∀ fields : List Field, resultsNormal fields = true →
    AllIdentifiers (fieldQualifiers fields)
  | [], _ => .none
  | ⟨_, type⟩ :: rest, normal =>
    have parts := Bool.and_eq_true_iff.mp normal
    (type.identifiers (Bool.and_eq_true_iff.mp parts.1).2).append
      (results_identifiers rest parts.2)

theorem Signature.identifiers : ∀ s : Signature, s.isNormal = true →
    AllIdentifiers s.qualifiers
  | ⟨params, results⟩, normal => by
    obtain ⟨front, _⟩ := Bool.and_eq_true_iff.mp normal
    obtain ⟨front, _⟩ := Bool.and_eq_true_iff.mp front
    obtain ⟨front, normalResults⟩ := Bool.and_eq_true_iff.mp front
    obtain ⟨normalParams, _⟩ := Bool.and_eq_true_iff.mp front
    exact (params_identifiers params normalParams).append
      (results_identifiers results normalResults)

theorem Element.identifiers : ∀ e : Element, e.isNormal = true → AllIdentifiers e.qualifiers
  | .method _ signature _, normal => signature.identifiers (Bool.and_eq_true_iff.mp normal).2
  | .embedded type, normal => by
    cases type with
    | union terms => exact terms_identifiers terms (Bool.and_eq_true_iff.mp normal).1
    | _ => exact TypeExpr.identifiers _ normal

theorem elements_identifiers : ∀ elements : List Element, elementsNormal elements = true →
    AllIdentifiers (elementQualifiers elements)
  | [], _ => .none
  | e :: rest, normal =>
    have parts := Bool.and_eq_true_iff.mp normal
    (e.identifiers parts.1).append (elements_identifiers rest parts.2)

theorem members_identifiers : ∀ members : List Member, membersNormal members = true →
    AllIdentifiers (memberQualifiers members)
  | [], _ => .none
  | ⟨_, type, _⟩ :: rest, normal => by
    obtain ⟨first, later⟩ := Bool.and_eq_true_iff.mp normal
    obtain ⟨front, _⟩ := Bool.and_eq_true_iff.mp first
    obtain ⟨front, _⟩ := Bool.and_eq_true_iff.mp front
    exact (type.identifiers (Bool.and_eq_true_iff.mp front).2).append
      (members_identifiers rest later)

theorem terms_identifiers : ∀ terms : List Term, termsNormal terms = true →
    AllIdentifiers (termQualifiers terms)
  | [], _ => .none
  | ⟨_, type⟩ :: rest, normal =>
    have parts := Bool.and_eq_true_iff.mp normal
    (type.identifiers parts.1).append (terms_identifiers rest parts.2)

end

/- What renaming leaves as it is -/

section

variable (g : String → String)

theorem isNamed_requalify (t : TypeExpr) : (t.requalify g).isNamed = t.isNamed := by
  cases t <;> rfl

theorem isReceive_requalify (t : TypeExpr) : (t.requalify g).isReceive = t.isReceive := by
  cases t with
  | chan direction => cases direction <;> rfl
  | _ => rfl

theorem isParen_requalify (t : TypeExpr) : (t.requalify g).isParen = t.isParen := by
  cases t <;> rfl

theorem isEmbeddable_requalify (t : TypeExpr) :
    (t.requalify g).isEmbeddable = t.isEmbeddable := by
  cases t with
  | pointer target => cases target <;> rfl
  | _ => rfl

theorem sameNaming_requalify (fields : List Field) :
    sameNaming (requalifyFields g fields) = sameNaming fields := by
  have each (p : List String → Bool) :
      (requalifyFields g fields).all (fun f => p f.names) = fields.all fun f => p f.names := by
    induction fields with
    | nil => rfl
    | cons f rest ih =>
      cases f
      exact congrArg (_ && ·) ih
  exact congrArg₂ (· || ·) (each List.isEmpty) (each fun names => !names.isEmpty)

theorem plainResults_requalify (fields : List Field) :
    plainResults (requalifyFields g fields) = plainResults fields := by
  match fields with
  | [] => rfl
  | [⟨[], t⟩] => exact congrArg (! ·) (isParen_requalify g t)
  | [⟨_ :: _, _⟩] => rfl
  | ⟨[], _⟩ :: _ :: _ => rfl
  | ⟨_ :: _, _⟩ :: _ :: _ => rfl

theorem methodNames_requalify (elements : List Element) :
    Grammar.methodNames (requalifyElements g elements) = Grammar.methodNames elements := by
  induction elements with
  | nil => rfl
  | cons e rest ih =>
    cases e with
    | method name => exact congrArg (name :: ·) ih
    | embedded => exact ih

theorem isTypeSet_requalify (terms : List Term) :
    isTypeSet (requalifyTerms g terms) = isTypeSet terms := by
  match terms with
  | [] => rfl
  | [⟨_, _⟩] => rfl
  | _ :: _ :: _ => rfl

/- Renaming types in normal form -/

variable {g : String → String}

mutual

theorem TypeExpr.requalify_normal (names : KeepsIdentifiers g) :
    ∀ t : TypeExpr, t.isNormal = true → (t.requalify g).isNormal = true
  | .name _, normal => normal
  | .qualified package _, normal =>
    have parts := Bool.and_eq_true_iff.mp normal
    Bool.and_eq_true_iff.mpr ⟨names package parts.1, parts.2⟩
  | .generic base args, normal => by
    obtain ⟨front, all⟩ := Bool.and_eq_true_iff.mp normal
    obtain ⟨front, some⟩ := Bool.and_eq_true_iff.mp front
    obtain ⟨named, normal⟩ := Bool.and_eq_true_iff.mp front
    refine Bool.and_eq_true_iff.mpr ⟨Bool.and_eq_true_iff.mpr ⟨Bool.and_eq_true_iff.mpr ⟨?_,
      base.requalify_normal names normal⟩, ?_⟩, types_requalify_normal names args all⟩
    · rwa [isNamed_requalify]
    · cases args <;> exact some
  | .pointer target, normal => target.requalify_normal names normal
  | .slice element, normal => element.requalify_normal names normal
  | .array _ element, normal =>
    have parts := Bool.and_eq_true_iff.mp normal
    Bool.and_eq_true_iff.mpr ⟨parts.1, element.requalify_normal names parts.2⟩
  | .map key value, normal =>
    have parts := Bool.and_eq_true_iff.mp normal
    Bool.and_eq_true_iff.mpr
      ⟨key.requalify_normal names parts.1, value.requalify_normal names parts.2⟩
  | .chan _ element, normal => by
    obtain ⟨apart, normal⟩ := Bool.and_eq_true_iff.mp normal
    refine Bool.and_eq_true_iff.mpr ⟨?_, element.requalify_normal names normal⟩
    rwa [isReceive_requalify]
  | .func signature, normal => signature.requalify_normal names normal
  | .interface elements, normal => by
    obtain ⟨all, distinct⟩ := Bool.and_eq_true_iff.mp normal
    refine Bool.and_eq_true_iff.mpr ⟨elements_requalify_normal names elements all, ?_⟩
    rwa [methodNames_requalify]
  | .struct members, normal => members_requalify_normal names members normal
  | .paren inner, normal => inner.requalify_normal names normal
  | .variadic _, normal => by cases normal
  | .union _, normal => by cases normal

theorem types_requalify_normal (names : KeepsIdentifiers g) :
    ∀ types : List TypeExpr, typesNormal types = true → typesNormal (requalifyTypes g types) = true
  | [], _ => rfl
  | t :: rest, normal =>
    have parts := Bool.and_eq_true_iff.mp normal
    Bool.and_eq_true_iff.mpr
      ⟨t.requalify_normal names parts.1, types_requalify_normal names rest parts.2⟩

theorem Field.requalify_normalParam (names : KeepsIdentifiers g) :
    ∀ f : Field, f.isNormalParam = true → (f.requalify g).isNormalParam = true
  | ⟨_, type⟩, normal => by
    cases type with
    | variadic element =>
      have parts := Bool.and_eq_true_iff.mp normal
      exact Bool.and_eq_true_iff.mpr ⟨parts.1, element.requalify_normal names parts.2⟩
    | _ =>
      have parts := Bool.and_eq_true_iff.mp normal
      exact Bool.and_eq_true_iff.mpr ⟨parts.1, TypeExpr.requalify_normal names _ parts.2⟩

theorem params_requalify_normal (names : KeepsIdentifiers g) :
    ∀ fields : List Field, paramsNormal fields = true →
      paramsNormal (requalifyFields g fields) = true
  | [], _ => rfl
  | f :: rest, normal =>
    have parts := Bool.and_eq_true_iff.mp normal
    Bool.and_eq_true_iff.mpr
      ⟨f.requalify_normalParam names parts.1, params_requalify_normal names rest parts.2⟩

theorem results_requalify_normal (names : KeepsIdentifiers g) :
    ∀ fields : List Field, resultsNormal fields = true →
      resultsNormal (requalifyFields g fields) = true
  | [], _ => rfl
  | ⟨_, type⟩ :: rest, normal => by
    obtain ⟨first, later⟩ := Bool.and_eq_true_iff.mp normal
    have parts := Bool.and_eq_true_iff.mp first
    exact Bool.and_eq_true_iff.mpr ⟨Bool.and_eq_true_iff.mpr ⟨parts.1,
      type.requalify_normal names parts.2⟩, results_requalify_normal names rest later⟩

theorem Signature.requalify_normal (names : KeepsIdentifiers g) :
    ∀ s : Signature, s.isNormal = true → (s.requalify g).isNormal = true
  | ⟨params, results⟩, normal => by
    obtain ⟨front, plain⟩ := Bool.and_eq_true_iff.mp normal
    obtain ⟨front, sameResults⟩ := Bool.and_eq_true_iff.mp front
    obtain ⟨front, normalResults⟩ := Bool.and_eq_true_iff.mp front
    obtain ⟨normalParams, same⟩ := Bool.and_eq_true_iff.mp front
    refine Bool.and_eq_true_iff.mpr ⟨Bool.and_eq_true_iff.mpr ⟨Bool.and_eq_true_iff.mpr
      ⟨Bool.and_eq_true_iff.mpr ⟨params_requalify_normal names params normalParams, ?_⟩,
        results_requalify_normal names results normalResults⟩, ?_⟩, ?_⟩
    · rwa [sameNaming_requalify]
    · rwa [sameNaming_requalify]
    · rwa [plainResults_requalify]

theorem Element.requalify_normal (names : KeepsIdentifiers g) :
    ∀ e : Element, e.isNormal = true → (e.requalify g).isNormal = true
  | .method _ signature _, normal =>
    have parts := Bool.and_eq_true_iff.mp normal
    Bool.and_eq_true_iff.mpr ⟨parts.1, signature.requalify_normal names parts.2⟩
  | .embedded type, normal => by
    cases type with
    | union terms =>
      obtain ⟨all, set⟩ := Bool.and_eq_true_iff.mp normal
      refine Bool.and_eq_true_iff.mpr ⟨terms_requalify_normal names terms all, ?_⟩
      rwa [isTypeSet_requalify]
    | _ => exact TypeExpr.requalify_normal names _ normal

theorem elements_requalify_normal (names : KeepsIdentifiers g) :
    ∀ elements : List Element, elementsNormal elements = true →
      elementsNormal (requalifyElements g elements) = true
  | [], _ => rfl
  | e :: rest, normal =>
    have parts := Bool.and_eq_true_iff.mp normal
    Bool.and_eq_true_iff.mpr
      ⟨e.requalify_normal names parts.1, elements_requalify_normal names rest parts.2⟩

theorem members_requalify_normal (names : KeepsIdentifiers g) :
    ∀ members : List Member, membersNormal members = true →
      membersNormal (requalifyMembers g members) = true
  | [], _ => rfl
  | ⟨_, type, _⟩ :: rest, normal => by
    obtain ⟨first, later⟩ := Bool.and_eq_true_iff.mp normal
    obtain ⟨front, literal⟩ := Bool.and_eq_true_iff.mp first
    obtain ⟨front, fits⟩ := Bool.and_eq_true_iff.mp front
    obtain ⟨identifiers, normal⟩ := Bool.and_eq_true_iff.mp front
    refine Bool.and_eq_true_iff.mpr ⟨Bool.and_eq_true_iff.mpr ⟨Bool.and_eq_true_iff.mpr
      ⟨Bool.and_eq_true_iff.mpr ⟨identifiers, type.requalify_normal names normal⟩, ?_⟩, literal⟩,
        members_requalify_normal names rest later⟩
    rwa [isEmbeddable_requalify]

theorem terms_requalify_normal (names : KeepsIdentifiers g) :
    ∀ terms : List Term, termsNormal terms = true → termsNormal (requalifyTerms g terms) = true
  | [], _ => rfl
  | ⟨_, type⟩ :: rest, normal =>
    have parts := Bool.and_eq_true_iff.mp normal
    Bool.and_eq_true_iff.mpr
      ⟨type.requalify_normal names parts.1, terms_requalify_normal names rest parts.2⟩

end

end

end GoSpy
