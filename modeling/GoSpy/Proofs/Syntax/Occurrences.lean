import GoSpy.Proofs.Syntax.WellFormed
/- The types that occur in a type at any depth, each in the role that it has where it stands, with
   the lists and the names right in it. What a well-formed type has inside is well-formed in its
   role, and from that each form has what it must have wherever it occurs. -/
namespace GoSpy

/-- What a type stands for: itself, the type of a list entry, an element of an interface, or a
    field that a struct embeds. -/
inductive Role where
  | plain
  | entry (constrained : Bool)
  | element
  | embedded
deriving DecidableEq, Repr

/- The types right inside -/

def Field.part (constrained : Bool) (f : Field) : Role × TypeExpr := (.entry constrained, f.type)

def Signature.lists (s : Signature) : List (List Field) := [s.params, s.results]

def Signature.parts (s : Signature) : List (Role × TypeExpr) :=
  s.lists.flatten.map (Field.part false)

def Element.lists : Element → List (List Field)
  | .method _ signature _ => signature.lists
  | .embedded _ => []

def Element.parts : Element → List (Role × TypeExpr)
  | .method _ signature _ => signature.parts
  | .embedded type => [(.element, type)]

def Member.part (m : Member) : Role × TypeExpr :=
  (if m.names.isEmpty then .embedded else .plain, m.type)

namespace TypeExpr

def parts : TypeExpr → List (Role × TypeExpr)
  | name _ | qualified .. => []
  | generic base args => (.plain, base) :: args.map (Role.plain, ·)
  | pointer inner | slice inner | array _ inner | chan _ inner => [(.plain, inner)]
  | variadic inner | paren inner => [(.plain, inner)]
  | map key value => [(.plain, key), (.plain, value)]
  | func signature => signature.parts
  | interface elements => elements.flatMap Element.parts
  | struct members => members.map Member.part
  | union terms => terms.map fun x => (.plain, x.type)

def lists : TypeExpr → List (List Field)
  | func signature => signature.lists
  | interface elements => elements.flatMap Element.lists
  | _ => []

def ownNames : TypeExpr → List String
  | .name own => [own]
  | qualified package own => [package, own]
  | interface elements => Grammar.methodNames elements
  | struct members => members.flatMap Member.names
  | _ => []

/-- What a role asks of a type, all that is inside it included. -/
def fits : Role → TypeExpr → Bool
  | .plain, t => t.isWellFormed
  | .entry constrained, t => t.isWellFormedEntry constrained
  | .element, t => t.isWellFormedConstraint
  | .embedded, t => t.isWellFormed && t.isEmbeddable

end TypeExpr

/- Roles from the inside -/

structure FitList (constrained : Bool) (fields : List Field) : Prop where
  identifiers : ∀ f ∈ fields, f.names.all isIdentifier = true
  types : ∀ f ∈ fields, f.type.fits (.entry constrained) = true
  naming : sameNaming fields = true

theorem FitList.parts {constrained : Bool} {fields : List Field} (fit : FitList constrained fields) :
    ∀ p ∈ fields.map (Field.part constrained), p.2.fits p.1 = true := by
  intro p member
  obtain ⟨f, inFields, rfl⟩ := List.mem_map.mp member
  exact fit.types f inFields

theorem fitList_of_wellFormed {fields : List Field} (all : fieldsWellFormed fields = true)
    (naming : sameNaming fields = true) : FitList false fields := by
  have each : ∀ f ∈ fields,
      f.names.all isIdentifier = true ∧ f.type.isWellFormedEntry false = true := by
    intro f member
    have own := fieldsWellFormed_iff.mp all f member
    rw [Field.isWellFormed_eq] at own
    exact Bool.and_eq_true_iff.mp own
  exact ⟨fun f member => (each f member).1, fun f member => (each f member).2, naming⟩

theorem Signature.fit_lists {s : Signature} (wellFormed : s.isWellFormed = true) :
    ∀ fields ∈ s.lists, FitList false fields := by
  obtain ⟨params, results⟩ := s
  simp only [Signature.isWellFormed, Bool.and_eq_true] at wellFormed
  obtain ⟨⟨⟨goodParams, paramNaming⟩, goodResults⟩, resultNaming⟩ := wellFormed
  intro fields member
  simp only [lists, List.mem_cons, List.not_mem_nil, or_false] at member
  rcases member with rfl | rfl
  · exact fitList_of_wellFormed goodParams paramNaming
  · exact fitList_of_wellFormed goodResults resultNaming

theorem Signature.fit_parts {s : Signature} (wellFormed : s.isWellFormed = true) :
    ∀ p ∈ s.parts, p.2.fits p.1 = true := by
  intro p member
  obtain ⟨f, inLists, rfl⟩ := List.mem_map.mp member
  obtain ⟨fields, isList, inFields⟩ := List.mem_flatten.mp inLists
  exact (fit_lists wellFormed fields isList).types f inFields

namespace Element

theorem fit_lists {e : Element} (wellFormed : e.isWellFormed = true) :
    ∀ fields ∈ e.lists, FitList false fields := by
  cases e with
  | method name signature line =>
    exact Signature.fit_lists (Bool.and_eq_true_iff.mp wellFormed).2
  | embedded type =>
    intro fields member
    cases member

theorem fit_parts {e : Element} (wellFormed : e.isWellFormed = true) :
    ∀ p ∈ e.parts, p.2.fits p.1 = true := by
  cases e with
  | method name signature line =>
    exact Signature.fit_parts (Bool.and_eq_true_iff.mp wellFormed).2
  | embedded type =>
    intro p member
    obtain rfl := List.mem_singleton.mp member
    cases type <;> exact wellFormed

end Element

theorem Member.fit_part {m : Member} (wellFormed : m.isWellFormed = true) :
    m.part.2.fits m.part.1 = true := by
  obtain ⟨names, type, tag⟩ := m
  simp only [Member.isWellFormed, Bool.and_eq_true] at wellFormed
  obtain ⟨⟨⟨_, good⟩, embeds⟩, _⟩ := wellFormed
  cases names with
  | nil =>
    have embeddable : type.isEmbeddable = true := by simpa using embeds
    exact Bool.and_eq_true_iff.mpr ⟨good, embeddable⟩
  | cons => exact good

namespace TypeExpr

theorem parts_of_wellFormed {t : TypeExpr} (wellFormed : t.isWellFormed = true) :
    ∀ p ∈ t.parts, p.2.fits p.1 = true := by
  cases t with
  | name | qualified => simp [parts]
  | generic base args =>
    simp only [isWellFormed, Bool.and_eq_true] at wellFormed
    obtain ⟨⟨⟨_, good⟩, _⟩, all⟩ := wellFormed
    intro p member
    rcases List.mem_cons.mp member with rfl | inArgs
    · exact good
    · obtain ⟨arg, isArg, rfl⟩ := List.mem_map.mp inArgs
      exact typesWellFormed_iff.mp all arg isArg
  | pointer inner | slice inner | paren inner =>
    intro p member
    obtain rfl := List.mem_singleton.mp member
    exact wellFormed
  | array length element | chan direction element =>
    simpa [parts, fits] using (Bool.and_eq_true_iff.mp wellFormed).2
  | map key value =>
    simpa [parts, fits] using Bool.and_eq_true_iff.mp wellFormed
  | func signature => exact Signature.fit_parts wellFormed
  | interface elements =>
    intro p member
    obtain ⟨e, inElements, inside⟩ := List.mem_flatMap.mp member
    have all := elementsWellFormed_iff.mp (Bool.and_eq_true_iff.mp wellFormed).1
    exact Element.fit_parts (all e inElements) p inside
  | struct members =>
    intro p member
    obtain ⟨m, inMembers, rfl⟩ := List.mem_map.mp member
    exact Member.fit_part (membersWellFormed_iff.mp wellFormed m inMembers)
  | variadic | union => cases wellFormed

theorem fits_cases {role : Role} {t : TypeExpr} (fit : t.fits role = true) :
    t.isWellFormed = true ∨
    (∃ terms, t = union terms ∧ termsWellFormed terms = true ∧ isTypeSet terms = true ∧
      (role = .element ∨ role = .entry true)) ∨
    ∃ inner constrained, t = variadic inner ∧ inner.isWellFormed = true ∧
      role = .entry constrained := by
  cases role with
  | plain => exact Or.inl fit
  | embedded => exact Or.inl (Bool.and_eq_true_iff.mp fit).1
  | element =>
    cases t with
    | union terms =>
      obtain ⟨all, set⟩ := Bool.and_eq_true_iff.mp fit
      exact Or.inr (Or.inl ⟨terms, rfl, all, set, Or.inl rfl⟩)
    | _ => exact Or.inl fit
  | entry constrained =>
    cases t with
    | variadic inner => exact Or.inr (Or.inr ⟨inner, constrained, rfl, fit, rfl⟩)
    | union terms =>
      cases constrained with
      | false => cases fit
      | true =>
        obtain ⟨all, set⟩ := Bool.and_eq_true_iff.mp fit
        exact Or.inr (Or.inl ⟨terms, rfl, all, set, Or.inr rfl⟩)
    | _ => cases constrained <;> exact Or.inl fit

theorem fits_parts {role : Role} {t : TypeExpr} (fit : t.fits role = true) :
    ∀ p ∈ t.parts, p.2.fits p.1 = true := by
  rcases fits_cases fit with wellFormed | ⟨terms, rfl, all, _⟩ | ⟨inner, _, rfl, good, _⟩
  · exact parts_of_wellFormed wellFormed
  · intro p member
    obtain ⟨⟨tilde, type⟩, inTerms, rfl⟩ := List.mem_map.mp member
    exact termsWellFormed_iff.mp all _ inTerms
  · intro p member
    obtain rfl := List.mem_singleton.mp member
    exact good

/- What each form has where it fits -/

theorem fits_lists {role : Role} {t : TypeExpr} (fit : t.fits role = true) :
    ∀ fields ∈ t.lists, FitList false fields := by
  rcases fits_cases fit with wellFormed | ⟨terms, rfl, _⟩ | ⟨inner, _, rfl, _⟩
  · cases t with
    | func signature => exact Signature.fit_lists wellFormed
    | interface elements =>
      intro fields member
      obtain ⟨e, inElements, inside⟩ := List.mem_flatMap.mp member
      have all := elementsWellFormed_iff.mp (Bool.and_eq_true_iff.mp wellFormed).1
      exact Element.fit_lists (all e inElements) fields inside
    | _ =>
      intro fields member
      cases member
  · intro fields member
    cases member
  · intro fields member
    cases member

theorem fits_names {role : Role} {t : TypeExpr} (fit : t.fits role = true) :
    ∀ n ∈ t.ownNames, isIdentifier n = true := by
  rcases fits_cases fit with wellFormed | ⟨terms, rfl, _⟩ | ⟨inner, _, rfl, _⟩
  · cases t with
    | name =>
      intro n member
      obtain rfl := List.mem_singleton.mp member
      exact wellFormed
    | qualified => simpa [ownNames] using Bool.and_eq_true_iff.mp wellFormed
    | interface elements =>
      intro n member
      obtain ⟨e, inElements, named⟩ := List.mem_filterMap.mp member
      have own := elementsWellFormed_iff.mp (Bool.and_eq_true_iff.mp wellFormed).1 e inElements
      cases e with
      | method =>
        obtain rfl := Option.some.inj named
        exact (Bool.and_eq_true_iff.mp own).1
      | embedded => cases named
    | struct members =>
      intro n member
      obtain ⟨⟨names, type, tag⟩, inMembers, inNames⟩ := List.mem_flatMap.mp member
      have own := membersWellFormed_iff.mp wellFormed _ inMembers
      simp only [Member.isWellFormed, Bool.and_eq_true] at own
      exact List.all_eq_true.mp own.1.1.1 n inNames
    | _ =>
      intro n member
      cases member
  · intro n member
    cases member
  · intro n member
    cases member

theorem fits_interface {role : Role} {elements : List Element}
    (fit : (interface elements).fits role = true) : (Grammar.methodNames elements).Nodup := by
  rcases fits_cases fit with wellFormed | ⟨_, same, _⟩ | ⟨_, _, same, _⟩
  · exact of_decide_eq_true (Bool.and_eq_true_iff.mp wellFormed).2
  · cases same
  · cases same

theorem fits_generic {role : Role} {base : TypeExpr} {args : List TypeExpr}
    (fit : (generic base args).fits role = true) : base.isNamed = true ∧ args ≠ [] := by
  rcases fits_cases fit with wellFormed | ⟨_, same, _⟩ | ⟨_, _, same, _⟩
  · simp only [isWellFormed, Bool.and_eq_true] at wellFormed
    exact ⟨wellFormed.1.1.1, by simpa using wellFormed.1.2⟩
  · cases same
  · cases same

theorem fits_union {role : Role} {terms : List Term} (fit : (union terms).fits role = true) :
    (2 ≤ terms.length ∨ ∃ type, terms = [⟨true, type⟩]) ∧
      (∀ x ∈ terms, ∀ others, x.type ≠ union others) ∧
        (role = .element ∨ role = .entry true) := by
  rcases fits_cases fit with wellFormed | ⟨_, same, all, set, stands⟩ | ⟨_, _, same, _⟩
  · cases wellFormed
  · obtain rfl := union.inj same
    refine ⟨?_, ?_, stands⟩
    · match terms, set with
      | [⟨_, type⟩], tilde =>
        obtain rfl := tilde
        exact Or.inr ⟨type, rfl⟩
      | _ :: _ :: _, _ => exact Or.inl (by simp)
    · intro x inTerms others isUnion
      obtain ⟨tilde, type⟩ := x
      have good : type.isWellFormed = true := termsWellFormed_iff.mp all _ inTerms
      obtain rfl : type = union others := isUnion
      cases good
  · cases same

theorem fits_variadic {role : Role} {inner : TypeExpr}
    (fit : (variadic inner).fits role = true) : ∃ constrained, role = .entry constrained := by
  rcases fits_cases fit with wellFormed | ⟨_, same, _⟩ | ⟨_, constrained, _, _, stands⟩
  · cases wellFormed
  · cases same
  · exact ⟨constrained, stands⟩

theorem fits_chan {role : Role} {element : TypeExpr}
    (fit : (chan .both element).fits role = true) : ∀ inner, element ≠ chan .receive inner := by
  rcases fits_cases fit with wellFormed | ⟨_, same, _⟩ | ⟨_, _, same, _⟩
  · intro inner isReceive
    subst isReceive
    cases wellFormed
  · cases same
  · cases same

theorem fits_array {role : Role} {length : String} {element : TypeExpr}
    (fit : (array length element).fits role = true) : length ≠ "" := by
  rcases fits_cases fit with wellFormed | ⟨_, same, _⟩ | ⟨_, _, same, _⟩
  · simpa using (Bool.and_eq_true_iff.mp wellFormed).1
  · cases same
  · cases same

end TypeExpr

end GoSpy
