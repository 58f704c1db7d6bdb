import GoSpy.Proofs.Syntax.Requalification
import GoSpy.Proofs.Syntax.Texts
/- The packages that a type mentions, in the order of its text: those that qualify names, and
   those that an array length has among its tokens. Only the former are qualifiers of the type;
   the lengths are text that neither the listing nor the renaming of qualifiers looks into. -/
namespace GoSpy

/- Names in front of a dot -/

def Token.name? : Token → Option String
  | .word w => if isKeyword w then none else some w
  | _ => none

def dotted : List Token → List String
  | [] => []
  | t :: rest => (if rest.head? = some .dot then t.name?.toList else []) ++ dotted rest

theorem dotted_append {front back : List Token} (noDot : back.head? ≠ some .dot) :
    dotted (front ++ back) = dotted front ++ dotted back := by
  induction front with
  | nil => rfl
  | cons t front ih =>
    rw [List.cons_append, dotted, dotted, ih, List.append_assoc]
    cases front with
    | nil => simp [noDot]
    | cons => rfl

def Token.parts (t : Token) : Bool := t != .dot && t.name?.isNone

theorem dotted_cons {t : Token} (nameless : t.name? = none) (rest : List Token) :
    dotted (t :: rest) = dotted rest := by
  simp [dotted, nameless]

theorem dotted_between {t : Token} (parts : t.parts = true) (front back : List Token) :
    dotted (front ++ t :: back) = dotted front ++ dotted back := by
  obtain ⟨noDot, nameless⟩ := Bool.and_eq_true_iff.mp parts
  rw [dotted_append (by simpa using noDot), dotted_cons (by simpa using nameless)]

theorem dotted_parted {mark : Token} (parts : mark.parts = true) (runs : List (List Token)) :
    dotted (parted mark runs) = runs.flatMap dotted := by
  induction runs with
  | nil => rfl
  | cons run runs ih =>
    by_cases last : runs = []
    · subst last
      simp [parted]
    · rw [parted_cons _ _ last, dotted_between parts, ih, List.flatMap_cons]

def dottedNames (text : String) : Except Fault (List String) :=
  (Lexemes.ofText text).map fun lexemes => dotted (Cursor.ofLexemes lexemes).tokens

/- Mentions -/

/-- What a type says of packages: a qualifier, or an array length as it is written. -/
inductive Reference where
  | package (name : String)
  | length (text : String)

structure Mention where
  name : String
  inLength : Bool
deriving DecidableEq

namespace Reference

def package? : Reference → Option String
  | package name => some name
  | length _ => none

def mentions : Reference → List Mention
  | package name => [⟨name, false⟩]
  | length text => (dotted ((lengthTokens? text).getD [])).map fun name => ⟨name, true⟩

def closes : Reference → Bool
  | package _ => true
  | length text => (lengthTokens? text).isSome

def rename (g : String → String) : Reference → Reference
  | package name => package (g name)
  | length text => length text

end Reference

/-- Only a qualifier is renamed. -/
def Mention.rename (g : String → String) (m : Mention) : Mention :=
  if m.inLength then m else ⟨g m.name, false⟩

theorem Reference.mentions_rename (g : String → String) (r : Reference) :
    (r.rename g).mentions = r.mentions.map (Mention.rename g) := by
  cases r <;> simp [Reference.rename, Reference.mentions, Mention.rename]

mutual

def TypeExpr.references : TypeExpr → List Reference
  | .name _ => []
  | .qualified package _ => [.package package]
  | .generic base args => base.references ++ typeReferences args
  | .pointer target => target.references
  | .slice element => element.references
  | .array length element => .length length :: element.references
  | .map key value => key.references ++ value.references
  | .chan _ element => element.references
  | .func signature => signature.references
  | .interface elements => elementReferences elements
  | .struct members => memberReferences members
  | .variadic element => element.references
  | .paren inner => inner.references
  | .union terms => termReferences terms

def typeReferences : List TypeExpr → List Reference
  | [] => []
  | type :: rest => type.references ++ typeReferences rest

def Field.references : Field → List Reference
  | ⟨_, type⟩ => type.references

def fieldReferences : List Field → List Reference
  | [] => []
  | field :: rest => field.references ++ fieldReferences rest

def Signature.references : Signature → List Reference
  | ⟨params, results⟩ => fieldReferences params ++ fieldReferences results

def Element.references : Element → List Reference
  | .method _ signature _ => signature.references
  | .embedded type => type.references

def elementReferences : List Element → List Reference
  | [] => []
  | element :: rest => element.references ++ elementReferences rest

def memberReferences : List Member → List Reference
  | [] => []
  | ⟨_, type, _⟩ :: rest => type.references ++ memberReferences rest

def termReferences : List Term → List Reference
  | [] => []
  | ⟨_, type⟩ :: rest => type.references ++ termReferences rest

end

def TypeExpr.mentions (t : TypeExpr) : List Mention := t.references.flatMap Reference.mentions

def TypeExpr.lengthsClose (t : TypeExpr) : Bool := t.references.all Reference.closes

/- Qualifiers are the mentions outside of array lengths -/

mutual

theorem TypeExpr.qualifiers_eq :
    ∀ t : TypeExpr, t.qualifiers = t.references.filterMap Reference.package?
  | .name _ => rfl
  | .qualified .. => rfl
  | .generic base args => by
    simp [TypeExpr.qualifiers, TypeExpr.references, TypeExpr.qualifiers_eq base,
      typeQualifiers_eq args]
  | .pointer t | .slice t | .array _ t | .chan _ t | .variadic t | .paren t => by
    simp [TypeExpr.qualifiers, TypeExpr.references, List.filterMap_cons, Reference.package?,
      TypeExpr.qualifiers_eq t]
  | .map key value => by
    simp [TypeExpr.qualifiers, TypeExpr.references, TypeExpr.qualifiers_eq key,
      TypeExpr.qualifiers_eq value]
  | .func s => Signature.qualifiers_eq s
  | .interface es => elementQualifiers_eq es
  | .struct ms => memberQualifiers_eq ms
  | .union ts => termQualifiers_eq ts

theorem typeQualifiers_eq : ∀ ts : List TypeExpr,
    typeQualifiers ts = (typeReferences ts).filterMap Reference.package?
  | [] => rfl
  | t :: rest => by
    simp [typeQualifiers, typeReferences, TypeExpr.qualifiers_eq t, typeQualifiers_eq rest]

theorem fieldQualifiers_eq : ∀ fs : List Field,
    fieldQualifiers fs = (fieldReferences fs).filterMap Reference.package?
  | [] => rfl
  | ⟨_, t⟩ :: rest => by
    simp [fieldQualifiers, Field.qualifiers, fieldReferences, Field.references,
      TypeExpr.qualifiers_eq t, fieldQualifiers_eq rest]

theorem Signature.qualifiers_eq : ∀ s : Signature,
    s.qualifiers = s.references.filterMap Reference.package?
  | ⟨params, results⟩ => by
    simp [Signature.qualifiers, Signature.references, fieldQualifiers_eq params,
      fieldQualifiers_eq results]

theorem elementQualifiers_eq : ∀ es : List Element,
    elementQualifiers es = (elementReferences es).filterMap Reference.package?
  | [] => rfl
  | .method _ s _ :: rest => by
    simp [elementQualifiers, Element.qualifiers, elementReferences, Element.references,
      Signature.qualifiers_eq s, elementQualifiers_eq rest]
  | .embedded t :: rest => by
    simp [elementQualifiers, Element.qualifiers, elementReferences, Element.references,
      TypeExpr.qualifiers_eq t, elementQualifiers_eq rest]

theorem memberQualifiers_eq : ∀ ms : List Member,
    memberQualifiers ms = (memberReferences ms).filterMap Reference.package?
  | [] => rfl
  | ⟨_, t, _⟩ :: rest => by
    simp [memberQualifiers, Member.qualifiers, memberReferences, TypeExpr.qualifiers_eq t,
      memberQualifiers_eq rest]

theorem termQualifiers_eq : ∀ ts : List Term,
    termQualifiers ts = (termReferences ts).filterMap Reference.package?
  | [] => rfl
  | ⟨_, t⟩ :: rest => by
    simp [termQualifiers, Term.qualifiers, termReferences, TypeExpr.qualifiers_eq t,
      termQualifiers_eq rest]

end

theorem TypeExpr.qualifiers_eq_mentions (t : TypeExpr) :
    t.qualifiers = (t.mentions.filter fun m => !m.inLength).map Mention.name := by
  have each (r : Reference) : r.package?.toList =
      (r.mentions.filter fun m => !m.inLength).map Mention.name := by
    cases r <;> simp [Reference.package?, Reference.mentions]
  rw [qualifiers_eq, mentions, List.filter_flatMap, List.map_flatMap,
    List.filterMap_eq_flatMap_toList]
  exact congrArg (List.flatMap · t.references) (funext each)

theorem TypeExpr.qualifiers_complete_iff (t : TypeExpr) :
    t.qualifiers = t.mentions.map Mention.name ↔ ∀ m ∈ t.mentions, m.inLength = false := by
  rw [qualifiers_eq_mentions]
  constructor
  · intro same m member
    have kept : (t.mentions.filter fun m => !m.inLength).length = t.mentions.length := by
      simpa using congrArg List.length same
    simpa using List.length_filter_eq_length_iff.mp kept m member
  · intro outside
    rw [List.filter_eq_self.mpr fun m member => by simp [outside m member]]

/- Renaming -/

section

variable (g : String → String)

mutual

theorem TypeExpr.references_requalify :
    ∀ t : TypeExpr, (t.requalify g).references = t.references.map (Reference.rename g)
  | .name _ => rfl
  | .qualified .. => rfl
  | .generic base args => by
    simp [TypeExpr.requalify, TypeExpr.references, TypeExpr.references_requalify base,
      typeReferences_requalify args]
  | .pointer t | .slice t | .array _ t | .chan _ t | .variadic t | .paren t => by
    simp [TypeExpr.requalify, TypeExpr.references, Reference.rename,
      TypeExpr.references_requalify t]
  | .map key value => by
    simp [TypeExpr.requalify, TypeExpr.references, TypeExpr.references_requalify key,
      TypeExpr.references_requalify value]
  | .func s => Signature.references_requalify s
  | .interface es => elementReferences_requalify es
  | .struct ms => memberReferences_requalify ms
  | .union ts => termReferences_requalify ts

theorem typeReferences_requalify : ∀ ts : List TypeExpr,
    typeReferences (requalifyTypes g ts) = (typeReferences ts).map (Reference.rename g)
  | [] => rfl
  | t :: rest => by
    simp [requalifyTypes, typeReferences, TypeExpr.references_requalify t,
      typeReferences_requalify rest]

theorem fieldReferences_requalify : ∀ fs : List Field,
    fieldReferences (requalifyFields g fs) = (fieldReferences fs).map (Reference.rename g)
  | [] => rfl
  | ⟨_, t⟩ :: rest => by
    simp [requalifyFields, Field.requalify, fieldReferences, Field.references,
      TypeExpr.references_requalify t, fieldReferences_requalify rest]

theorem Signature.references_requalify : ∀ s : Signature,
    (s.requalify g).references = s.references.map (Reference.rename g)
  | ⟨params, results⟩ => by
    simp [Signature.requalify, Signature.references, fieldReferences_requalify params,
      fieldReferences_requalify results]

theorem elementReferences_requalify : ∀ es : List Element,
    elementReferences (requalifyElements g es) = (elementReferences es).map (Reference.rename g)
  | [] => rfl
  | .method _ s _ :: rest => by
    simp [requalifyElements, Element.requalify, elementReferences, Element.references,
      Signature.references_requalify s, elementReferences_requalify rest]
  | .embedded t :: rest => by
    simp [requalifyElements, Element.requalify, elementReferences, Element.references,
      TypeExpr.references_requalify t, elementReferences_requalify rest]

theorem memberReferences_requalify : ∀ ms : List Member,
    memberReferences (requalifyMembers g ms) = (memberReferences ms).map (Reference.rename g)
  | [] => rfl
  | ⟨_, t, _⟩ :: rest => by
    simp [requalifyMembers, Member.requalify, memberReferences, TypeExpr.references_requalify t,
      memberReferences_requalify rest]

theorem termReferences_requalify : ∀ ts : List Term,
    termReferences (requalifyTerms g ts) = (termReferences ts).map (Reference.rename g)
  | [] => rfl
  | ⟨_, t⟩ :: rest => by
    simp [requalifyTerms, Term.requalify, termReferences, TypeExpr.references_requalify t,
      termReferences_requalify rest]

end

theorem TypeExpr.mentions_requalify (t : TypeExpr) :
    (t.requalify g).mentions = t.mentions.map (Mention.rename g) := by
  simp only [mentions, references_requalify, List.flatMap_map, List.map_flatMap,
    Reference.mentions_rename]

end

end GoSpy
