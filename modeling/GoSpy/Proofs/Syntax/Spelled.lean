import GoSpy.Proofs.Syntax.SpelledForms
/- Every type in normal form is spelled as a run of tokens that it is written with. The types
   inside one another are gone through along with the definition of the normal form. -/
namespace GoSpy

open Scan

theorem opensFree_normal {t : TypeExpr} (normal : t.isNormal = true) : t.opensFree = true := by
  cases t with
  | name => exact normal
  | qualified => exact (Bool.and_eq_true_iff.mp normal).1
  | generic base args =>
    have parts := Bool.and_eq_true_iff.mp (Bool.and_eq_true_iff.mp normal).1
    obtain ⟨named, normal⟩ := Bool.and_eq_true_iff.mp parts.1
    cases base with
    | name => exact normal
    | qualified => exact (Bool.and_eq_true_iff.mp normal).1
    | _ => cases named
  | variadic | union => cases normal
  | _ => rfl

namespace TypeExpr.Spelled

theorem name {name : String} (identifier : isIdentifier name = true) :
    Spelled TypeExpr.Written (.name name) := by
  obtain ⟨word, free⟩ := (isIdentifier_iff name).mp identifier
  exact ⟨[.word name], .name free, .word word free⟩

theorem qualified {package name : String} (packageIdentifier : isIdentifier package = true)
    (identifier : isIdentifier name = true) :
    Spelled TypeExpr.Written (.qualified package name) :=
  ⟨_, .qualified ((isIdentifier_iff package).mp packageIdentifier).2
    ((isIdentifier_iff name).mp identifier).2, .qualified packageIdentifier identifier⟩

theorem generic {base : TypeExpr} {args : List TypeExpr} (named : base.isNamed = true)
    (baseSpelled : Spelled TypeExpr.Written base) (nonempty : args ≠ [])
    (each : ∀ arg ∈ args, Spelled TypeExpr.Written arg) :
    Spelled TypeExpr.Written (.generic base args) := by
  obtain ⟨front, written, spells⟩ := baseSpelled
  obtain ⟨runs, all, spell⟩ := exists_runs each
  exact ⟨_, .generic named written nonempty all, .generic spells spell⟩

theorem array {length : String} {element : TypeExpr} (fits : isArrayLength length = true)
    (spelled : Spelled TypeExpr.Written element) :
    Spelled TypeExpr.Written (.array length element) := by
  obtain ⟨front, sized, flows⟩ := arrayLength_flows fits
  obtain ⟨tokens, written, spells⟩ := spelled
  exact ⟨_, .array sized written, .array spells flows⟩

theorem map {key value : TypeExpr} (keySpelled : Spelled TypeExpr.Written key)
    (spelled : Spelled TypeExpr.Written value) : Spelled TypeExpr.Written (.map key value) := by
  obtain ⟨front, keyWritten, keySpells⟩ := keySpelled
  obtain ⟨tokens, written, spells⟩ := spelled
  exact ⟨_, .map keyWritten written, .map spells keySpells⟩

theorem param {t : TypeExpr} (spelled : Spelled TypeExpr.Written t) :
    Spelled TypeExpr.WrittenParam t := by
  obtain ⟨tokens, written, spells⟩ := spelled
  exact ⟨tokens, .plain written, spells⟩

theorem constraint {t : TypeExpr} (spelled : Spelled TypeExpr.Written t) :
    Spelled TypeExpr.WrittenConstraint t := by
  obtain ⟨tokens, written, spells⟩ := spelled
  exact ⟨tokens, .plain written, spells⟩

end TypeExpr.Spelled

/- Type sets -/

def Term.Spelled (x : Term) : Prop :=
  ∃ tokens, Term.Written x tokens ∧ Spells x.spelling tokens

theorem Term.Spelled.mk (tilde : Bool) {t : TypeExpr}
    (spelled : t.Spelled TypeExpr.Written) : Term.Spelled ⟨tilde, t⟩ := by
  obtain ⟨tokens, written, spells⟩ := spelled
  cases tilde with
  | false => exact ⟨tokens, .plain written, spells.plainTerm⟩
  | true => exact ⟨_, .tilde written, spells.tildeTerm⟩

theorem TypeExpr.Spelled.union {terms : List Term} (set : isTypeSet terms = true)
    (each : ∀ x ∈ terms, x.Spelled) :
    Spelled TypeExpr.WrittenConstraint (.union terms) := by
  obtain ⟨runs, all, spell⟩ := exists_runs each
  have some : terms ≠ [] := by
    rintro rfl
    cases set
  exact ⟨_, .union set all, .union some spell⟩

/- Signatures -/

def Signature.Spelled (s : Signature) : Prop :=
  ∃ tokens, Signature.Written s tokens ∧ Spells s.spelling tokens

def Field.SpelledParam (f : Field) : Prop :=
  f.names.all isIdentifier = true ∧ f.type.Spelled TypeExpr.WrittenParam

theorem params_spelled {fields : List Field} (same : sameNaming fields = true)
    (each : ∀ f ∈ fields, f.SpelledParam) :
    ∃ tokens, WrittenParams fields tokens ∧ ∀ owed rest,
      Flows owed ("(" ++ listSpelling fields ++ ")").toList tokens true rest := by
  obtain ⟨runs, all, flows⟩ := fields_spelled (fun _ free => .plain (.name free)) each
  exact ⟨_, .mk (fieldsOf_ungroupedAll same) all,
    fun owed rest => flows .openParen .closeParen rfl rfl owed rest⟩

theorem Signature.Spelled.mk {params results : List Field} (same : sameNaming params = true)
    (sameResults : sameNaming results = true) (plain : plainResults results = true)
    (each : ∀ f ∈ params, f.SpelledParam)
    (eachResult : ∀ f ∈ results,
      f.names.all isIdentifier = true ∧ f.type.Spelled TypeExpr.Written) :
    Signature.Spelled ⟨params, results⟩ := by
  obtain ⟨front, written, flows⟩ := params_spelled same each
  by_cases none : results = []
  · subst none
    exact ⟨front, .none written, fun owed rest _ => flows owed rest⟩
  by_cases single : ∃ t, results = [⟨[], t⟩]
  · obtain ⟨t, rfl⟩ := single
    obtain ⟨tokens, resultWritten, spells⟩ := (eachResult _ List.mem_cons_self).2
    refine ⟨_, .single written (by simpa [plainResults] using plain) resultWritten, ?_⟩
    intro owed rest boundary
    rw [Signature.spelling_single]
    exact (flows owed _).append_text (.space_text (spells true rest boundary))
  · have eachParam : ∀ f ∈ results, f.SpelledParam := fun f member =>
      ⟨(eachResult f member).1, (eachResult f member).2.param⟩
    obtain ⟨tokens, resultsWritten, flows'⟩ := params_spelled sameResults eachParam
    refine ⟨_, .several written resultsWritten, fun owed rest _ => ?_⟩
    rw [Signature.spelling_several params none fun t same => single ⟨t, same⟩]
    exact (flows owed _).append_text (.space_text (flows' true rest))

/- Interfaces and structs -/

def Element.Spelled (e : Element) : Prop :=
  ∃ tokens, Element.Written e tokens ∧ Spells e.spelling tokens

theorem Element.Spelled.method {name : String} {s : Signature} (line : Nat)
    (identifier : isIdentifier name = true) (spelled : s.Spelled) :
    Element.Spelled (.method name s line) := by
  obtain ⟨tokens, written, spells⟩ := spelled
  exact ⟨_, .method ((isIdentifier_iff name).mp identifier).2 written,
    .method line identifier spells⟩

theorem Element.Spelled.embedded {t : TypeExpr}
    (spelled : t.Spelled TypeExpr.WrittenConstraint) : Element.Spelled (.embedded t) := by
  obtain ⟨tokens, written, spells⟩ := spelled
  exact ⟨tokens, .embedded written, spells⟩

def Member.Spelled (m : Member) : Prop :=
  ∃ tokens, Member.Written m tokens ∧ Spells m.spelling tokens

theorem Member.Written.of_parts {names : List String} {t : TypeExpr} (tag : Option String)
    {tokens : List Token} (identifiers : names.all isIdentifier = true)
    (fits : (!names.isEmpty || t.isEmbeddable) = true) (written : TypeExpr.Written t tokens) :
    Member.Written ⟨names, t, tag⟩
      (parted .comma (names.map fun name => [.word name]) ++ tokens
        ++ (tag.map Token.string).toList) := by
  by_cases none : names = []
  · subst none
    exact .embedded (by simpa using fits) written
  · refine .named none (fun name member => ?_) written
    exact ((isIdentifier_iff name).mp (List.all_eq_true.mp identifiers name member)).2

theorem Member.Spelled.mk {names : List String} {t : TypeExpr} {tag : Option String}
    (identifiers : names.all isIdentifier = true) (spelled : t.Spelled TypeExpr.Written)
    (fits : (!names.isEmpty || t.isEmbeddable) = true) (literal : tag.all isStringLiteral = true) :
    Member.Spelled ⟨names, t, tag⟩ := by
  obtain ⟨tokens, written, spells⟩ := spelled
  exact ⟨_, .of_parts tag identifiers fits written, .member identifiers spells literal⟩

theorem lines_block (runs : List (List Token)) : Lines runs (parted .semicolon runs) := by
  cases runs with
  | nil => exact .none
  | cons => exact lines_parted (by simp)

theorem TypeExpr.Spelled.interface {elements : List Element}
    (distinct : (Grammar.methodNames elements).Nodup) (each : ∀ e ∈ elements, e.Spelled) :
    Spelled TypeExpr.Written (.interface elements) := by
  obtain ⟨runs, all, spell⟩ := exists_runs each
  exact ⟨_, .interface distinct all (lines_block runs), .interface spell⟩

theorem TypeExpr.Spelled.struct {members : List Member} (each : ∀ m ∈ members, m.Spelled) :
    Spelled TypeExpr.Written (.struct members) := by
  obtain ⟨runs, all, spell⟩ := exists_runs each
  exact ⟨_, .struct all (lines_block runs), .struct spell⟩

/- All forms -/

mutual

theorem TypeExpr.spelled : ∀ t : TypeExpr, t.isNormal = true → t.Spelled TypeExpr.Written
  | .name _, normal => .name normal
  | .qualified .., normal =>
    have identifiers := Bool.and_eq_true_iff.mp normal
    .qualified identifiers.1 identifiers.2
  | .generic base args, normal => by
    obtain ⟨front, all⟩ := Bool.and_eq_true_iff.mp normal
    obtain ⟨front, some⟩ := Bool.and_eq_true_iff.mp front
    obtain ⟨named, normal⟩ := Bool.and_eq_true_iff.mp front
    exact .generic named (base.spelled normal) (by simpa using some) (types_spelled args all)
  | .pointer target, normal => by
    obtain ⟨tokens, written, spells⟩ := target.spelled normal
    exact ⟨_, .pointer written, .pointer spells (afterStar (opensFree_normal normal))⟩
  | .slice element, normal => by
    obtain ⟨tokens, written, spells⟩ := element.spelled normal
    exact ⟨_, .slice written, .slice spells⟩
  | .array _ element, normal =>
    have parts := Bool.and_eq_true_iff.mp normal
    .array parts.1 (element.spelled parts.2)
  | .map key value, normal =>
    have parts := Bool.and_eq_true_iff.mp normal
    .map (key.spelled parts.1) (value.spelled parts.2)
  | .chan direction element, normal => by
    obtain ⟨apart, normal⟩ := Bool.and_eq_true_iff.mp normal
    obtain ⟨tokens, written, spells⟩ := element.spelled normal
    refine ⟨_, .chan ?_ written, .chan spells direction⟩
    rintro rfl
    simpa using apart
  | .func signature, normal => by
    obtain ⟨tokens, written, spells⟩ := signature.spelled normal
    exact ⟨_, .func written, .func spells⟩
  | .interface elements, normal =>
    have parts := Bool.and_eq_true_iff.mp normal
    .interface (of_decide_eq_true parts.2) (elements_spelled elements parts.1)
  | .struct members, normal => .struct (members_spelled members normal)
  | .paren inner, normal => by
    obtain ⟨tokens, written, spells⟩ := inner.spelled normal
    exact ⟨_, .paren written, .paren spells⟩
  | .variadic _, normal => by cases normal
  | .union _, normal => by cases normal

theorem types_spelled : ∀ types : List TypeExpr, typesNormal types = true →
    ∀ t ∈ types, t.Spelled TypeExpr.Written
  | [], _ => by simp
  | t :: rest, normal =>
    have parts := Bool.and_eq_true_iff.mp normal
    List.forall_mem_cons.mpr ⟨t.spelled parts.1, types_spelled rest parts.2⟩

theorem Field.spelledParam : ∀ f : Field, f.isNormalParam = true → f.SpelledParam
  | ⟨names, type⟩, normal => by
    cases type with
    | variadic element =>
      have parts := Bool.and_eq_true_iff.mp normal
      obtain ⟨tokens, written, spells⟩ := element.spelled parts.2
      exact ⟨parts.1, _, .variadic written, .variadic spells⟩
    | _ =>
      have parts := Bool.and_eq_true_iff.mp normal
      exact ⟨parts.1, (TypeExpr.spelled _ parts.2).param⟩

theorem fields_spelledParam : ∀ fields : List Field, paramsNormal fields = true →
    ∀ f ∈ fields, f.SpelledParam
  | [], _ => by simp
  | f :: rest, normal =>
    have parts := Bool.and_eq_true_iff.mp normal
    List.forall_mem_cons.mpr ⟨f.spelledParam parts.1, fields_spelledParam rest parts.2⟩

theorem Field.spelledResult : ∀ f : Field, f.isNormalResult = true →
    f.names.all isIdentifier = true ∧ f.type.Spelled TypeExpr.Written
  | ⟨_, type⟩, normal =>
    have parts := Bool.and_eq_true_iff.mp normal
    ⟨parts.1, type.spelled parts.2⟩

theorem fields_spelledResult : ∀ fields : List Field, resultsNormal fields = true →
    ∀ f ∈ fields, f.names.all isIdentifier = true ∧ f.type.Spelled TypeExpr.Written
  | [], _ => by simp
  | f :: rest, normal =>
    have parts := Bool.and_eq_true_iff.mp normal
    List.forall_mem_cons.mpr ⟨f.spelledResult parts.1, fields_spelledResult rest parts.2⟩

theorem Signature.spelled : ∀ s : Signature, s.isNormal = true → s.Spelled
  | ⟨params, results⟩, normal => by
    obtain ⟨front, plain⟩ := Bool.and_eq_true_iff.mp normal
    obtain ⟨front, sameResults⟩ := Bool.and_eq_true_iff.mp front
    obtain ⟨front, normalResults⟩ := Bool.and_eq_true_iff.mp front
    obtain ⟨normalParams, same⟩ := Bool.and_eq_true_iff.mp front
    exact .mk same sameResults plain (fields_spelledParam params normalParams)
      (fields_spelledResult results normalResults)

theorem Element.spelled : ∀ e : Element, e.isNormal = true → e.Spelled
  | .method name signature line, normal =>
    have parts := Bool.and_eq_true_iff.mp normal
    .method line parts.1 (signature.spelled parts.2)
  | .embedded type, normal => by
    cases type with
    | union terms =>
      have parts := Bool.and_eq_true_iff.mp normal
      exact .embedded (.union parts.2 (terms_spelled terms parts.1))
    | _ =>
      exact .embedded (TypeExpr.spelled _ normal).constraint

theorem elements_spelled : ∀ elements : List Element, elementsNormal elements = true →
    ∀ e ∈ elements, e.Spelled
  | [], _ => by simp
  | e :: rest, normal =>
    have parts := Bool.and_eq_true_iff.mp normal
    List.forall_mem_cons.mpr ⟨e.spelled parts.1, elements_spelled rest parts.2⟩

theorem Member.spelled : ∀ m : Member, m.isNormal = true → m.Spelled
  | ⟨names, type, tag⟩, normal => by
    obtain ⟨front, literal⟩ := Bool.and_eq_true_iff.mp normal
    obtain ⟨front, fits⟩ := Bool.and_eq_true_iff.mp front
    obtain ⟨identifiers, normal⟩ := Bool.and_eq_true_iff.mp front
    exact .mk identifiers (type.spelled normal) fits literal

theorem members_spelled : ∀ members : List Member, membersNormal members = true →
    ∀ m ∈ members, m.Spelled
  | [], _ => by simp
  | m :: rest, normal =>
    have parts := Bool.and_eq_true_iff.mp normal
    List.forall_mem_cons.mpr ⟨m.spelled parts.1, members_spelled rest parts.2⟩

theorem Term.spelled : ∀ x : Term, x.isNormal = true → x.Spelled
  | ⟨tilde, type⟩, normal => .mk tilde (type.spelled normal)

theorem terms_spelled : ∀ terms : List Term, termsNormal terms = true →
    ∀ x ∈ terms, x.Spelled
  | [], _ => by simp
  | x :: rest, normal =>
    have parts := Bool.and_eq_true_iff.mp normal
    List.forall_mem_cons.mpr ⟨x.spelled parts.1, terms_spelled rest parts.2⟩

end

end GoSpy
