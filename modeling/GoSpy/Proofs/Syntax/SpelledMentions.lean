import GoSpy.Proofs.Syntax.Mentions
import GoSpy.Proofs.Syntax.NormalQualifiers
import GoSpy.Proofs.Syntax.SpelledForms
import GoSpy.Proofs.Syntax.WellFormed
/- The names that stand in front of a dot in the spelling of a type are its mentions of packages.
   The spelling need not be read back for that: a well-formed type whose array lengths stay
   within their brackets is cut into tokens form by form. -/
namespace GoSpy

open Scan

/-- The text stands for tokens among which just these names have a dot behind them. -/
def Dots (text : String) (names : List String) : Prop :=
  ∃ tokens, Spells text tokens ∧ dotted tokens = names ∧ tokens.head? ≠ some .dot

def ListDots (texts : List String) (names : List String) : Prop :=
  ∃ runs, List.Forall₂ Spells texts runs ∧ runs.flatMap dotted = names ∧
    ∀ run ∈ runs, run.head? ≠ some .dot

theorem ListDots.nil : ListDots [] [] := ⟨[], .nil, rfl, by simp⟩

theorem ListDots.cons {text : String} {texts names others : List String}
    (first : Dots text names) (later : ListDots texts others) :
    ListDots (text :: texts) (names ++ others) := by
  obtain ⟨tokens, spells, rfl, noDot⟩ := first
  obtain ⟨runs, all, rfl, noDots⟩ := later
  exact ⟨tokens :: runs, .cons spells all, rfl, List.forall_mem_cons.mpr ⟨noDot, noDots⟩⟩

/- Words in a row -/

theorem dotted_words (names : List String) :
    dotted (parted .comma (names.map fun name => [.word name])) = [] := by
  rw [dotted_parted rfl, List.flatMap_map]
  simp [dotted]

theorem head_words {names : List String} {tokens : List Token}
    (noDot : tokens.head? ≠ some .dot) :
    (parted .comma (names.map fun name => [.word name]) ++ tokens).head? ≠ some .dot := by
  match names with
  | [] => exact noDot
  | [_] => simp [parted]
  | _ :: _ :: _ => simp [parted]

/- Types -/

namespace Dots

theorem qualified {package name : String} (packageIdentifier : isIdentifier package = true)
    (identifier : isIdentifier name = true) :
    Dots (TypeExpr.qualified package name).spelling [package] := by
  refine ⟨_, .qualified packageIdentifier identifier, ?_, by simp⟩
  have free := ((isIdentifier_iff package).mp packageIdentifier).2
  simp [dotted, Token.name?, free]

theorem name {name : String} (identifier : isIdentifier name = true) :
    Dots (TypeExpr.name name).spelling [] := by
  obtain ⟨word, free⟩ := (isIdentifier_iff name).mp identifier
  exact ⟨_, .word word free, by simp [dotted], by simp⟩

variable {t u : TypeExpr} {names front : List String} (dots : Dots t.spelling names)

theorem generic (base : Dots u.spelling front) {args : List TypeExpr}
    (all : ListDots (args.map TypeExpr.spelling) names) :
    Dots (TypeExpr.generic u args).spelling (front ++ names) := by
  obtain ⟨tokens, spells, rfl, noDot⟩ := base
  obtain ⟨runs, spell, rfl, _⟩ := all
  refine ⟨_, .generic spells spell, ?_, ?_⟩
  · rw [dotted_between rfl, dotted_between rfl, dotted_parted rfl]
    simp [dotted]
  · cases tokens with
    | nil => simp
    | cons => exact noDot

include dots

theorem pointer (after : AfterStar t.spelling) : Dots (TypeExpr.pointer t).spelling names := by
  obtain ⟨tokens, spells, rfl, _⟩ := dots
  exact ⟨_, .pointer spells after, dotted_cons rfl _, by simp⟩

theorem slice : Dots (TypeExpr.slice t).spelling names := by
  obtain ⟨tokens, spells, rfl, _⟩ := dots
  exact ⟨_, .slice spells, by rw [dotted_cons rfl, dotted_cons rfl], by simp⟩

theorem array {length : String} {front : List Token} (cut : lengthTokens? length = some front) :
    Dots (TypeExpr.array length t).spelling (dotted front ++ names) := by
  obtain ⟨tokens, spells, rfl, _⟩ := dots
  refine ⟨_, .array spells (lengthTokens_flows cut), ?_, by simp⟩
  rw [dotted_cons rfl, dotted_between rfl]

theorem map (key : Dots u.spelling front) :
    Dots (TypeExpr.map u t).spelling (front ++ names) := by
  obtain ⟨tokens, spells, rfl, _⟩ := dots
  obtain ⟨keyTokens, keySpells, rfl, _⟩ := key
  refine ⟨_, .map spells keySpells, ?_, by simp⟩
  rw [dotted_cons rfl, dotted_cons rfl, dotted_between rfl]

theorem chan (direction : Direction) : Dots (TypeExpr.chan direction t).spelling names := by
  obtain ⟨tokens, spells, rfl, _⟩ := dots
  refine ⟨_, .chan spells direction, ?_, ?_⟩
  · cases direction <;> simp only [Direction.tokens, List.cons_append, List.nil_append] <;>
      rw [dotted_cons rfl] <;> first | rfl | exact dotted_cons rfl _
  · cases direction <;> simp [Direction.tokens]

theorem paren : Dots (TypeExpr.paren t).spelling names := by
  obtain ⟨tokens, spells, rfl, _⟩ := dots
  refine ⟨_, .paren spells, ?_, by simp⟩
  rw [dotted_cons rfl, dotted_between rfl]
  simp [dotted]

theorem variadic : Dots (TypeExpr.variadic t).spelling names := by
  obtain ⟨tokens, spells, rfl, _⟩ := dots
  exact ⟨_, .variadic spells, dotted_cons rfl _, by simp⟩

theorem term (tilde : Bool) : Dots (Term.spelling ⟨tilde, t⟩) names := by
  obtain ⟨tokens, spells, rfl, noDot⟩ := dots
  cases tilde with
  | false => exact ⟨tokens, spells.plainTerm, rfl, noDot⟩
  | true => exact ⟨_, spells.tildeTerm, dotted_cons rfl _, by simp⟩

theorem field {words : List String} (identifiers : words.all isIdentifier = true) :
    Dots (Field.spelling ⟨words, t⟩) names := by
  obtain ⟨tokens, spells, rfl, noDot⟩ := dots
  refine ⟨_, withNames_spells identifiers spells, ?_, head_words noDot⟩
  rw [dotted_append noDot, dotted_words, List.nil_append]

theorem member {words : List String} {tag : Option String}
    (identifiers : words.all isIdentifier = true) (literal : tag.all isStringLiteral = true) :
    Dots (Member.spelling ⟨words, t, tag⟩) names := by
  obtain ⟨tokens, spells, rfl, noDot⟩ := dots
  refine ⟨_, .member identifiers spells literal, ?_, ?_⟩
  · rw [dotted_append (by cases tag <;> simp), dotted_append noDot, dotted_words]
    cases tag <;> simp [dotted]
  · rw [List.append_assoc]
    refine head_words ?_
    cases tokens with
    | nil => cases tag <;> simp
    | cons => exact noDot

end Dots

/- Lists of them -/

theorem head_parted {mark : Token} (parts : mark.parts = true) {runs : List (List Token)}
    (noDots : ∀ run ∈ runs, run.head? ≠ some .dot) : (parted mark runs).head? ≠ some .dot := by
  match runs, noDots with
  | [], _ => simp [parted]
  | [run], noDots => exact noDots run (by simp)
  | [] :: _ :: _, _ => simpa [parted] using (Bool.and_eq_true_iff.mp parts).1
  | (t :: run) :: _ :: _, noDots => exact noDots (t :: run) (by simp)

theorem Dots.union {terms : List Term} {names : List String} (set : isTypeSet terms = true)
    (all : ListDots (terms.map Term.spelling) names) :
    Dots (TypeExpr.union terms).spelling names := by
  obtain ⟨runs, spell, rfl, noDots⟩ := all
  have some : terms ≠ [] := by
    rintro rfl
    cases set
  exact ⟨_, .union some spell, dotted_parted rfl runs, head_parted rfl noDots⟩

theorem parens_dots {fields : List Field} {names : List String}
    (all : ListDots (fields.map Field.spelling) names) :
    ∃ tokens, (∀ owed rest,
        Flows owed ("(" ++ listSpelling fields ++ ")").toList
          (.openParen :: (tokens ++ [.closeParen])) true rest) ∧
      dotted tokens = names := by
  obtain ⟨runs, spell, rfl, _⟩ := all
  refine ⟨parted .comma runs, fun owed rest => ?_, dotted_parted rfl runs⟩
  rw [listSpelling, fieldSpellings_eq_map]
  have opens : Token.openParen.standsAlone = true := rfl
  have closes : Token.closeParen.standsAlone = true := rfl
  exact .listed opens closes spell owed rest

theorem Dots.signature {params results : List Field} {front back : List String}
    (all : ListDots (params.map Field.spelling) front)
    (allResults : ListDots (results.map Field.spelling) back) :
    Dots (Signature.spelling ⟨params, results⟩) (front ++ back) := by
  obtain ⟨tokens, flows, rfl⟩ := parens_dots all
  by_cases none : results = []
  · subst none
    obtain ⟨runs, spell, rfl, _⟩ := allResults
    cases spell
    refine ⟨_, fun owed rest _ => flows owed rest, ?_, by simp⟩
    rw [dotted_cons rfl, dotted_between rfl]
    rfl
  by_cases single : ∃ t, results = [⟨[], t⟩]
  · obtain ⟨t, rfl⟩ := single
    obtain ⟨runs, spell, rfl, _⟩ := allResults
    obtain ⟨run, _, spells, nothing, rfl⟩ := List.forall₂_cons_left_iff.mp spell
    cases nothing
    refine ⟨.openParen :: (tokens ++ [.closeParen]) ++ run, fun owed rest boundary => ?_, ?_,
      by simp⟩
    · rw [Signature.spelling_single]
      exact (flows owed _).append_text (.space_text (spells true rest boundary))
    · rw [List.cons_append, List.append_assoc, dotted_cons rfl, List.cons_append,
        dotted_between rfl]
      simp
  · obtain ⟨others, flows', rfl⟩ := parens_dots allResults
    refine ⟨.openParen :: (tokens ++ [.closeParen]) ++ (.openParen :: (others ++ [.closeParen])),
      fun owed rest _ => ?_, ?_, by simp⟩
    · rw [Signature.spelling_several params none fun t same => single ⟨t, same⟩]
      exact (flows owed _).append_text (.space_text (flows' true rest))
    · rw [List.cons_append, List.append_assoc, dotted_cons rfl, List.cons_append,
        dotted_between rfl, List.nil_append, dotted_cons rfl, dotted_between rfl]
      simp [dotted]

theorem Dots.func {s : Signature} {names : List String} (dots : Dots s.spelling names) :
    Dots (TypeExpr.func s).spelling names := by
  obtain ⟨tokens, spells, rfl, _⟩ := dots
  exact ⟨_, .func spells, dotted_cons rfl _, by simp⟩

theorem Dots.method {name : String} {s : Signature} {names : List String} (line : Nat)
    (identifier : isIdentifier name = true) (dots : Dots s.spelling names) :
    Dots (Element.spelling (.method name s line)) names := by
  obtain ⟨tokens, spells, rfl, noDot⟩ := dots
  refine ⟨_, .method line identifier spells, ?_, by simp⟩
  simp [dotted, noDot]

theorem dotted_block {w : String} (keyword : isKeyword w = true) (runs : List (List Token)) :
    dotted (blockTokens w runs) = runs.flatMap dotted := by
  have nameless : (Token.word w).name? = none := by simp [Token.name?, keyword]
  rw [blockTokens, dotted_cons nameless, dotted_cons rfl, dotted_between rfl, dotted_parted rfl]
  simp [dotted]

theorem Dots.interface {elements : List Element} {names : List String}
    (all : ListDots (elements.map Element.spelling) names) :
    Dots (TypeExpr.interface elements).spelling names := by
  obtain ⟨runs, spell, rfl, _⟩ := all
  exact ⟨_, .interface spell, dotted_block rfl runs, by simp [blockTokens]⟩

theorem Dots.struct {members : List Member} {names : List String}
    (all : ListDots (members.map Member.spelling) names) :
    Dots (TypeExpr.struct members).spelling names := by
  obtain ⟨runs, spell, rfl, _⟩ := all
  exact ⟨_, .struct spell, dotted_block rfl runs, by simp [blockTokens]⟩

/- All forms -/

def spoken (references : List Reference) : List String :=
  (references.flatMap Reference.mentions).map Mention.name

theorem spoken_append (front back : List Reference) :
    spoken (front ++ back) = spoken front ++ spoken back := by
  simp [spoken]

theorem spoken_length {length : String} {tokens : List Token}
    (cut : lengthTokens? length = some tokens) (rest : List Reference) :
    spoken (.length length :: rest) = dotted tokens ++ spoken rest := by
  have own : ((Reference.length length).mentions).map Mention.name = dotted tokens := by
    simp [Reference.mentions, cut, Function.comp_def]
  rw [← own]
  simp [spoken]

section

variable {g : String → String}

theorem opensFree_wellFormed (keeps : KeepsIdentifiers g) {t : TypeExpr}
    (wellFormed : t.isWellFormed = true) : (t.requalify g).opensFree = true := by
  cases t with
  | name => exact wellFormed
  | qualified => exact keeps _ (Bool.and_eq_true_iff.mp wellFormed).1
  | generic base args =>
    have parts := Bool.and_eq_true_iff.mp (Bool.and_eq_true_iff.mp wellFormed).1
    obtain ⟨named, wellFormed⟩ := Bool.and_eq_true_iff.mp parts.1
    cases base with
    | name => exact wellFormed
    | qualified => exact keeps _ (Bool.and_eq_true_iff.mp wellFormed).1
    | _ => cases named
  | variadic | union => cases wellFormed
  | _ => rfl

/- The spelling of a type whose qualifiers are renamed is looked at; to rename them to
   themselves is one way of that. The cases are those of the definition of well-formed types. -/
mutual

theorem TypeExpr.dots (keeps : KeepsIdentifiers g) :
    ∀ t : TypeExpr, t.isWellFormed = true →
      t.references.all Reference.closes = true →
      Dots (t.requalify g).spelling (spoken (t.requalify g).references)
  | .name _, wellFormed, _ => .name wellFormed
  | .qualified .., wellFormed, _ =>
    have parts := Bool.and_eq_true_iff.mp wellFormed
    .qualified (keeps _ parts.1) parts.2
  | .generic base args, wellFormed, close => by
    obtain ⟨front, all⟩ := Bool.and_eq_true_iff.mp wellFormed
    obtain ⟨front, _⟩ := Bool.and_eq_true_iff.mp front
    obtain ⟨closeBase, closeArgs⟩ := Bool.and_eq_true_iff.mp (List.all_append ▸ close)
    have base := base.dots keeps (Bool.and_eq_true_iff.mp front).2 closeBase
    have args := types_dots keeps args all closeArgs
    simp only [TypeExpr.requalify, TypeExpr.references, spoken_append]
    exact .generic base args
  | .pointer target, wellFormed, close =>
    (target.dots keeps wellFormed close).pointer (afterStar (opensFree_wellFormed keeps wellFormed))
  | .slice element, wellFormed, close => (element.dots keeps wellFormed close).slice
  | .array length element, wellFormed, close => by
    obtain ⟨closeLength, closeElement⟩ := Bool.and_eq_true_iff.mp close
    obtain ⟨tokens, cut⟩ := Option.isSome_iff_exists.mp closeLength
    have dots := element.dots keeps (Bool.and_eq_true_iff.mp wellFormed).2 closeElement
    simp only [TypeExpr.requalify, TypeExpr.references, spoken_length cut]
    exact dots.array cut
  | .map key value, wellFormed, close => by
    obtain ⟨goodKey, goodValue⟩ := Bool.and_eq_true_iff.mp wellFormed
    obtain ⟨closeKey, closeValue⟩ := Bool.and_eq_true_iff.mp (List.all_append ▸ close)
    have key := key.dots keeps goodKey closeKey
    have value := value.dots keeps goodValue closeValue
    simp only [TypeExpr.requalify, TypeExpr.references, spoken_append]
    exact value.map key
  | .chan direction element, wellFormed, close =>
    (element.dots keeps (Bool.and_eq_true_iff.mp wellFormed).2 close).chan direction
  | .func signature, wellFormed, close => (signature.dots keeps wellFormed close).func
  | .interface elements, wellFormed, close =>
    .interface (elements_dots keeps elements (Bool.and_eq_true_iff.mp wellFormed).1 close)
  | .struct members, wellFormed, close => .struct (members_dots keeps members wellFormed close)
  | .paren inner, wellFormed, close => (inner.dots keeps wellFormed close).paren
  | .variadic _, wellFormed, _ => by cases wellFormed
  | .union _, wellFormed, _ => by cases wellFormed

theorem types_dots (keeps : KeepsIdentifiers g) :
    ∀ types : List TypeExpr, typesWellFormed types = true →
      (typeReferences types).all Reference.closes = true →
      ListDots ((requalifyTypes g types).map TypeExpr.spelling)
        (spoken (typeReferences (requalifyTypes g types)))
  | [], _, _ => .nil
  | t :: rest, wellFormed, close => by
    obtain ⟨first, later⟩ := Bool.and_eq_true_iff.mp wellFormed
    obtain ⟨closeFirst, closeLater⟩ := Bool.and_eq_true_iff.mp (List.all_append ▸ close)
    have dots :=
      ListDots.cons (t.dots keeps first closeFirst) (types_dots keeps rest later closeLater)
    rwa [← spoken_append] at dots

theorem Field.dots (keeps : KeepsIdentifiers g) :
    ∀ f : Field, f.isWellFormed = true →
      f.references.all Reference.closes = true →
      Dots (f.requalify g).spelling (spoken (f.requalify g).references)
  | ⟨_, type⟩, wellFormed, close => by
    cases type with
    | variadic element =>
      have parts := Bool.and_eq_true_iff.mp wellFormed
      exact (element.dots keeps parts.2 close).variadic.field parts.1
    | _ =>
      have parts := Bool.and_eq_true_iff.mp wellFormed
      exact (TypeExpr.dots keeps _ parts.2 close).field parts.1

theorem fields_dots (keeps : KeepsIdentifiers g) :
    ∀ fields : List Field, fieldsWellFormed fields = true →
      (fieldReferences fields).all Reference.closes = true →
      ListDots ((requalifyFields g fields).map Field.spelling)
        (spoken (fieldReferences (requalifyFields g fields)))
  | [], _, _ => .nil
  | f :: rest, wellFormed, close => by
    obtain ⟨first, later⟩ := Bool.and_eq_true_iff.mp wellFormed
    obtain ⟨closeFirst, closeLater⟩ := Bool.and_eq_true_iff.mp (List.all_append ▸ close)
    have dots :=
      ListDots.cons (f.dots keeps first closeFirst) (fields_dots keeps rest later closeLater)
    rwa [← spoken_append] at dots

theorem Signature.dots (keeps : KeepsIdentifiers g) :
    ∀ s : Signature, s.isWellFormed = true →
      s.references.all Reference.closes = true →
      Dots (s.requalify g).spelling (spoken (s.requalify g).references)
  | ⟨params, results⟩, wellFormed, close => by
    obtain ⟨front, _⟩ := Bool.and_eq_true_iff.mp wellFormed
    obtain ⟨front, goodResults⟩ := Bool.and_eq_true_iff.mp front
    obtain ⟨closeParams, closeResults⟩ := Bool.and_eq_true_iff.mp (List.all_append ▸ close)
    have params := fields_dots keeps params (Bool.and_eq_true_iff.mp front).1 closeParams
    have results := fields_dots keeps results goodResults closeResults
    simp only [Signature.requalify, Signature.references, spoken_append]
    exact .signature params results

theorem Element.dots (keeps : KeepsIdentifiers g) :
    ∀ e : Element, e.isWellFormed = true →
      e.references.all Reference.closes = true →
      Dots (e.requalify g).spelling (spoken (e.requalify g).references)
  | .method name signature line, wellFormed, close =>
    have parts := Bool.and_eq_true_iff.mp wellFormed
    (signature.dots keeps parts.2 close).method line parts.1
  | .embedded type, wellFormed, close => by
    cases type with
    | union terms =>
      obtain ⟨all, set⟩ := Bool.and_eq_true_iff.mp wellFormed
      exact .union (by rwa [isTypeSet_requalify]) (terms_dots keeps terms all close)
    | _ => exact TypeExpr.dots keeps _ wellFormed close

theorem elements_dots (keeps : KeepsIdentifiers g) :
    ∀ elements : List Element, elementsWellFormed elements = true →
      (elementReferences elements).all Reference.closes = true →
      ListDots ((requalifyElements g elements).map Element.spelling)
        (spoken (elementReferences (requalifyElements g elements)))
  | [], _, _ => .nil
  | e :: rest, wellFormed, close => by
    obtain ⟨first, later⟩ := Bool.and_eq_true_iff.mp wellFormed
    obtain ⟨closeFirst, closeLater⟩ := Bool.and_eq_true_iff.mp (List.all_append ▸ close)
    have dots :=
      ListDots.cons (e.dots keeps first closeFirst) (elements_dots keeps rest later closeLater)
    rwa [← spoken_append] at dots

theorem members_dots (keeps : KeepsIdentifiers g) :
    ∀ members : List Member, membersWellFormed members = true →
      (memberReferences members).all Reference.closes = true →
      ListDots ((requalifyMembers g members).map Member.spelling)
        (spoken (memberReferences (requalifyMembers g members)))
  | [], _, _ => .nil
  | ⟨_, type, _⟩ :: rest, wellFormed, close => by
    obtain ⟨first, later⟩ := Bool.and_eq_true_iff.mp wellFormed
    obtain ⟨front, literal⟩ := Bool.and_eq_true_iff.mp first
    obtain ⟨front, _⟩ := Bool.and_eq_true_iff.mp front
    obtain ⟨identifiers, wellFormed⟩ := Bool.and_eq_true_iff.mp front
    obtain ⟨closeFirst, closeLater⟩ := Bool.and_eq_true_iff.mp (List.all_append ▸ close)
    have own := (type.dots keeps wellFormed closeFirst).member identifiers literal
    have dots := ListDots.cons own (members_dots keeps rest later closeLater)
    rwa [← spoken_append] at dots

theorem terms_dots (keeps : KeepsIdentifiers g) :
    ∀ terms : List Term, termsWellFormed terms = true →
      (termReferences terms).all Reference.closes = true →
      ListDots ((requalifyTerms g terms).map Term.spelling)
        (spoken (termReferences (requalifyTerms g terms)))
  | [], _, _ => .nil
  | ⟨tilde, type⟩ :: rest, wellFormed, close => by
    obtain ⟨first, later⟩ := Bool.and_eq_true_iff.mp wellFormed
    obtain ⟨closeFirst, closeLater⟩ := Bool.and_eq_true_iff.mp (List.all_append ▸ close)
    have own := (type.dots keeps first closeFirst).term tilde
    have dots := ListDots.cons own (terms_dots keeps rest later closeLater)
    rwa [← spoken_append] at dots

end

end

end GoSpy
