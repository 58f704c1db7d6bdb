import GoSpy.Proofs.Syntax.Spelled
import GoSpy.Proofs.Syntax.WrittenDeclarations
import GoSpy.Artifact.Layout
/- Type parameters. A list of them stands where the length of an array could stand too; it is
   told apart by its second token, which must be a comma, a tilde or a word. -/
namespace GoSpy

open Scan Layout

namespace TypeExpr

def isConstraint : TypeExpr → Bool
  | union terms => termsNormal terms && isTypeSet terms
  | type => type.isNormal

def opensWord : TypeExpr → Bool
  | name _ | qualified .. | generic .. | map .. | func _ | interface _ | struct _ => true
  | chan direction _ => direction != .receive
  | _ => false

def opensConstraint : TypeExpr → Bool
  | union (⟨tilde, type⟩ :: _) => tilde || type.opensWord
  | type => type.opensWord

end TypeExpr

def Field.isTypeParam (f : Field) : Bool :=
  !f.names.isEmpty && f.names.all isIdentifier && f.type.isConstraint

/-- Whether a list of type parameters can be told from the length of an array. -/
def separable : List Field → Bool
  | [] => true
  | f :: _ => decide (1 < f.names.length) || f.type.opensConstraint

theorem TypeExpr.Written.opensWord_head {t : TypeExpr} {tokens : List Token}
    (written : TypeExpr.Written t tokens) (opens : t.opensWord = true) :
    ∃ w more, tokens = .word w :: more := by
  cases written with
  | generic named written =>
    cases written with
    | name | qualified => exact ⟨_, _, rfl⟩
    | _ => cases named
  | name | qualified | map | func | interface | struct => exact ⟨_, _, rfl⟩
  | @chan direction =>
    cases direction with
    | both | send => exact ⟨_, _, rfl⟩
    | receive => cases opens
  | _ => cases opens

def startsConstraint : List Token → Bool
  | .word _ :: _ | .tilde :: _ => true
  | _ => false

theorem opensConstraint_head {t : TypeExpr} {tokens : List Token}
    (written : TypeExpr.WrittenConstraint t tokens) (opens : t.opensConstraint = true) :
    startsConstraint tokens = true := by
  cases written with
  | plain written =>
    have word : t.opensWord = true := by
      cases t with
      | union => cases written
      | _ => exact opens
    obtain ⟨w, more, rfl⟩ := written.opensWord_head word
    rfl
  | @union terms entries set all =>
    cases all with
    | nil => cases set
    | @cons x entry terms entries first =>
      have start : startsConstraint entry = true := by
        cases first with
        | plain written =>
          have word : TypeExpr.opensWord _ = true := opens
          obtain ⟨w, more, rfl⟩ := written.opensWord_head word
          rfl
        | tilde => rfl
      cases entries with
      | nil => exact start
      | cons =>
        cases entry with
        | nil => cases start
        | cons u more => cases u <;> first | rfl | cases start

theorem startsConstraint_cases {tokens : List Token} (starts : startsConstraint tokens = true) :
    (∃ w more, tokens = .word w :: more) ∨ ∃ more, tokens = .tilde :: more := by
  unfold startsConstraint at starts
  split at starts
  · exact Or.inl ⟨_, _, rfl⟩
  · exact Or.inr ⟨_, rfl⟩
  · cases starts

theorem separable_opens {fields : List Field} {runs : List (List Token)}
    (all : List.Forall₂ (Grammar.Entry.Written TypeExpr.WrittenConstraint)
      (ungroupedAll fields) runs)
    (some : fields ≠ []) (named : ∀ f ∈ fields, f.names ≠ []) (apart : separable fields = true) :
    opensTypeParams (parted .comma runs) = true := by
  obtain ⟨f, others, rfl⟩ := List.exists_cons_of_ne_nil some
  obtain ⟨name, names, shape⟩ := List.exists_cons_of_ne_nil (named f List.mem_cons_self)
  rw [ungroupedAll, List.flatMap_cons, shape] at all
  cases names with
  | nil =>
    obtain _ | @⟨_, run, _, runs, first, later⟩ := all
    obtain ⟨tail, head⟩ := parted_head .comma run runs
    rw [head]
    cases first with
    | @named _ _ tokens free written =>
      have opens : f.type.opensConstraint = true := by simpa [separable, shape] using apart
      rcases startsConstraint_cases (opensConstraint_head written opens) with
        ⟨w, more, rfl⟩ | ⟨more, rfl⟩ <;> simp [opensTypeParams, free]
  | cons second names =>
    obtain _ | @⟨_, run, _, runs, first, later⟩ := all
    have more : runs ≠ [] := by
      rintro rfl
      have none := List.forall₂_nil_right_iff.mp later
      have front := (List.append_eq_nil_iff.mp none).1
      cases names <;> cases front
    rw [parted_cons _ _ more]
    cases first with
    | bare written =>
      cases written with
      | plain written =>
        cases written with
        | name free => simp [opensTypeParams, free]

theorem constraint_spelled {t : TypeExpr} (fits : t.isConstraint = true) :
    t.Spelled TypeExpr.WrittenConstraint := by
  cases t with
  | union terms =>
    have parts := Bool.and_eq_true_iff.mp fits
    exact .union parts.2 (terms_spelled terms parts.1)
  | _ => exact (TypeExpr.spelled _ fits).constraint

theorem typeParams_spelled {name : String} (identifier : isIdentifier name = true)
    {params : List Field} (each : ∀ f ∈ params, f.isTypeParam = true)
    (apart : separable params = true) :
    ∃ tokens, WrittenTypeParams params tokens ∧
      Spells (name ++ typeParamsText params) (.word name :: tokens) := by
  obtain ⟨word, free⟩ := (isIdentifier_iff name).mp identifier
  by_cases none : params = []
  · subst none
    refine ⟨[], .none, ?_⟩
    have text : name ++ typeParamsText [] = name := by simp [typeParamsText]
    rw [text]
    exact .word word free
  have parts (f : Field) (member : f ∈ params) :
      f.names ≠ [] ∧ f.names.all isIdentifier = true ∧
        f.type.Spelled TypeExpr.WrittenConstraint := by
    obtain ⟨front, fits⟩ := Bool.and_eq_true_iff.mp (each f member)
    obtain ⟨named, identifiers⟩ := Bool.and_eq_true_iff.mp front
    exact ⟨by simpa using named, identifiers, constraint_spelled fits⟩
  have same : sameNaming params = true := by
    simp only [sameNaming, Bool.or_eq_true, List.all_eq_true]
    exact Or.inr fun f member => by simpa using (parts f member).1
  obtain ⟨runs, all, flows⟩ :=
    fields_spelled (fun _ free => .plain (.name free)) fun f member => (parts f member).2
  have opens := separable_opens all none (fun f member => (parts f member).1) apart
  refine ⟨_, .list (fieldsOf_ungroupedAll same) all opens, ?_⟩
  have text : typeParamsText params = "[" ++ listSpelling params ++ "]" := by
    simp [typeParamsText, none]
  intro owed rest _
  rw [text]
  refine (Spells.word word free owed _ ?_).cons_text
    (flows .openBracket .closeBracket rfl rfl true rest)
  rw [String.append_assoc]
  exact boundary_text (by decide)

end GoSpy
