import GoSpy.Proofs.Syntax.Texts
/- Lists whose items are spelled as runs of tokens, lists of fields above all. The names that
   share a type stand in the list as entries of their own, and are grouped again from them. -/
namespace GoSpy

open Scan

def TypeExpr.Spelled (types : TypeExpr → List Token → Prop) (t : TypeExpr) : Prop :=
  ∃ tokens, types t tokens ∧ Spells t.spelling tokens

theorem typeSpellings_eq_map (types : List TypeExpr) :
    typeSpellings types = types.map TypeExpr.spelling := by
  induction types with
  | nil => rfl
  | cons t rest ih => exact congrArg (t.spelling :: ·) ih

theorem fieldSpellings_eq_map (fields : List Field) :
    fieldSpellings fields = fields.map Field.spelling := by
  induction fields with
  | nil => rfl
  | cons f rest ih => exact congrArg (f.spelling :: ·) ih

theorem elementSpellings_eq_map (elements : List Element) :
    elementSpellings elements = elements.map Element.spelling := by
  induction elements with
  | nil => rfl
  | cons e rest ih => exact congrArg (e.spelling :: ·) ih

theorem memberSpellings_eq_map (members : List Member) :
    memberSpellings members = members.map Member.spelling := by
  induction members with
  | nil => rfl
  | cons m rest ih => exact congrArg (m.spelling :: ·) ih

theorem termSpellings_eq_map (terms : List Term) :
    termSpellings terms = terms.map Term.spelling := by
  induction terms with
  | nil => rfl
  | cons x rest ih => exact congrArg (x.spelling :: ·) ih

theorem exists_runs {α : Type} {written : α → List Token → Prop} {spelling : α → String}
    {items : List α}
    (each : ∀ x ∈ items, ∃ tokens, written x tokens ∧ Spells (spelling x) tokens) :
    ∃ runs, List.Forall₂ written items runs ∧ List.Forall₂ Spells (items.map spelling) runs := by
  induction items with
  | nil => exact ⟨[], .nil, .nil⟩
  | cons x rest ih =>
    obtain ⟨tokens, first, spells⟩ := each x List.mem_cons_self
    obtain ⟨runs, all, spell⟩ := ih fun y member => each y (List.mem_cons_of_mem _ member)
    exact ⟨tokens :: runs, .cons first all, .cons spells spell⟩

/- Names in front of a type -/

theorem names_spell {names : List String} (identifiers : names.all isIdentifier = true) :
    List.Forall₂ Spells names (names.map fun name => [.word name]) := by
  rw [List.forall₂_map_right_iff, List.forall₂_same]
  intro name member
  obtain ⟨word, free⟩ := (isIdentifier_iff name).mp (List.all_eq_true.mp identifiers name member)
  exact .word word free

theorem withNames_spells {names : List String} (identifiers : names.all isIdentifier = true)
    {text : String} {tokens : List Token} (spells : Spells text tokens) :
    Spells (Field.withNames names text)
      (parted .comma (names.map fun name => [.word name]) ++ tokens) := by
  by_cases none : names = []
  · subst none
    exact spells
  · have shape : Field.withNames names text = joined ", " names ++ (" " ++ text) := by
      simp [Field.withNames, none, String.append_assoc]
    intro owed rest boundary
    rw [shape, String.toList_append, String.toList_append]
    have front := Spells.joined separates_comma none (names_spell identifiers)
    refine (front owed _ (boundary_cons (by decide))).append ?_
    exact (Flows.space true _).append (spells true rest boundary)

/-- The entries that a field stands for in a list: the type stands with its last name. -/
def ungrouped : List String → TypeExpr → List Grammar.Entry
  | [], type => [(none, type)]
  | [name], type => [(some name, type)]
  | name :: names, type => (none, .name name) :: ungrouped names type

def ungroupedTokens : List String → List Token → List (List Token)
  | [], tokens => [tokens]
  | [name], tokens => [.word name :: tokens]
  | name :: names, tokens => [.word name] :: ungroupedTokens names tokens

theorem ungroupedTokens_some (names : List String) (tokens : List Token) :
    ungroupedTokens names tokens ≠ [] := by
  unfold ungroupedTokens
  split <;> simp

theorem parted_ungrouped (names : List String) (tokens : List Token) :
    parted .comma (ungroupedTokens names tokens) =
      parted .comma (names.map fun name => [.word name]) ++ tokens := by
  induction names with
  | nil => rfl
  | cons name names ih =>
    cases names with
    | nil => rfl
    | cons second names =>
      rw [ungroupedTokens, parted_cons _ _ (ungroupedTokens_some _ _), ih]
      · rfl
      · simp

theorem ungrouped_written {types : TypeExpr → List Token → Prop}
    (naming : ∀ name, isKeyword name = false → types (.name name) [.word name])
    {names : List String} (identifiers : names.all isIdentifier = true) {t : TypeExpr}
    {tokens : List Token} (written : types t tokens) :
    List.Forall₂ (Grammar.Entry.Written types) (ungrouped names t)
      (ungroupedTokens names tokens) := by
  induction names with
  | nil => exact .cons (.bare written) .nil
  | cons name names ih =>
    simp only [List.all_cons, Bool.and_eq_true] at identifiers
    have free := ((isIdentifier_iff name).mp identifiers.1).2
    cases names with
    | nil => exact .cons (.named free written) .nil
    | cons second names => exact .cons (.bare (naming name free)) (ih identifiers.2)

theorem shareTypes_ungrouped {names : List String} (some : names ≠ []) (t : TypeExpr)
    (rest : List Grammar.Entry) (pending : List String) :
    Grammar.shareTypes (ungrouped names t ++ rest) pending =
      (Grammar.shareTypes rest []).map (⟨pending ++ names, t⟩ :: ·) := by
  induction names generalizing pending with
  | nil => exact absurd rfl some
  | cons name names ih =>
    cases names with
    | nil => rfl
    | cons second names =>
      rw [ungrouped, List.cons_append, Grammar.shareTypes, ih (by simp), List.append_assoc]
      · rfl
      · simp

def ungroupedAll (fields : List Field) : List Grammar.Entry :=
  fields.flatMap fun f => ungrouped f.names f.type

theorem shareTypes_ungroupedAll {fields : List Field} (named : ∀ f ∈ fields, f.names ≠ []) :
    Grammar.shareTypes (ungroupedAll fields) [] = some fields := by
  induction fields with
  | nil => rfl
  | cons f rest ih =>
    have later := ih fun g member => named g (List.mem_cons_of_mem _ member)
    rw [ungroupedAll, List.flatMap_cons, shareTypes_ungrouped (named f List.mem_cons_self)]
    change Option.map _ (Grammar.shareTypes (ungroupedAll rest) []) = _
    rw [later]
    cases f
    rfl

theorem ungrouped_named {names : List String} (some : names ≠ []) (t : TypeExpr) :
    (ungrouped names t).all (fun e => e.1.isNone) = false := by
  induction names with
  | nil => exact absurd rfl some
  | cons name names ih =>
    cases names with
    | nil => rfl
    | cons second names =>
      rw [ungrouped, List.all_cons, ih (by simp)]
      · rfl
      · simp

theorem fieldsOf_ungroupedAll {fields : List Field} (same : sameNaming fields = true) :
    Grammar.fieldsOf (ungroupedAll fields) = some fields := by
  simp only [sameNaming, Bool.or_eq_true, List.all_eq_true, List.isEmpty_iff,
    Bool.not_eq_true', List.isEmpty_eq_false_iff] at same
  rcases same with bare | named
  · have entries : ungroupedAll fields = fields.map fun f => (none, f.type) := by
      induction fields with
      | nil => rfl
      | cons f rest ih =>
        have later := ih fun g member => bare g (List.mem_cons_of_mem _ member)
        rw [ungroupedAll, List.flatMap_cons, bare f List.mem_cons_self]
        exact congrArg _ later
    have back : (fields.map fun f => (⟨[], f.type⟩ : Field)) = fields := by
      refine (List.map_congr_left fun f member => ?_).trans (List.map_id fields)
      have none := bare f member
      cases f
      exact congrArg (Field.mk · _) none.symm
    simpa [Grammar.fieldsOf, entries, Function.comp_def] using back
  · cases fields with
    | nil => rfl
    | cons f rest =>
      have some : (ungroupedAll (f :: rest)).all (fun e => e.1.isNone) = false := by
        simp [ungroupedAll, ungrouped_named (named f List.mem_cons_self)]
      rw [Grammar.fieldsOf, if_neg (by simp [some]), shareTypes_ungroupedAll named]

theorem fields_spelled {types : TypeExpr → List Token → Prop}
    (naming : ∀ name, isKeyword name = false → types (.name name) [.word name])
    {fields : List Field}
    (each : ∀ f ∈ fields, f.names.all isIdentifier = true ∧ f.type.Spelled types) :
    ∃ runs, List.Forall₂ (Grammar.Entry.Written types) (ungroupedAll fields) runs ∧
      ∀ «open» close : Token, «open».standsAlone = true → close.standsAlone = true →
        ∀ owed rest, Flows owed («open».spelling ++ listSpelling fields ++ close.spelling).toList
          («open» :: (parted .comma runs ++ [close])) close.endsStatement rest := by
  have lists : ∃ lists : List (List (List Token)),
      List.Forall₂ (Grammar.Entry.Written types) (ungroupedAll fields) lists.flatten ∧
      List.Forall₂ Spells (fields.map Field.spelling) (lists.map (parted .comma)) ∧
      ∀ runs ∈ lists, runs ≠ [] := by
    induction fields with
    | nil => exact ⟨[], .nil, .nil, by simp⟩
    | cons f rest ih =>
      obtain ⟨identifiers, tokens, written, spells⟩ := each f List.mem_cons_self
      obtain ⟨lists, all, spell, some⟩ := ih fun g member => each g (List.mem_cons_of_mem _ member)
      refine ⟨ungroupedTokens f.names tokens :: lists, ?_, ?_, ?_⟩
      · exact List.rel_append (ungrouped_written naming identifiers written) all
      · refine .cons ?_ spell
        rw [parted_ungrouped]
        cases f
        exact withNames_spells identifiers spells
      · intro runs member
        rcases List.mem_cons.mp member with rfl | later
        · exact ungroupedTokens_some _ _
        · exact some runs later
  obtain ⟨lists, all, spell, some⟩ := lists
  refine ⟨lists.flatten, all, fun «open» close opens closes owed rest => ?_⟩
  rw [← parted_flatten .comma some, listSpelling, fieldSpellings_eq_map]
  exact .listed opens closes spell owed rest

end GoSpy
