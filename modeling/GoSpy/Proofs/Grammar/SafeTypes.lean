import GoSpy.Grammar.Types
import GoSpy.Proofs.Grammar.Safety
import GoSpy.Proofs.Syntax.WellFormed
import Mathlib.Data.List.Nodup
/- Reading types is safe, and what it gives is well formed. The readers of the single forms are
   told how the types inside are read; each of these stands behind a token of its own, so that
   the fuel of a type is never used up. -/
namespace GoSpy.Grammar

open Cursor Reader

theorem peek_advance (s : Cursor) : s.advance.peek = s.peekAt 1 := by
  unfold peek peekAt advance
  cases s.rest with
  | nil => rfl
  | cons x rest => cases rest <;> rfl

/-- What a reader of types gives: a type read elsewhere than at an arrow is no channel to
    receive from, and one that is read at a word begins with a word. -/
structure GoodType (s : Cursor) (t : TypeExpr) : Prop where
  wellFormed : t.isWellFormed = true
  notReceive : s.peek ≠ some .arrow → t.isReceive = false
  opens : s.peek.any Token.isWord = true → t.opensWord = true

theorem GoodType.ofMark {s : Cursor} {mark : Token} {t : TypeExpr} (there : s.peek = some mark)
    (noWord : mark.isWord = false) (wellFormed : t.isWellFormed = true)
    (plain : s.peek ≠ some .arrow → t.isReceive = false) : GoodType s t :=
  ⟨wellFormed, plain, fun word => by simp [there, noWord] at word⟩

def atConstraint (s : Cursor) : Bool := s.peek.any Token.isWord || s.peek == some .tilde

/- Lists of entries -/

structure GoodEntry (close : Token) (constrained : Bool) (s : Cursor) (e : Entry) : Prop where
  names : ∀ name ∈ e.1, isIdentifier name = true
  type : e.2.isWellFormedEntry constrained = true
  named : e.1.isSome = startsWithName close s
  opens : startsWithName close s = true → constrained = true → atConstraint s.advance = true →
    e.2.opensConstraint = true

def GoodFields (constrained : Bool) (fields : List Field) : Prop :=
  (∀ f ∈ fields, (f.names.all isIdentifier && f.type.isWellFormedEntry constrained) = true) ∧
    sameNaming fields = true

theorem shareTypes_good {constrained : Bool} {entries : List Entry} {pending : List String}
    {fields : List Field} (each : ∀ e ∈ entries, (∀ name ∈ e.1, isIdentifier name = true) ∧
      e.2.isWellFormedEntry constrained = true)
    (identifiers : pending.all isIdentifier = true)
    (shared : shareTypes entries pending = some fields) :
    ∀ f ∈ fields, (f.names.all isIdentifier && f.type.isWellFormedEntry constrained) = true ∧
      f.names ≠ [] := by
  fun_induction shareTypes entries pending generalizing fields with
  | case1 => simp_all
  | case2 => cases shared
  | case3 name type rest pending ih =>
    obtain ⟨others, later, rfl⟩ := Option.map_eq_some_iff.mp shared
    obtain ⟨⟨own, good⟩, eachLater⟩ := List.forall_mem_cons.mp each
    refine List.forall_mem_cons.mpr ⟨⟨?_, by simp⟩, ih eachLater rfl later⟩
    simp_all
  | case4 name rest pending ih =>
    obtain ⟨⟨_, good⟩, eachLater⟩ := List.forall_mem_cons.mp each
    have identifier : isIdentifier name = true := by
      cases constrained <;> exact good
    exact ih eachLater (by simp_all) shared
  | case5 => cases shared

theorem fieldsOf_good {constrained : Bool} {entries : List Entry} {fields : List Field}
    (each : ∀ e ∈ entries, (∀ name ∈ e.1, isIdentifier name = true) ∧
      e.2.isWellFormedEntry constrained = true) (grouped : fieldsOf entries = some fields) :
    GoodFields constrained fields := by
  unfold fieldsOf at grouped
  split at grouped
  · obtain rfl := Option.some.inj grouped
    refine ⟨fun f member => ?_, ?_⟩
    · obtain ⟨e, inEntries, rfl⟩ := List.mem_map.mp member
      exact (each e inEntries).2
    · simp [sameNaming]
  · have all := shareTypes_good each rfl grouped
    refine ⟨fun f member => (all f member).1, ?_⟩
    simp only [sameNaming, Bool.or_eq_true, List.all_eq_true]
    exact Or.inr fun f member => by simpa using (all f member).2

theorem goodFields_wellFormed {fields : List Field} (good : GoodFields false fields) :
    (fieldsWellFormed fields && sameNaming fields) = true := by
  refine Bool.and_eq_true_iff.mpr ⟨fieldsWellFormed_iff.mpr fun f member => ?_, good.2⟩
  rw [Field.isWellFormed_eq]
  exact good.1 f member

def GoodTerm (s : Cursor) (x : Term) : Prop :=
  x.isWellFormed = true ∧ (atConstraint s = true → (x.tilde || x.type.opensWord) = true)

def GoodConstraint (s : Cursor) (t : TypeExpr) : Prop :=
  t.isWellFormedConstraint = true ∧ (atConstraint s = true → t.opensConstraint = true)

theorem ofTerms_good {s : Cursor} {terms : List Term} (all : Items GoodTerm s terms)
    (nonempty : terms ≠ []) : GoodConstraint s (ofTerms terms) := by
  have allTerms : termsWellFormed terms = true := by
    refine termsWellFormed_iff.mpr fun x member => ?_
    obtain ⟨_, _, good⟩ := all.each x member
    exact good.1
  match terms with
  | [] => exact absurd rfl nonempty
  | [⟨false, t⟩] =>
    have plain : t.isWellFormed = true := (all.first _ rfl).1
    have opens : atConstraint s = true → t.opensWord = true := (all.first _ rfl).2
    cases t <;> first | exact ⟨plain, opens⟩ | cases plain
  | [⟨true, _⟩] => exact ⟨Bool.and_eq_true_iff.mpr ⟨allTerms, rfl⟩, fun _ => rfl⟩
  | ⟨true, _⟩ :: _ :: _ | ⟨false, _⟩ :: _ :: _ =>
    exact ⟨Bool.and_eq_true_iff.mpr ⟨allTerms, rfl⟩, (all.first _ rfl).2⟩

/- Array lengths -/

theorem lengthTokens_split {depth : Nat} {lexemes rest : List Lexeme} {tokens : List Token}
    (run : lengthTokens depth lexemes = some (tokens, rest)) :
    ∃ front close, lexemes = front ++ close :: rest ∧ front.map Lexeme.token = tokens ∧
      close.token = .closeBracket := by
  induction lexemes generalizing depth tokens with
  | nil => cases run
  | cons x more ih =>
    unfold lengthTokens at run
    split at run
    · rename_i closes
      simp only [Option.some.injEq, Prod.mk.injEq] at run
      obtain ⟨rfl, rfl⟩ := run
      exact ⟨[], x, rfl, rfl, by simp_all⟩
    · obtain ⟨⟨later, behind⟩, further, same⟩ := Option.map_eq_some_iff.mp run
      obtain ⟨rfl, rfl⟩ := Prod.mk.inj same
      obtain ⟨front, close, rfl, rfl, closes⟩ := ih further
      exact ⟨x :: front, close, rfl, rfl, closes⟩

theorem lengthSpelling_some {t : Token} (scanned : t.isScanned = true) :
    lengthSpelling t ≠ "" := by
  unfold lengthSpelling
  split
  · decide
  · have some := (Bool.and_eq_true_iff.mp scanned).1
    rintro none
    simp [none] at some

theorem arrayLength_yields {s : Cursor} (scanned : s.Scanned)
    (there : s.peek ≠ some .closeBracket) :
    arrayLength.Yields 1 (fun length => length.isEmpty = false) s := by
  unfold Yields arrayLength
  split
  · rename_i tokens rest run
    obtain ⟨front, close, shape, rfl, closes⟩ := lengthTokens_split run
    refine ⟨⟨rfl, ⟨front ++ [close], by simp [shape]⟩, by simp [shape]⟩, ?_⟩
    cases front with
    | nil => exact absurd (by simp [peek, shape, closes]) there
    | cons x more =>
      have some := lengthSpelling_some (scanned x (by simp [shape]))
      rw [← Bool.not_eq_true, String.isEmpty_iff]
      simp [some]
  · exact ⟨by simp, Or.inl rfl⟩

section

variable {type : Reader TypeExpr} {n : Nat}
variable (inner : ∀ s : Cursor, s.Scanned → s.rest.length < n → type.Yields 1 (GoodType s) s)
variable {s : Cursor} (scanned : s.Scanned)

include inner scanned

omit inner in
theorem typeBase_safe {first : String} {s₁ : Cursor} (past₁ : s.Past 1 s₁)
    (identifier : isIdentifier first = true) :
    s.Safe (fun r : TypeExpr × Cursor => s.Past 1 r.2 ∧ r.1.isWellFormed = true ∧
      r.1.isNamed = true) (match s₁.eat? .dot with
        | some s => do
          let (name, s) ← s.name
          .ok (.qualified first name, s)
        | none => .ok (.name first, s₁)) := by
  split
  · rename_i s₂ eaten
    have past₂ := past₁.trans (past_eat eaten)
    refine (Safe.back past₂ (name_yields (past₂.scanned scanned))).bind ?_
    rintro ⟨second, s₃⟩ ⟨past₃, other⟩
    exact ⟨(past₂.trans past₃).weaken (by omega), Bool.and_eq_true_iff.mpr ⟨identifier, other⟩,
      rfl⟩
  · exact ⟨past₁, identifier, rfl⟩

theorem typeName_yields (small : s.rest.length ≤ n) :
    (typeName type).Yields 1 (fun t => t.isWellFormed = true ∧ t.isReceive = false ∧
      t.opensWord = true ∧ t.isEmbeddable = true ∧
        (TypeExpr.pointer t).isEmbeddable = true) s := by
  unfold Yields typeName
  refine (name_yields scanned).bind ?_
  rintro ⟨first, s₁⟩ ⟨past₁, identifier⟩
  refine (typeBase_safe scanned past₁ identifier).bind ?_
  rintro ⟨base, s₂⟩ ⟨past₂, wellFormed, named⟩
  dsimp only
  split
  · refine ⟨past₂, wellFormed, ?_⟩
    cases base <;> first | exact ⟨rfl, rfl, rfl, rfl⟩ | cases named
  · rename_i opens
    simp only [Bool.or_eq_true, decide_eq_true_eq, not_or, ne_eq, not_not] at opens
    have past₃ := past₂.trans (past_advance opens.1)
    have items : (commaItems .closeBracket type s₂.advance.fuel).Yields 0
        (fun args => Items GoodType s₂.advance args ∧
          (s₂.advance.peek ≠ some .closeBracket → args ≠ [])) s₂.advance :=
      commaItems_yields (fun s' past => inner s' ((past₃.trans past).scanned scanned)
        (by have := (past₃.trans past).length; omega)) (Nat.lt_succ_self _)
    refine (Safe.back past₃ items).bind ?_
    rintro ⟨args, s₄⟩ ⟨past₄, all, nonempty⟩
    have past₅ := past₃.trans past₄
    refine (Safe.back past₅ (expect_safe s₄ _)).bind fun s₅ past₆ => ?_
    refine ⟨(past₅.trans past₆).weaken (by omega), ?_, rfl, rfl, rfl, rfl⟩
    have filled : args ≠ [] := nonempty (by rw [peek_advance]; exact opens.2)
    have allArgs : typesWellFormed args = true := by
      refine typesWellFormed_iff.mpr fun t member => ?_
      obtain ⟨_, _, good⟩ := all.each t member
      exact good.wellFormed
    simp [TypeExpr.isWellFormed, named, wellFormed, filled, allArgs]

theorem term_yields (small : s.rest.length < n) :
    (term type).Yields 1 (GoodTerm s) s := by
  unfold Yields term
  split
  · rename_i s₁ eaten
    have past₁ := past_eat eaten
    refine (Safe.back past₁ (inner s₁ (past₁.scanned scanned)
      (by have := past₁.length; omega))).bind fun ⟨t, s₂⟩ ⟨past₂, good⟩ => ?_
    exact ⟨(past₁.trans past₂).weaken (by omega), good.wellFormed, fun _ => rfl⟩
  · rename_i other
    refine (inner s scanned small).bind fun ⟨t, s₁⟩ ⟨past₁, good⟩ =>
      ⟨past₁, good.wellFormed, fun starts => good.opens ?_⟩
    have apart : (s.peek == some .tilde) = false := by
      rw [beq_eq_false_iff_ne]
      rintro there
      simp [eat?, there] at other
    simpa [atConstraint, apart] using starts

theorem constraint_yields (small : s.rest.length < n) :
    (constraint type).Yields 1 (GoodConstraint s) s := by
  unfold Yields constraint
  have items : (separated .pipe (term type) s.fuel).Yields 1
      (fun terms => Items GoodTerm s terms ∧ terms ≠ []) s :=
    separated_yields (fun s' past => term_yields inner (past.scanned scanned)
      (by have := past.length; omega)) (Nat.lt_succ_self _)
  exact items.bind fun ⟨terms, s₁⟩ ⟨past₁, all, nonempty⟩ => ⟨past₁, ofTerms_good all nonempty⟩

theorem entryType_yields (constrained : Bool) (small : s.rest.length < n) :
    (entryType type constrained).Yields 1 (fun t => t.isWellFormedEntry constrained = true ∧
      (constrained = true → atConstraint s = true → t.opensConstraint = true)) s := by
  unfold Yields entryType
  split
  · rename_i s₁ eaten
    have past₁ := past_eat eaten
    refine (Safe.back past₁ (inner s₁ (past₁.scanned scanned)
      (by have := past₁.length; omega))).bind fun ⟨t, s₂⟩ ⟨past₂, good⟩ => ?_
    have there := (eat_eq_some eaten).1
    exact ⟨(past₁.trans past₂).weaken (by omega), good.wellFormed,
      fun _ starts => by simp [atConstraint, there, Token.isWord] at starts⟩
  · split
    · rename_i constrains
      subst constrains
      refine (constraint_yields inner scanned small).weaken ?_
      rintro ⟨t, s₁⟩ ⟨past₁, wellFormed, opens⟩
      refine ⟨past₁, ?_, fun _ => opens⟩
      cases t <;> first | exact wellFormed | cases wellFormed
    · rename_i plain
      obtain rfl : constrained = false := by simpa using plain
      refine (inner s scanned small).weaken fun ⟨t, s₁⟩ ⟨past₁, good⟩ =>
        ⟨past₁, ?_, fun constrains => nomatch constrains⟩
      have wellFormed := good.wellFormed
      cases t <;> first | exact wellFormed | cases wellFormed

theorem entry_yields (close : Token) (constrained : Bool) (small : s.rest.length < n) :
    (entry type close constrained).Yields 1 (GoodEntry close constrained s) s := by
  unfold Yields entry
  split
  · rename_i named
    refine (name_behind scanned).bind fun ⟨name, s₁⟩ ⟨past₁, identifier, behind⟩ => ?_
    obtain rfl : s₁ = s.advance := behind
    refine (Safe.back past₁ (entryType_yields inner (past₁.scanned scanned) constrained
      (by have := past₁.length; omega))).bind fun ⟨t, s₂⟩ ⟨past₂, good, opens⟩ => ?_
    exact ⟨(past₁.trans past₂).weaken (by omega), by simpa using identifier, good, named.symm,
      fun _ => opens⟩
  · rename_i bare
    refine (entryType_yields inner scanned constrained small).bind
      fun ⟨t, s₁⟩ ⟨past₁, good, _⟩ => ?_
    exact ⟨past₁, by simp, good, by simpa using bare, fun named => absurd named bare⟩

theorem fieldList_yields («open» close : Token) (constrained : Bool) (small : s.rest.length ≤ n) :
    (fieldList type «open» close constrained).Yields 1 (fun fields =>
      GoodFields constrained fields ∧ ∃ entries, Items (GoodEntry close constrained) s.advance entries ∧
        fieldsOf entries = some fields) s := by
  unfold Yields fieldList
  refine (expect_behind s _).bind fun s₁ ⟨past₁, behind⟩ => ?_
  obtain rfl : s₁ = s.advance := behind
  have items : (commaItems close (entry type close constrained) s.advance.fuel).Yields 0
      (fun entries => Items (GoodEntry close constrained) s.advance entries ∧
        (s.advance.peek ≠ some close → entries ≠ [])) s.advance :=
    commaItems_yields (fun s' past => entry_yields inner ((past₁.trans past).scanned scanned)
      close constrained (by have := (past₁.trans past).length; omega)) (Nat.lt_succ_self _)
  refine (Safe.back past₁ items).bind fun ⟨entries, s₂⟩ ⟨past₂, all, _⟩ => ?_
  have past₃ := past₁.trans past₂
  refine (Safe.back past₃ (expect_safe s₂ _)).bind fun s₄ past₄ => ?_
  split
  · rename_i fields grouped
    refine ⟨(past₃.trans past₄).weaken (by omega), fieldsOf_good (fun e member => ?_) grouped,
      entries, all, grouped⟩
    obtain ⟨_, _, good⟩ := all.each e member
    exact ⟨good.names, good.type⟩
  · exact ⟨by simp, s.onLine_line⟩

theorem params_yields (small : s.rest.length ≤ n) :
    (params type).Yields 1 (GoodFields false) s :=
  (fieldList_yields inner scanned _ _ _ small).weaken fun _ ⟨past, good, _⟩ => ⟨past, good⟩

theorem results_yields (small : s.rest.length < n) :
    (results type).Yields 0 (GoodFields false) s := by
  unfold Yields results
  split
  · exact (params_yields inner scanned small.le).weaken fun _ ⟨past, good⟩ =>
      ⟨past.weaken (by omega), good⟩
  · split
    · refine (inner s scanned small).bind fun ⟨t, s₁⟩ ⟨past₁, good⟩ => ?_
      refine ⟨past₁.weaken (by omega), ?_, rfl⟩
      have wellFormed := good.wellFormed
      refine List.forall_mem_singleton.mpr ?_
      cases t <;> first | exact wellFormed | cases wellFormed
    · exact ⟨.refl s, by simp, rfl⟩

theorem signature_yields (small : s.rest.length ≤ n) :
    (signature type).Yields 1 (fun sig => sig.isWellFormed = true) s := by
  unfold Yields signature
  refine (params_yields inner scanned small).bind fun ⟨params, s₁⟩ ⟨past₁, goodParams⟩ => ?_
  refine (Safe.back past₁ (results_yields inner (past₁.scanned scanned)
    (by have := past₁.length; omega))).bind fun ⟨results, s₂⟩ ⟨past₂, goodResults⟩ => ?_
  refine ⟨(past₁.trans past₂).weaken (by omega), ?_⟩
  have first := goodFields_wellFormed goodParams
  have second := goodFields_wellFormed goodResults
  simp only [Bool.and_eq_true] at first second
  simp [Signature.isWellFormed, first, second]

/- Interfaces and structs -/

theorem element_yields {before : List Element} (small : s.rest.length < n)
    (distinct : (methodNames before).Nodup) :
    (element type before).Yields 1
      (fun e => e.isWellFormed = true ∧ (methodNames (e :: before)).Nodup) s := by
  unfold Yields element
  split
  · refine (name_yields scanned).bind fun ⟨name, s₁⟩ ⟨past₁, identifier⟩ => ?_
    dsimp only
    split
    · exact ⟨by simp, s.onLine_line⟩
    · rename_i new
      refine (Safe.back past₁ (signature_yields inner (past₁.scanned scanned)
        (by have := past₁.length; omega))).bind fun ⟨sig, s₂⟩ ⟨past₂, good⟩ => ?_
      refine ⟨(past₁.trans past₂).weaken (by omega), Bool.and_eq_true_iff.mpr ⟨identifier, good⟩,
        ?_⟩
      have apart : name ∉ methodNames before := by simpa using new
      exact List.nodup_cons.mpr ⟨apart, distinct⟩
  · refine (constraint_yields inner scanned small).bind fun ⟨t, s₁⟩ ⟨past₁, good, _⟩ => ?_
    refine ⟨past₁, ?_, distinct⟩
    cases t <;> exact good

theorem interfaceBody_yields (small : s.rest.length ≤ n) :
    (interfaceBody type).Yields 1
      (fun es => elementsWellFormed es = true ∧ (methodNames es).Nodup) s := by
  unfold Yields interfaceBody
  refine (expect_safe s _).bind fun s₁ past₁ => ?_
  have items : (entries .closeBrace (element type) s₁.fuel []).Yields 0
      (fun es => (∀ e ∈ es, e.isWellFormed = true) ∧
        (methodNames (es.reverse ++ [])).Nodup) s₁ :=
    entries_yields (fun es => (methodNames es).Nodup) (fun before s' past distinct =>
      element_yields inner ((past₁.trans past).scanned scanned)
        (by have := (past₁.trans past).length; omega) distinct) List.nodup_nil
      (Nat.lt_succ_self _)
  refine (Safe.back past₁ items).bind fun ⟨es, s₂⟩ ⟨past₂, all, distinct⟩ => ?_
  have past₃ := past₁.trans past₂
  refine (Safe.back past₃ (expect_safe s₂ _)).bind fun s₄ past₄ => ?_
  refine ⟨(past₃.trans past₄).weaken (by omega), elementsWellFormed_iff.mpr all, ?_⟩
  simpa [methodNames, List.filterMap_reverse, List.nodup_reverse] using distinct

theorem memberType_yields (small : s.rest.length < n) :
    (memberType type).Yields 1 (fun r => r.1.all isIdentifier = true ∧ r.2.isWellFormed = true ∧
      (!r.1.isEmpty || r.2.isEmbeddable) = true) s := by
  unfold Yields memberType
  split
  · rename_i s₁ eaten
    have past₁ := past_eat eaten
    refine (Safe.back past₁ (typeName_yields inner (past₁.scanned scanned)
      (by have := past₁.length; omega))).bind fun ⟨t, s₂⟩ ⟨past₂, good, _, _, _, fits⟩ => ?_
    exact ⟨(past₁.trans past₂).weaken (by omega), rfl, good, fits⟩
  · split
    · refine (typeName_yields inner scanned small.le).bind
        fun ⟨t, s₁⟩ ⟨past₁, good, _, _, fits, _⟩ => ?_
      exact ⟨past₁, rfl, good, fits⟩
    · refine (names_yields scanned).bind fun ⟨names, s₁⟩ ⟨past₁, identifiers, nonempty⟩ => ?_
      have fewer : s₁.rest.length + 1 ≤ s.rest.length := past₁.length
      refine (Safe.back past₁ (inner s₁ (past₁.scanned scanned) (by omega))).bind
        fun ⟨t, s₂⟩ ⟨past₂, good⟩ => ?_
      have some : names ≠ [] := nonempty
      exact ⟨(past₁.trans past₂).weaken (by omega), identifiers, good.wellFormed, by simp [some]⟩

theorem member_yields (small : s.rest.length < n) :
    (member type).Yields 1 (fun m => m.isWellFormed = true) s := by
  unfold Yields member
  refine (memberType_yields inner scanned small).bind
    fun ⟨⟨names, t⟩, s₁⟩ ⟨past₁, identifiers, good, fits⟩ => ?_
  have front : (names.all isIdentifier && t.isWellFormed &&
      (!names.isEmpty || t.isEmbeddable)) = true :=
    Bool.and_eq_true_iff.mpr ⟨Bool.and_eq_true_iff.mpr ⟨identifiers, good⟩, fits⟩
  dsimp only
  split
  · rename_i tag there
    have past₂ := past₁.trans (past_advance there)
    have literal := (Bool.and_eq_true_iff.mp
      (scanned_peek (past₁.scanned scanned) there)).2
    exact ⟨past₂.weaken (by omega), Bool.and_eq_true_iff.mpr ⟨front, literal⟩⟩
  · exact ⟨past₁, Bool.and_eq_true_iff.mpr ⟨front, rfl⟩⟩

theorem structBody_yields (small : s.rest.length ≤ n) :
    (structBody type).Yields 1 (fun ms => membersWellFormed ms = true) s := by
  unfold Yields structBody
  refine (expect_safe s _).bind fun s₁ past₁ => ?_
  have items : (entries .closeBrace (fun _ => member type) s₁.fuel []).Yields 0
      (fun ms => (∀ m ∈ ms, m.isWellFormed = true) ∧ True) s₁ :=
    entries_yields (fun _ => True) (fun _ s' past _ =>
      (member_yields inner ((past₁.trans past).scanned scanned)
        (by have := (past₁.trans past).length; omega)).weaken
          fun _ ⟨further, good⟩ => ⟨further, good, trivial⟩) trivial (Nat.lt_succ_self _)
  refine (Safe.back past₁ items).bind fun ⟨ms, s₂⟩ ⟨past₂, all, _⟩ => ?_
  have past₃ := past₁.trans past₂
  refine (Safe.back past₃ (expect_safe s₂ _)).bind fun s₄ past₄ => ?_
  exact ⟨(past₃.trans past₄).weaken (by omega), membersWellFormed_iff.mpr all⟩

/- The forms of types -/

theorem inner_behind {m : Nat} {s' : Cursor} (past : s.Past (m + 1) s')
    (small : s.rest.length ≤ n) :
    s.Safe (fun r => s.Past 1 r.2 ∧ GoodType s' r.1) (type s') := by
  refine (Safe.back past (inner s' (past.scanned scanned)
    (by have := past.length; omega))).weaken fun _ ⟨further, good⟩ => ?_
  exact ⟨(past.trans further).weaken (by omega), good⟩

theorem mapType_yields {s' : Cursor} (past : s.Past 1 s') (small : s.rest.length ≤ n) :
    s.Safe (fun r => s.Past 1 r.2 ∧ GoodType s r.1) (mapType type s') := by
  unfold mapType
  refine (Safe.back past (expect_safe s' _)).bind fun s₁ past₁ => ?_
  have start := past.trans past₁
  refine (Safe.back start (inner s₁ (start.scanned scanned)
    (by have := start.length; omega))).bind fun ⟨key, s₂⟩ ⟨past₂, goodKey⟩ => ?_
  have past₃ := start.trans past₂
  refine (Safe.back past₃ (expect_safe s₂ _)).bind fun s₃ past₄ => ?_
  refine (inner_behind inner scanned ((past₃.trans past₄).weaken (m := 1) (by omega))
    small).bind fun ⟨value, s₅⟩ ⟨past₅, good⟩ => ?_
  exact ⟨past₅, Bool.and_eq_true_iff.mpr ⟨goodKey.wellFormed, good.wellFormed⟩, fun _ => rfl,
    fun _ => rfl⟩

theorem chanType_yields {s' : Cursor} (past : s.Past 1 s') (small : s.rest.length ≤ n) :
    s.Safe (fun r => s.Past 1 r.2 ∧ GoodType s r.1) (chanType type s') := by
  unfold chanType
  split
  · rename_i s₁ eaten
    refine (inner_behind inner scanned ((past.trans (past_eat eaten)).weaken (m := 1) (by omega))
      small).bind fun ⟨t, s₂⟩ ⟨past₂, good⟩ => ?_
    exact ⟨past₂, by simp [TypeExpr.isWellFormed, good.wellFormed], fun _ => rfl, fun _ => rfl⟩
  · rename_i other
    have apart : s'.peek ≠ some .arrow := by
      rintro there
      simp [eat?, there] at other
    refine (inner_behind inner scanned past small).bind fun ⟨t, s₂⟩ ⟨past₂, good⟩ => ?_
    exact ⟨past₂, by simp [TypeExpr.isWellFormed, good.wellFormed, good.notReceive apart],
      fun _ => rfl, fun _ => rfl⟩

theorem receiveType_yields {s' : Cursor} (past : s.Past 1 s') (arrow : s.peek = some .arrow)
    (small : s.rest.length ≤ n) :
    s.Safe (fun r => s.Past 1 r.2 ∧ GoodType s r.1) (receiveType type s') := by
  unfold receiveType
  refine (Safe.back past (expect_safe s' _)).bind fun s₁ past₁ => ?_
  refine (inner_behind inner scanned ((past.trans past₁).weaken (m := 1) (by omega))
    small).bind fun ⟨t, s₂⟩ ⟨past₂, good⟩ => ?_
  refine ⟨past₂, .ofMark arrow rfl ?_ fun apart => absurd arrow apart⟩
  exact Bool.and_eq_true_iff.mpr ⟨rfl, good.wellFormed⟩

theorem parenType_yields {s' : Cursor} (past : s.Past 1 s')
    (there : s.peek = some .openParen) (small : s.rest.length ≤ n) :
    s.Safe (fun r => s.Past 1 r.2 ∧ GoodType s r.1) (parenType type s') := by
  unfold parenType
  refine (inner_behind inner scanned past small).bind fun ⟨t, s₁⟩ ⟨past₁, good⟩ => ?_
  refine (Safe.back past₁ (expect_safe s₁ _)).bind fun s₂ past₂ => ?_
  exact ⟨(past₁.trans past₂).weaken (by omega), .ofMark there rfl good.wellFormed fun _ => rfl⟩

theorem bracketType_yields {s' : Cursor} (past : s.Past 1 s')
    (there : s.peek = some .openBracket) (small : s.rest.length ≤ n) :
    s.Safe (fun r => s.Past 1 r.2 ∧ GoodType s r.1) (bracketType type s') := by
  unfold bracketType
  split
  · rename_i s₁ eaten
    refine (inner_behind inner scanned ((past.trans (past_eat eaten)).weaken (m := 1) (by omega))
      small).bind ?_
    rintro ⟨t, s₂⟩ ⟨past₂, good⟩
    exact ⟨past₂, .ofMark there rfl good.wellFormed fun _ => rfl⟩
  · rename_i other
    have apart : s'.peek ≠ some .closeBracket := by
      rintro there
      simp [eat?, there] at other
    refine (Safe.back past (arrayLength_yields (past.scanned scanned) apart)).bind ?_
    rintro ⟨length, s₁⟩ ⟨past₁, filled⟩
    refine (inner_behind inner scanned ((past.trans past₁).weaken (m := 1) (by omega))
      small).bind ?_
    rintro ⟨t, s₂⟩ ⟨past₂, good⟩
    have nonempty : length.isEmpty = false := filled
    have wellFormed : (TypeExpr.array length t).isWellFormed = true := by
      simp [TypeExpr.isWellFormed, good.wellFormed, nonempty]
    exact ⟨past₂, .ofMark there rfl wellFormed fun _ => rfl⟩

theorem wordType_yields {word : String} (there : s.peek = some (.word word))
    (small : s.rest.length ≤ n) :
    s.Safe (fun r => s.Past 1 r.2 ∧ GoodType s r.1) (wordType type word s) := by
  have past := past_advance there
  have behind := past.scanned scanned
  have fewer : s.advance.rest.length ≤ n := by
    have := past.length
    omega
  unfold wordType
  split
  · exact mapType_yields inner scanned past small
  · exact chanType_yields inner scanned past small
  · refine (Safe.back past (signature_yields inner behind fewer)).bind
      fun ⟨sig, s₁⟩ ⟨past₁, good⟩ => ?_
    exact ⟨(past.trans past₁).weaken (by omega), good, fun _ => rfl, fun _ => rfl⟩
  · refine (Safe.back past (interfaceBody_yields inner behind fewer)).bind
      fun ⟨es, s₁⟩ ⟨past₁, good, distinct⟩ => ?_
    refine ⟨(past.trans past₁).weaken (by omega), ?_, fun _ => rfl, fun _ => rfl⟩
    exact Bool.and_eq_true_iff.mpr ⟨good, decide_eq_true distinct⟩
  · refine (Safe.back past (structBody_yields inner behind fewer)).bind
      fun ⟨ms, s₁⟩ ⟨past₁, good⟩ => ?_
    exact ⟨(past.trans past₁).weaken (by omega), good, fun _ => rfl, fun _ => rfl⟩
  · split
    · exact .fail (by simp)
    · exact (typeName_yields inner scanned small).weaken fun _ ⟨past, good, plain, opens, _⟩ =>
        ⟨past, good, fun _ => plain, fun _ => opens⟩

theorem typeForm_yields (small : s.rest.length ≤ n) :
    (typeForm type).Yields 1 (GoodType s) s := by
  unfold Yields typeForm
  split
  · exact wordType_yields inner scanned ‹_› small
  · refine (inner_behind inner scanned (past_advance ‹_›) small).bind
      fun ⟨t, s₁⟩ ⟨past₁, good⟩ => ?_
    exact ⟨past₁, .ofMark ‹_› rfl good.wellFormed fun _ => rfl⟩
  · exact bracketType_yields inner scanned (past_advance ‹_›) ‹_› small
  · exact receiveType_yields inner scanned (past_advance ‹_›) ‹_› small
  · exact parenType_yields inner scanned (past_advance ‹_›) ‹_› small
  · exact .fail (by simp)

end

theorem typeWithin_yields {depth : Nat} {s : Cursor} (scanned : s.Scanned)
    (small : s.rest.length < depth) : (typeWithin depth).Yields 1 (GoodType s) s := by
  induction depth generalizing s with
  | zero => omega
  | succ depth ih => exact typeForm_yields (fun s' => ih) scanned (by omega)

theorem type_yields {s : Cursor} (scanned : s.Scanned) : Grammar.type.Yields 1 (GoodType s) s :=
  typeWithin_yields scanned (Nat.lt_succ_self _)

end GoSpy.Grammar
