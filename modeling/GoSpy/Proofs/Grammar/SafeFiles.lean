import GoSpy.Grammar.Declarations
import GoSpy.Proofs.Grammar.SafeTypes
import GoSpy.Proofs.Token.Cutting
/- Reading source files is safe, and what it gives is well formed. A type declaration tells its
   type parameters from an array length by two tokens, which is why they can be told apart again
   once they are written down. -/
namespace GoSpy.Grammar

open Cursor Reader

theorem types_yield {n : Nat} : ∀ s : Cursor, s.Scanned → s.rest.length < n →
    Grammar.type.Yields 1 (GoodType s) s := fun _ scanned _ => type_yields scanned

/- Type parameters -/

theorem peekAt_advance (s : Cursor) (n : Nat) : s.advance.peekAt n = s.peekAt (n + 1) := by
  simp [peekAt, advance, List.getElem?_tail]

theorem shareTypes_first {entries : List Entry} {pending : List String} {fields : List Field}
    (some : pending ≠ []) (shared : shareTypes entries pending = .some fields) :
    ∃ f more, fields = f :: more ∧ pending.length < f.names.length := by
  fun_induction shareTypes entries pending generalizing fields with
  | case1 => exact absurd rfl some
  | case2 => cases shared
  | case3 name type rest pending _ =>
    obtain ⟨others, -, rfl⟩ := Option.map_eq_some_iff.mp shared
    exact ⟨_, others, rfl, by simp⟩
  | case4 name rest pending ih =>
    obtain ⟨f, more, rfl, longer⟩ := ih (by simp) shared
    exact ⟨f, more, rfl, by simp at longer; omega⟩
  | case5 => cases shared

theorem fieldsOf_first {e : Entry} {entries : List Entry} {fields : List Field}
    (grouped : fieldsOf (e :: entries) = some fields) (named : ∀ f ∈ fields, f.names ≠ []) :
    ∃ f more, fields = f :: more ∧
      (1 < f.names.length ∨ e.1.isSome = true ∧ f.type = e.2) := by
  unfold fieldsOf at grouped
  split at grouped
  · obtain rfl := Option.some.inj grouped
    exact absurd rfl (named _ List.mem_cons_self)
  · obtain ⟨_ | name, t⟩ := e
    · cases t with
      | name first =>
        have shared : shareTypes entries [first] = some fields := grouped
        obtain ⟨f, more, rfl, longer⟩ := shareTypes_first (by simp) shared
        exact ⟨f, more, rfl, Or.inl longer⟩
      | _ => cases grouped
    · obtain ⟨others, -, rfl⟩ := Option.map_eq_some_iff.mp grouped
      exact ⟨_, others, rfl, Or.inr ⟨rfl, rfl⟩⟩

theorem typeParams_separable {s : Cursor} {entries : List Entry} {fields : List Field}
    (starts : startsTypeParams s = true)
    (all : Items (GoodEntry .closeBracket true) s.advance entries)
    (grouped : fieldsOf entries = some fields) (named : ∀ f ∈ fields, f.names ≠ []) :
    separable fields = true := by
  cases entries with
  | nil =>
    obtain rfl := Option.some.inj grouped
    rfl
  | cons e entries =>
    obtain ⟨f, more, rfl, first⟩ := fieldsOf_first grouped named
    have good := all.first e rfl
    rcases first with several | ⟨named, same⟩
    · simp [separable, several]
    · obtain ⟨name, second⟩ := Bool.and_eq_true_iff.mp starts
      rw [good.named] at named
      have opens := good.opens named rfl
      have next : s.advance.advance.peek = s.peekAt 2 := by
        rw [peek_advance, peekAt_advance]
      have fits : f.type.opensConstraint = true := by
        rw [same]
        refine opens ?_
        unfold atConstraint
        rw [next]
        split at second
        · rename_i there
          simp [there, Token.isWord]
        · rename_i there
          rw [← peekAt_advance] at there
          simp [startsWithName, there] at named
        · rename_i there
          simp [there]
        · cases second
      simp [separable, fits]

theorem typeParams_yields {s : Cursor} (scanned : s.Scanned) :
    (typeParams type).Yields 1 (fun fields => GoodFields true fields ∧
      (startsTypeParams s = true → (∀ f ∈ fields, f.names ≠ []) → separable fields = true)) s :=
  (fieldList_yields types_yield scanned _ _ _ le_rfl).weaken
    fun _ ⟨past, good, _, all, grouped⟩ =>
      ⟨past, good, fun starts named => typeParams_separable starts all grouped named⟩

/- Passing over -/

theorem behindBlock_suffix {depth : Nat} {lexemes rest : List Lexeme}
    (run : behindBlock depth lexemes = some rest) : rest <:+ lexemes := by
  fun_induction behindBlock depth lexemes with
  | case1 => cases run
  | case2 _ _ _ _ ih => exact (ih run).trans (List.suffix_cons ..)
  | case3 =>
    obtain rfl := Option.some.inj run
    exact List.suffix_cons ..
  | case4 _ _ _ _ _ ih => exact (ih run).trans (List.suffix_cons ..)
  | case5 _ _ _ _ _ ih => exact (ih run).trans (List.suffix_cons ..)

theorem past_suffix {s : Cursor} {rest : List Lexeme} (suffix : rest <:+ s.rest) :
    s.Past 0 { s with rest } := ⟨rfl, suffix, suffix.length_le⟩

theorem skipBlock_safe (s : Cursor) : s.Safe (s.Past 0) (skipBlock s) := by
  unfold skipBlock
  split
  · exact past_suffix (behindBlock_suffix ‹_›)
  · exact .fail (by simp)

theorem behindValues_safe {s : Cursor} {depth : Nat} {lexemes : List Lexeme}
    (suffix : lexemes <:+ s.rest) :
    s.Safe (fun rest => rest <:+ s.rest) (behindValues s.line depth lexemes) := by
  have later {x : Lexeme} {rest : List Lexeme} (here : x :: rest <:+ s.rest) : rest <:+ s.rest :=
    (List.suffix_cons x rest).trans here
  fun_induction behindValues s.line depth lexemes with
  | case1 => exact suffix
  | case2 => exact ⟨by simp, s.onLine_line⟩
  | case3 => exact suffix
  | case4 _ _ _ _ _ ih => exact ih (later suffix)
  | case5 _ _ _ _ ih => exact ih (later suffix)
  | case6 _ _ _ _ ih => exact ih (later suffix)
  | case7 _ _ _ _ ih => exact ih (later suffix)
  | case8 => exact suffix
  | case9 _ _ _ _ _ ih => exact ih (later suffix)
  | case10 x => exact ⟨by simp, Or.inr ⟨x, suffix.subset List.mem_cons_self, rfl⟩⟩
  | case11 _ _ _ _ _ ih => exact ih (later suffix)
  | case12 x => exact ⟨by simp, Or.inr ⟨x, suffix.subset List.mem_cons_self, rfl⟩⟩
  | case13 _ _ _ _ _ ih => exact ih (later suffix)
  | case14 _ _ _ _ _ _ _ _ _ _ ih => exact ih (later suffix)

theorem skipValues_safe (s : Cursor) : s.Safe (s.Past 0) (skipValues s) :=
  (behindValues_safe List.suffix_rfl).bind fun _ suffix => past_suffix suffix

/- Declarations -/

section

variable {s : Cursor} (scanned : s.Scanned)

include scanned

theorem importSpec_yields : importSpec.Yields 1
    (fun i => ∀ name ∈ i.name, name = "." ∨ isIdentifier name = true) s := by
  unfold Yields importSpec
  have named : importName.Yields 0
      (fun name => ∀ w ∈ name, w = "." ∨ isIdentifier w = true) s := by
    unfold Yields importName
    split
    · exact ⟨(past_advance ‹_›).weaken (by omega), by simp⟩
    · refine (name_yields scanned).bind fun ⟨w, s₁⟩ ⟨past₁, identifier⟩ => ?_
      have free : isIdentifier w = true := identifier
      exact ⟨past₁.weaken (by omega), by simp [free]⟩
    · exact ⟨.refl s, by simp⟩
  refine named.bind fun ⟨name, s₁⟩ ⟨past₁, good⟩ => ?_
  refine (Safe.back past₁ (string_yields (past₁.scanned scanned))).bind
    fun ⟨literal, s₂⟩ ⟨past₂, _⟩ => ?_
  exact ⟨(past₁.trans past₂).weaken (by omega), good⟩

omit scanned in
theorem aliasMark_past {s₂ : Cursor} (past : s.Past 1 s₂) :
    s.Past 1 (match s₂.eat? .assign with
      | some s => (true, s)
      | none => (false, s₂)).2 := by
  split
  · exact (past.trans (past_eat ‹_›)).weaken (by omega)
  · exact past

theorem typeSpec_yields : typeSpec.Yields 1 TypeSpec.WellFormed s := by
  unfold Yields typeSpec
  refine (name_yields scanned).bind ?_
  rintro ⟨name, s₁⟩ ⟨past₁, identifier⟩
  have params : s₁.Safe (fun r : List Field × Cursor => s₁.Past 0 r.2 ∧ GoodFields true r.1 ∧
      ((∀ f ∈ r.1, f.names ≠ []) → separable r.1 = true))
      (if s₁.peek = some .openBracket && startsTypeParams s₁ then typeParams type s₁
        else .ok ([], s₁)) := by
    split
    · rename_i starts
      obtain ⟨-, starts⟩ := Bool.and_eq_true_iff.mp starts
      refine (typeParams_yields (past₁.scanned scanned)).weaken ?_
      rintro _ ⟨past, good, apart⟩
      exact ⟨past.weaken (by omega), good, apart starts⟩
    · exact ⟨.refl s₁, ⟨by simp, rfl⟩, fun _ => rfl⟩
  refine .ofTest ((Safe.back past₁ params).bind ?_)
  rintro ⟨fields, s₂⟩ ⟨past₂, good, apart⟩
  have mark := aliasMark_past (past₁.trans past₂)
  refine (Safe.back mark (type_yields (mark.scanned scanned))).bind ?_
  rintro ⟨t, s₄⟩ ⟨past₄, goodType⟩
  refine ⟨(mark.trans past₄).weaken (by omega), identifier, fun f member => good.1 f member,
    good.2, apart, goodType.wellFormed⟩

theorem receiver_safe {inner : Cursor} {n line : Nat} (past : s.Past n inner)
    (here : s.OnLine line) :
    s.Safe (fun r => s.Past n r.2 ∧ ∀ f ∈ r.1, f.isWellFormed = true ∧ f.arity = 1)
      (receiver line inner) := by
  unfold receiver
  split
  · refine (Safe.back past (params_yields types_yield (past.scanned scanned) le_rfl)).bind
      fun ⟨fields, s₁⟩ ⟨past₁, good, _⟩ => ?_
    match fields with
    | [field] =>
      dsimp only
      split
      · rename_i single
        have wellFormed := good field List.mem_cons_self
        rw [← Field.isWellFormed_eq] at wellFormed
        exact ⟨(past.trans past₁).weaken (by omega), by simp [wellFormed, single]⟩
      · exact ⟨by simp, here⟩
    | [] | _ :: _ :: _ => exact ⟨by simp, here⟩
  · exact ⟨past, by simp⟩

theorem funcDecl_safe {inner : Cursor} {place : Place} (past : s.Past 1 inner)
    (here : s.OnLine place.line) :
    s.Safe (fun r => s.Past 1 r.2 ∧ r.1.WellFormed) (funcDecl place inner) := by
  unfold funcDecl
  refine (receiver_safe scanned past here).bind fun ⟨recv, s₁⟩ ⟨past₁, goodReceiver⟩ => ?_
  refine (Safe.back past₁ (name_yields (past₁.scanned scanned))).bind
    fun ⟨name, s₂⟩ ⟨past₂, identifier⟩ => ?_
  have past₃ := past₁.trans past₂
  have params : s₂.Safe (fun r : List Field × Cursor => s₂.Past 0 r.2 ∧ GoodFields true r.1)
      (if s₂.peek = some .openBracket then typeParams type s₂ else .ok ([], s₂)) := by
    split
    · exact (typeParams_yields (past₃.scanned scanned)).weaken fun _ ⟨past, good, _⟩ =>
        ⟨past.weaken (by omega), good⟩
    · exact ⟨.refl s₂, by simp, rfl⟩
  refine .ofTest ((Safe.back past₃ params).bind fun ⟨fields, s₄⟩ ⟨past₄, good⟩ => ?_)
  have past₅ := past₃.trans past₄
  refine (Safe.back past₅ (signature_yields types_yield (past₅.scanned scanned) le_rfl)).bind
    fun ⟨sig, s₆⟩ ⟨past₆, goodSignature⟩ => ?_
  have past₇ := past₅.trans past₆
  have body : s₆.Safe (s₆.Past 0)
      (if s₆.peek = some .openBrace then skipBlock s₆ else .ok s₆) := by
    split
    · exact skipBlock_safe s₆
    · exact .refl s₆
  refine .ofTest ((Safe.back past₇ body).bind fun s₈ past₈ => ?_)
  exact ⟨(past₇.trans past₈).weaken (by omega), goodReceiver, identifier, good.1, good.2,
    goodSignature, rfl⟩

theorem valueType_yields : valueType.Yields 0 (fun t => ∀ u ∈ t, u.isWellFormed = true) s := by
  unfold Yields valueType
  split
  iterate 4 exact ⟨.refl s, by simp⟩
  refine (type_yields scanned).bind fun ⟨t, s₁⟩ ⟨past₁, good⟩ => ?_
  exact ⟨past₁.weaken (by omega), by simp [good.wellFormed]⟩

theorem valueSpec_yields : valueSpec.Yields 1 ValueSpec.WellFormed s := by
  unfold Yields valueSpec
  refine (names_yields scanned).bind fun ⟨names, s₁⟩ ⟨past₁, identifiers, _⟩ => ?_
  refine (Safe.back past₁ (valueType_yields (past₁.scanned scanned))).bind
    fun ⟨t, s₂⟩ ⟨past₂, good⟩ => ?_
  have past₃ := past₁.trans past₂
  dsimp only
  split
  · rename_i s₃ eaten
    have past₄ := past₃.trans (past_eat eaten)
    refine (Safe.back past₄ (skipValues_safe s₃)).bind fun s₄ past₅ => ?_
    exact ⟨(past₄.trans past₅).weaken (by omega), identifiers, good⟩
  · exact ⟨past₃, identifiers, good⟩

theorem valueDecl_safe {inner : Cursor} {kind : ValueKind} {place : Place}
    (past : s.Past 1 inner) :
    s.Safe (fun r => s.Past 1 r.2 ∧ r.1.WellFormed) (valueDecl kind place inner) := by
  unfold valueDecl
  refine (Safe.back past (group_yields fun s' further =>
    valueSpec_yields ((past.trans further).scanned scanned))).bind
      fun ⟨⟨specs, grouped⟩, s₁⟩ ⟨past₁, good⟩ => ?_
  exact ⟨(past.trans past₁).weaken (by omega), good⟩

theorem decl_yields (file : String) : (decl file).Yields 1 Decl.WellFormed s := by
  unfold Yields decl
  split
  · have past := past_advance ‹_›
    refine (Safe.back past (group_yields fun s' further =>
      typeSpec_yields ((past.trans further).scanned scanned))).bind
        fun ⟨⟨specs, grouped⟩, s₁⟩ ⟨past₁, good⟩ => ?_
    exact ⟨(past.trans past₁).weaken (by omega), good⟩
  · refine (funcDecl_safe scanned (past_advance ‹_›) s.onLine_line).bind
      fun ⟨d, s₁⟩ ⟨past₁, good⟩ => ?_
    exact ⟨past₁, good⟩
  · exact valueDecl_safe scanned (past_advance ‹_›)
  · exact valueDecl_safe scanned (past_advance ‹_›)
  · exact .fail (by simp)
  · exact .fail (by simp)
  · exact .fail (by simp)

end

theorem imports_yields {fuel : Nat} {s : Cursor} (scanned : s.Scanned)
    (enough : s.rest.length < fuel) :
    (imports fuel).Yields 0
      (fun is => ∀ i ∈ is, ∀ name ∈ i.name, name = "." ∨ isIdentifier name = true) s := by
  induction fuel generalizing s with
  | zero => omega
  | succ fuel ih =>
    unfold Yields imports
    have past := past_skipSemicolons s
    dsimp only
    split
    · exact ⟨past, by simp⟩
    · rename_i s₁ eaten
      have past₁ := past.trans (past_eat eaten)
      refine (Safe.back past₁ (group_yields fun s' further =>
        importSpec_yields ((past₁.trans further).scanned scanned))).bind
          fun ⟨⟨specs, grouped⟩, s₂⟩ ⟨past₂, good⟩ => ?_
      have past₃ := past₁.trans past₂
      refine (Safe.back past₃ (endEntry_safe s₂)).bind fun s₄ past₄ => ?_
      have past₅ := past₃.trans past₄
      have later := ih (past₅.scanned scanned) (by have := past₅.length; omega)
      refine (Safe.back past₅ later).bind fun ⟨rest, s₆⟩ ⟨past₆, goodRest⟩ => ?_
      refine ⟨(past₅.trans past₆).weaken (by omega), fun i member => ?_⟩
      exact (List.mem_append.mp member).elim (good i) (goodRest i)

theorem endDecl_safe (s : Cursor) : s.Safe (s.Past 0) (endDecl s) := by
  unfold endDecl
  split
  · exact .refl s
  · exact (expect_safe s _).weaken fun _ past => past.weaken (by omega)

theorem decls_yields (file : String) {fuel : Nat} {s : Cursor} (scanned : s.Scanned)
    (enough : s.rest.length < fuel) :
    (decls file fuel).Yields 0 (fun ds => ∀ d ∈ ds, d.WellFormed) s := by
  induction fuel generalizing s with
  | zero => omega
  | succ fuel ih =>
    unfold Yields decls
    have past := past_skipSemicolons s
    dsimp only
    split
    · exact ⟨past, by simp⟩
    · refine (Safe.back past (decl_yields (past.scanned scanned) file)).bind
        fun ⟨first, s₁⟩ ⟨past₁, good⟩ => ?_
      have past₂ := past.trans past₁
      refine (Safe.back past₂ (endDecl_safe s₁)).bind fun s₃ past₃ => ?_
      have past₄ := past₂.trans past₃
      have later := ih (past₄.scanned scanned) (by have := past₄.length; omega)
      refine (Safe.back past₄ later).bind fun ⟨rest, s₅⟩ ⟨past₅, goodRest⟩ => ?_
      exact ⟨(past₄.trans past₅).weaken (by omega), List.forall_mem_cons.mpr ⟨good, goodRest⟩⟩

theorem sourceFile_safe (file : String) {s : Cursor} (scanned : s.Scanned) :
    s.Safe (fun r => r.1.WellFormed) (sourceFile file s) := by
  unfold sourceFile
  have past := past_skipSemicolons s
  refine (Safe.back past (expect_safe _ _)).bind fun s₁ past₁ => ?_
  have past₂ := past.trans past₁
  refine (Safe.back past₂ (name_yields (past₂.scanned scanned))).bind
    fun ⟨package, s₃⟩ ⟨past₃, identifier⟩ => ?_
  have past₄ := past₂.trans past₃
  refine (Safe.back past₄ (endEntry_safe s₃)).bind fun s₅ past₅ => ?_
  have past₆ := past₄.trans past₅
  refine (Safe.back past₆ (imports_yields (past₆.scanned scanned) (Nat.lt_succ_self _))).bind
    fun ⟨is, s₇⟩ ⟨past₇, goodImports⟩ => ?_
  have past₈ := past₆.trans past₇
  refine (Safe.back past₈ (decls_yields file (past₈.scanned scanned) (Nat.lt_succ_self _))).bind
    fun ⟨ds, s₉⟩ ⟨_, goodDecls⟩ => ?_
  exact ⟨identifier, goodImports, goodDecls⟩

end GoSpy.Grammar
