import GoSpy.Proofs.Spy.Scopes
/- Searches for names, with no bound on how long they go on. Each looks at one candidate after the
   other and takes the first that clashes with nothing. The candidates differ, and so those that
   clash are no more than the names to clash with: every search ends. -/
namespace GoSpy

/-- A search from candidate `n` on. Each round throws away a candidate that clashes, and after some
    number of rounds the search is over, at a candidate that does not. -/
inductive Search {α : Type} (Clashes : α → Prop) (candidate : Nat → α) :
    Nat → Nat → α → Prop where
  | stop {n : Nat} (clear : ¬ Clashes (candidate n)) :
      Search Clashes candidate n 0 (candidate n)
  | round {n rounds : Nat} {found : α} (clash : Clashes (candidate n))
      (rest : Search Clashes candidate (n + 1) rounds found) :
      Search Clashes candidate n (rounds + 1) found

def IsFirst {α : Type} (Clashes : α → Prop) (candidate : Nat → α) (n : Nat) : Prop :=
  ¬ Clashes (candidate n) ∧ ∀ m, m < n → Clashes (candidate m)

section

variable {α : Type} {Clashes : α → Prop} {candidate : Nat → α}

theorem search_from_iff {n rounds : Nat} {found : α} :
    Search Clashes candidate n rounds found ↔
      found = candidate (n + rounds) ∧ ¬ Clashes (candidate (n + rounds)) ∧
        ∀ m, n ≤ m → m < n + rounds → Clashes (candidate m) := by
  have shift (n rounds : Nat) : n + 1 + rounds = n + (rounds + 1) := by omega
  constructor
  · intro search
    induction search with
    | stop clear => exact ⟨rfl, clear, fun m above below => absurd below (by omega)⟩
    | @round n rounds found clash rest ih =>
      rw [shift] at ih
      obtain ⟨same, clear, before⟩ := ih
      refine ⟨same, clear, ?_⟩
      intro m above below
      rcases Nat.eq_or_lt_of_le above with rfl | later
      · exact clash
      · exact before m later below
  · rintro ⟨rfl, clear, before⟩
    induction rounds generalizing n with
    | zero => exact .stop clear
    | succ rounds ih =>
      rw [← shift n rounds] at clear before ⊢
      refine .round (before n (Nat.le_refl n) (by omega)) (ih clear ?_)
      intro m above below
      exact before m (by omega) below

theorem search_iff {rounds : Nat} {found : α} :
    Search Clashes candidate 0 rounds found ↔
      found = candidate rounds ∧ IsFirst Clashes candidate rounds := by
  rw [search_from_iff, Nat.zero_add]
  simp only [IsFirst, Nat.zero_le, true_imp_iff]

end

theorem firstFree_search (taken : List String) {candidate : Nat → String}
    (distinct : Function.Injective candidate) {Clashes : String → Prop}
    (clashes : ∀ name, name ∈ taken ↔ Clashes name) :
    ∃ n, n ≤ taken.length ∧ firstFree taken candidate = candidate n ∧
      IsFirst Clashes candidate n ∧
      Search Clashes candidate 0 n (firstFree taken candidate) := by
  obtain ⟨n, name, free, before⟩ := firstFree_first taken distinct
  have first : IsFirst Clashes candidate n :=
    ⟨mt (clashes _).mpr free, fun m below => (clashes _).mp (before m below)⟩
  exact ⟨n, taken_le_length distinct before, name, first, search_iff.mpr ⟨name, first⟩⟩

/- Receivers and imports -/

def Contract.Names (c : Contract) (name : String) : Prop :=
  (∃ m ∈ c.methods, ∃ f, (f ∈ m.signature.params ∨ f ∈ m.signature.results) ∧ name ∈ f.names) ∨
    ∃ f ∈ c.typeParams, name ∈ f.names

theorem Contract.mem_scopeNames (c : Contract) (name : String) :
    name ∈ c.scopeNames ↔ c.Names name := by
  constructor
  · intro member
    obtain ⟨f, inFields, inNames⟩ := List.mem_flatMap.mp member
    rcases List.mem_append.mp inFields with inMethods | inTypes
    · obtain ⟨m, member, inMethod⟩ := List.mem_flatMap.mp inMethods
      exact Or.inl ⟨m, member, f, List.mem_append.mp inMethod, inNames⟩
    · exact Or.inr ⟨f, inTypes, inNames⟩
  · rintro (⟨m, member, f, inMethod, inNames⟩ | ⟨f, inTypes, inNames⟩)
    · have inMethods : f ∈ c.methods.flatMap fun m => m.signature.params ++ m.signature.results :=
        List.mem_flatMap.mpr ⟨m, member, List.mem_append.mpr inMethod⟩
      exact List.mem_flatMap.mpr ⟨f, List.mem_append_left _ inMethods, inNames⟩
    · exact List.mem_flatMap.mpr ⟨f, List.mem_append_right _ inTypes, inNames⟩

/-- The name of a receiver is the first of `f`, `fake`, `spy`, `f0`, `f1` and so on that the contract
    does not have, and the local name of an import that is wanted as `x` the first of `x`, `x2`,
    `x3` and so on that is not bound. Both searches end, after no more rounds than there are names
    to keep clear of. -/
theorem numbered_names_found :
    (∀ c : Contract, ∃ n, n ≤ c.scopeNames.length ∧
      c.receiverName = Naming.receiverCandidate n ∧
      IsFirst c.Names Naming.receiverCandidate n ∧
      Search c.Names Naming.receiverCandidate 0 n c.receiverName) ∧
    ∀ (bindings : List Binding) (wanted : String), ∃ n, n ≤ bindings.length ∧
      Binding.freeName bindings wanted = Binding.candidate wanted n ∧
      IsFirst (fun name => ∃ b ∈ bindings, b.localName = name) (Binding.candidate wanted) n ∧
      Search (fun name => ∃ b ∈ bindings, b.localName = name) (Binding.candidate wanted) 0 n
        (Binding.freeName bindings wanted) := by
  constructor
  · intro c
    exact firstFree_search c.scopeNames Naming.receiverCandidate_injective c.mem_scopeNames
  · intro bindings wanted
    have search := firstFree_search (bindings.map Binding.localName)
      (Binding.candidate_injective wanted) fun _ => List.mem_map
    rwa [List.length_map] at search

example : Binding.freeName [⟨"log", "log"⟩, ⟨"log3", "a/log3"⟩, ⟨"log2", "b/log"⟩] "log" =
    "log4" := by decide

/- Parameters -/

theorem Slot.isUnnamed_iff (slot : Slot) :
    slot.isUnnamed = true ↔ slot.name = none ∨ slot.name = some "_" := by
  unfold isUnnamed
  split
  · simp_all
  · simp_all

namespace Naming

def StemClashes (reserved : List String) (count : Nat) (stem : String) : Prop :=
  ∃ i, i < count ∧ paramName stem i ∈ reserved

structure Renames (reserved : List String) (stem : String) (own new : List Field) : Prop where
  groups : List.Forall₂ (fun f g => g.type = f.type ∧ g.names.length = f.arity) own new
  numbered : Contract.fieldNames new = (List.range (slots own).length).map (paramName stem)
  distinct : (Contract.fieldNames new).Nodup
  clear : ∀ name ∈ Contract.fieldNames new, name ≠ "_" ∧ name ∉ reserved

theorem renumber_groups (stem : String) (start : Nat) (fields : List Field) :
    List.Forall₂ (fun f g => g.type = f.type ∧ g.names.length = f.arity) fields
      (renumber stem start fields) := by
  induction fields generalizing start with
  | nil => exact .nil
  | cons field rest ih => exact .cons ⟨rfl, by simp⟩ (ih _)

theorem renumber_renames {reserved : List String} {underscores : Nat} {params : List Field}
    (free : ∀ i, i < (slots params).length → paramName (paramStem underscores) i ∉ reserved) :
    Renames reserved (paramStem underscores) params
      (renumber (paramStem underscores) 0 params) where
  groups := renumber_groups _ 0 params
  numbered := by
    rw [fieldNames_renumber, List.range_eq_range']
  distinct := fieldNames_renumber_nodup underscores 0 params
  clear := by
    intro name member
    rw [fieldNames_renumber] at member
    obtain ⟨i, inRange, rfl⟩ := List.mem_map.mp member
    exact ⟨paramName_ne_blank underscores i, free i (by simpa using inRange)⟩

/-- Parameters stay as they are where each entry has a name that is not blank. Otherwise all entries
    are numbered behind `arg` and as few underscores as keep every new name from being reserved;
    the search for them ends after no more rounds than there are reserved names. -/
theorem params_renamed (reserved : List String) (params : List Field) :
    ((∀ slot ∈ slots params, slot.name ≠ none ∧ slot.name ≠ some "_") →
      callable reserved params = params) ∧
    ((∃ slot ∈ slots params, slot.name = none ∨ slot.name = some "_") →
      ∃ underscores, underscores ≤ reserved.length ∧
        freeStem reserved (slots params).length = paramStem underscores ∧
        IsFirst (StemClashes reserved (slots params).length) paramStem underscores ∧
        Search (StemClashes reserved (slots params).length) paramStem 0 underscores
          (freeStem reserved (slots params).length) ∧
        Renames reserved (paramStem underscores) params (callable reserved params)) := by
  constructor
  · intro named
    rcases callable_cases reserved params with ⟨_, kept⟩ | ⟨⟨slot, member, unnamed⟩, _⟩
    · exact kept
    · obtain ⟨some, visible⟩ := named slot member
      rcases slot.isUnnamed_iff.mp unnamed with none | blank
      · exact absurd none some
      · exact absurd blank visible
  · rintro ⟨slot, member, unnamed⟩
    have any : (slots params).any Slot.isUnnamed = true :=
      List.any_eq_true.mpr ⟨slot, member, slot.isUnnamed_iff.mpr unnamed⟩
    obtain ⟨underscores, stem, free, least⟩ := freeStem_first reserved (slots params).length
    have renamed : callable reserved params = renumber (paramStem underscores) 0 params := by
      simp only [callable, any, if_true, stem]
    have first : IsFirst (StemClashes reserved (slots params).length) paramStem underscores := by
      refine ⟨?_, least⟩
      rintro ⟨i, below, inReserved⟩
      exact free i below inReserved
    refine ⟨underscores, ?_, stem, first, search_iff.mpr ⟨stem, first⟩, ?_⟩
    · apply stems_le_length
      intro fewer below
      obtain ⟨i, _, inReserved⟩ := least fewer below
      exact ⟨i, inReserved⟩
    · rw [renamed]
      exact renumber_renames free

def namedParams : List Field := [⟨["key", "f"], .name "string"⟩, ⟨["more"], .name "int"⟩]

def unnamedParams : List Field := [⟨["key", "_"], .name "string"⟩, ⟨[], .variadic (.name "int")⟩]

theorem unnamedParams_renamed :
    ((∀ slot ∈ slots namedParams, slot.name ≠ none ∧ slot.name ≠ some "_") ∧
      callable ["key", "arg_2"] namedParams = namedParams) ∧
    (∃ slot ∈ slots unnamedParams, slot.name = none ∨ slot.name = some "_") ∧
      Contract.fieldNames (callable ["arg1", "arg_2"] unnamedParams) =
        ["arg__0", "arg__1", "arg__2"] ∧
      ∃ underscores, underscores ≤ 2 ∧
        Renames ["arg1", "arg_2"] (paramStem underscores) unnamedParams
          (callable ["arg1", "arg_2"] unnamedParams) := by
  have named : ∀ slot ∈ slots namedParams, slot.name ≠ none ∧ slot.name ≠ some "_" := by decide
  have blank : ∃ slot ∈ slots unnamedParams, slot.name = none ∨ slot.name = some "_" := by decide
  have kept := (params_renamed ["key", "arg_2"] namedParams).1 named
  obtain ⟨underscores, bound, _, _, _, renames⟩ :=
    (params_renamed ["arg1", "arg_2"] unnamedParams).2 blank
  exact ⟨⟨named, kept⟩, blank, by decide, underscores, bound, renames⟩

end Naming

end GoSpy
