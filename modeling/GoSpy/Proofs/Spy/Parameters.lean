import GoSpy.Spy.Recording
import GoSpy.Proofs.Spy.FreeNames
import GoSpy.Proofs.Spy.Identifiers
/- The parameters of generated methods. They are kept where each of them has a name to refer to,
   and else all of them are numbered anew, by names that nothing else in the method has. -/
namespace GoSpy

/- Slots -/

theorem slots_entries (fields : List Field) :
    (slots fields).map (fun slot => (slot.name, slot.type)) = fields.flatMap Field.entries := by
  apply List.ext_getElem
  · simp [slots]
  · intro i _ _
    simp [slots]

theorem slots_length (fields : List Field) :
    (slots fields).length = (fields.flatMap Field.entries).length := by
  simp [slots]

theorem slots_names (fields : List Field) :
    (slots fields).map Slot.name = (fields.flatMap Field.entries).map Prod.fst := by
  rw [← slots_entries, List.map_map]
  rfl

theorem slots_types (fields : List Field) :
    (slots fields).map Slot.type = (fields.flatMap Field.entries).map Prod.snd := by
  rw [← slots_entries, List.map_map]
  rfl

namespace Field

theorem entries_named {f : Field} (named : f.names ≠ []) :
    f.entries = f.names.map fun name => (some name, f.type) := by
  simp [entries, named]

theorem entries_types (f : Field) : f.entries.map Prod.snd = List.replicate f.arity f.type := by
  unfold entries arity
  split
  · rename_i anonymous
    simp [List.isEmpty_iff.mp anonymous]
  · rename_i named
    have some := List.length_pos_iff.mpr (mt List.isEmpty_iff.mpr named)
    simp [Function.comp_def, Nat.max_eq_left some]

theorem entries_length (f : Field) : f.entries.length = f.arity := by
  rw [← List.length_map (f := Prod.snd), entries_types, List.length_replicate]

theorem entries_names (f : Field) : f.entries.filterMap Prod.fst = f.names := by
  unfold entries
  split
  · rename_i anonymous
    simp [List.isEmpty_iff.mp anonymous]
  · simp [List.filterMap_map]

end Field

theorem slots_filterMap_name (fields : List Field) :
    (slots fields).filterMap Slot.name = Contract.fieldNames fields := by
  have same : (slots fields).filterMap Slot.name =
      ((slots fields).map fun slot => (slot.name, slot.type)).filterMap Prod.fst := by
    simp [List.filterMap_map]
  rw [same, slots_entries, List.filterMap_flatMap]
  simp only [Field.entries_names]
  rfl

theorem slots_named {fields : List Field}
    (named : ∀ slot ∈ slots fields, ∃ name, slot.name = some name) :
    (slots fields).map Slot.name = (Contract.fieldNames fields).map some := by
  have each : ∀ slot ∈ slots fields, slot.name = some (slot.name.getD "") := by
    intro slot member
    obtain ⟨name, shape⟩ := named slot member
    rw [shape]
    rfl
  rw [← slots_filterMap_name, List.filterMap_congr each, List.map_congr_left each]
  simp

theorem Slot.named_of_isUnnamed {slot : Slot} (named : slot.isUnnamed = false) :
    ∃ name, slot.name = some name ∧ name ≠ "_" := by
  unfold isUnnamed at named
  split at named
  · cases named
  · rename_i name shape
    exact ⟨name, shape, by simpa using named⟩

/-- Two lists of fields with the same types and the same grouping. -/
def SameShape (own new : List Field) : Prop :=
  List.Forall₂ (fun f g => g.type = f.type ∧ g.arity = f.arity) own new

theorem SameShape.refl (fields : List Field) : SameShape fields fields :=
  List.forall₂_same.mpr fun _ _ => ⟨rfl, rfl⟩

theorem SameShape.length {own new : List Field} (same : SameShape own new) :
    (slots new).length = (slots own).length := by
  rw [slots_length, slots_length]
  induction same with
  | nil => rfl
  | cons parts _ ih =>
    rw [List.flatMap_cons, List.flatMap_cons, List.length_append, List.length_append, ih,
      Field.entries_length, Field.entries_length, parts.2]

theorem SameShape.types {own new : List Field} (same : SameShape own new) :
    (slots new).map Slot.type = (slots own).map Slot.type := by
  rw [slots_types, slots_types]
  induction same with
  | nil => rfl
  | cons parts _ ih =>
    obtain ⟨type, arity⟩ := parts
    rw [List.flatMap_cons, List.flatMap_cons, List.map_append, List.map_append, ih,
      Field.entries_types, Field.entries_types, type, arity]

namespace Naming

/- Numbered names -/

theorem toList_paramStem (underscores : Nat) :
    (paramStem underscores).toList = ['a', 'r', 'g'] ++ List.replicate underscores '_' := by
  simp [paramStem]

theorem number_front (n : Nat) : (toString n).toList.takeWhile (· == '_') = [] := by
  cases shape : (toString n).toList with
  | nil => rfl
  | cons c rest =>
    have digit := isDigit_of_number (shape ▸ List.mem_cons_self : c ∈ (toString n).toList)
    have other : c ≠ '_' := by
      rintro rfl
      exact absurd digit (by decide)
    simp [other]

/-- A new name tells how many underscores its stem has: its digits begin behind them. -/
theorem paramName_injective {underscores underscores' i j : Nat}
    (same : paramName (paramStem underscores) i = paramName (paramStem underscores') j) :
    underscores = underscores' ∧ i = j := by
  have front (u n : Nat) : ((paramName (paramStem u) n).toList.drop 3).takeWhile (· == '_') =
      List.replicate u '_' := by
    have back : (paramName (paramStem u) n).toList.drop 3 =
        List.replicate u '_' ++ (toString n).toList := by
      rw [paramName, String.toList_append, toList_paramStem]
      rfl
    rw [back, List.takeWhile_append_of_pos (by simp), number_front, List.append_nil]
  have stems : underscores = underscores' := by
    have runs := front underscores i
    rw [same, front] at runs
    simpa using congrArg List.length runs.symm
  subst stems
  exact ⟨rfl, number_text_injective (text_append_injective _ same)⟩

theorem paramName_ne_blank (underscores i : Nat) : paramName (paramStem underscores) i ≠ "_" := by
  intro same
  have letters := congrArg String.toList same
  simp [paramName, toList_paramStem] at letters

theorem stems_le_length {reserved : List String} {n : Nat}
    (inTheWay : ∀ u, u < n → ∃ i, paramName (paramStem u) i ∈ reserved) :
    n ≤ reserved.length := by
  have taken : ∀ u, ∃ i, u < n → paramName (paramStem u) i ∈ reserved := by
    intro u
    by_cases below : u < n
    · obtain ⟨i, inReserved⟩ := inTheWay u below
      exact ⟨i, fun _ => inReserved⟩
    · exact ⟨0, fun below' => absurd below' below⟩
  choose index inReserved using taken
  have distinct : Function.Injective fun u => paramName (paramStem u) (index u) :=
    fun _ _ same => (paramName_injective same).1
  exact taken_le_length distinct inReserved

theorem freeStem_first (reserved : List String) (count : Nat) :
    ∃ underscores, freeStem reserved count = paramStem underscores ∧
      (∀ i, i < count → paramName (paramStem underscores) i ∉ reserved) ∧
      ∀ fewer, fewer < underscores →
        ∃ i, i < count ∧ paramName (paramStem fewer) i ∈ reserved := by
  let clear : Nat → Bool := fun underscores =>
    (List.range count).all fun i => !reserved.contains (paramName (paramStem underscores) i)
  have clear_iff (underscores : Nat) : clear underscores = true ↔
      ∀ i, i < count → paramName (paramStem underscores) i ∉ reserved := by
    simp [clear]
  have blocked {underscores : Nat} (not : ¬ clear underscores = true) :
      ∃ i, i < count ∧ paramName (paramStem underscores) i ∈ reserved := by
    rw [clear_iff] at not
    push Not at not
    exact not
  have possible : ∃ n, n ≤ reserved.length ∧ clear n = true := by
    by_contra none
    -- Otherwise each number of underscores up to the bound has a name of its own in the way.
    have tooLong : reserved.length + 1 ≤ reserved.length := by
      apply stems_le_length
      intro u below
      obtain ⟨i, _, inReserved⟩ := blocked fun holds => none ⟨u, by omega, holds⟩
      exact ⟨i, inReserved⟩
    omega
  obtain ⟨holds, least⟩ := leastWhere_first reserved.length clear possible
  refine ⟨leastWhere reserved.length clear, rfl, (clear_iff _).mp holds, ?_⟩
  intro fewer below
  exact blocked (by simp [least fewer below])

/- Renumbered lists -/

theorem renumber_shape (stem : String) (start : Nat) (fields : List Field) :
    SameShape fields (renumber stem start fields) := by
  induction fields generalizing start with
  | nil => exact .nil
  | cons field rest ih =>
    refine .cons ⟨rfl, ?_⟩ (ih _)
    simp [Field.arity]

theorem renumber_names (stem : String) (start : Nat) (fields : List Field) :
    (slots (renumber stem start fields)).map Slot.name =
      (List.range' start (slots fields).length).map fun i => some (paramName stem i) := by
  rw [slots_names, slots_length]
  induction fields generalizing start with
  | nil => rfl
  | cons field rest ih =>
    have renamed : (List.range field.arity).map (fun i => paramName stem (start + i)) ≠ [] := by
      simp [Field.arity]
    have own : List.range' start field.arity = (List.range field.arity).map (start + ·) :=
      List.range'_eq_map_range
    rw [renumber, List.flatMap_cons, List.flatMap_cons, List.map_append, ih, List.length_append,
      Field.entries_named renamed, Field.entries_length, ← List.range'_append_1,
      List.map_append, own]
    simp [Function.comp_def]

theorem fieldNames_renumber (stem : String) (start : Nat) (fields : List Field) :
    Contract.fieldNames (renumber stem start fields) =
      (List.range' start (slots fields).length).map (paramName stem) := by
  have names := congrArg (List.filterMap id) (renumber_names stem start fields)
  rw [List.filterMap_map, Function.id_comp, slots_filterMap_name] at names
  rw [names, List.filterMap_map]
  exact congrFun List.filterMap_eq_map _

theorem fieldNames_renumber_nodup (underscores start : Nat) (fields : List Field) :
    (Contract.fieldNames (renumber (paramStem underscores) start fields)).Nodup := by
  rw [fieldNames_renumber]
  have range : (List.range' start (slots fields).length).Nodup := List.nodup_range'
  exact range.map fun _ _ same => (paramName_injective same).2

theorem callable_cases (reserved : List String) (params : List Field) :
    ((∀ slot ∈ slots params, slot.isUnnamed = false) ∧ callable reserved params = params) ∨
      (∃ slot ∈ slots params, slot.isUnnamed = true) ∧
        ∃ underscores, callable reserved params = renumber (paramStem underscores) 0 params ∧
          (∀ i, i < (slots params).length → paramName (paramStem underscores) i ∉ reserved) ∧
          ∀ fewer, fewer < underscores →
            ∃ i, i < (slots params).length ∧ paramName (paramStem fewer) i ∈ reserved := by
  cases unnamed : (slots params).any Slot.isUnnamed with
  | false =>
    left
    have kept : callable reserved params = params := by
      simp only [callable, unnamed, Bool.false_eq_true, if_false]
    exact ⟨by simpa using unnamed, kept⟩
  | true =>
    right
    obtain ⟨underscores, stem, free, least⟩ := freeStem_first reserved (slots params).length
    have renamed : callable reserved params = renumber (paramStem underscores) 0 params := by
      simp only [callable, unnamed, if_true, stem]
    exact ⟨by simpa using unnamed, underscores, renamed, free, least⟩

theorem callable_shape (reserved : List String) (params : List Field) :
    SameShape params (callable reserved params) := by
  rcases callable_cases reserved params with ⟨_, kept⟩ | ⟨_, underscores, renamed, _⟩
  · rw [kept]
    exact .refl params
  · rw [renamed]
    exact renumber_shape _ 0 params

theorem callable_named (reserved : List String) (params : List Field) :
    ∀ slot ∈ slots (callable reserved params), ∃ name, slot.name = some name ∧ name ≠ "_" := by
  intro slot member
  rcases callable_cases reserved params with ⟨named, kept⟩ | ⟨_, underscores, renamed, _⟩
  · rw [kept] at member
    exact Slot.named_of_isUnnamed (named slot member)
  · rw [renamed] at member
    have inNames := List.mem_map_of_mem (f := Slot.name) member
    rw [renumber_names] at inNames
    obtain ⟨i, _, name⟩ := List.mem_map.mp inNames
    exact ⟨_, name.symm, paramName_ne_blank underscores i⟩

theorem callable_names (reserved : List String) (params : List Field) :
    (slots (callable reserved params)).map Slot.name =
      (Contract.fieldNames (callable reserved params)).map some := by
  apply slots_named
  intro slot member
  obtain ⟨name, shape, _⟩ := callable_named reserved params slot member
  exact ⟨name, shape⟩

theorem callable_no_blank (reserved : List String) (params : List Field) :
    "_" ∉ Contract.fieldNames (callable reserved params) := by
  intro blank
  rw [← slots_filterMap_name] at blank
  obtain ⟨slot, member, shape⟩ := List.mem_filterMap.mp blank
  obtain ⟨name, named, other⟩ := callable_named reserved params slot member
  exact other (Option.some.inj (named.symm.trans shape))

end Naming

end GoSpy
