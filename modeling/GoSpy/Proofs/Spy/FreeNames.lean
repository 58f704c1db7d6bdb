import GoSpy.Artifact.Import
import Mathlib
/- The bounded search for a free name finds the first one: among one candidate more than there
   are names in the way, some candidate is free as long as the candidates differ. -/
namespace GoSpy

theorem leastWhere_first (bound : Nat) (p : Nat → Bool)
    (possible : ∃ n, n ≤ bound ∧ p n = true) :
    p (leastWhere bound p) = true ∧ ∀ m, m < leastWhere bound p → p m = false := by
  obtain ⟨n, inBound, holds⟩ := possible
  have search : ((List.range (bound + 1)).find? p).isSome = true :=
    List.find?_isSome.mpr ⟨n, List.mem_range.mpr (by omega), holds⟩
  obtain ⟨found, run⟩ := Option.isSome_iff_exists.mp search
  have value : leastWhere bound p = found := by simp [leastWhere, run]
  obtain ⟨hit, ⟨i, inRange, here, before⟩⟩ := List.find?_eq_some_iff_getElem.mp run
  have same : i = found := by simpa using here
  subst same
  rw [value]
  refine ⟨hit, ?_⟩
  intro m below
  simpa using before m below

theorem taken_le_length {taken : List String} {candidate : Nat → String}
    (distinct : Function.Injective candidate) {n : Nat}
    (inTheWay : ∀ m, m < n → candidate m ∈ taken) : n ≤ taken.length := by
  have nodup : ((List.range n).map candidate).Nodup := List.nodup_range.map distinct
  have inTaken : (List.range n).map candidate ⊆ taken := by
    intro name member
    obtain ⟨m, inRange, same⟩ := List.mem_map.mp member
    exact same ▸ inTheWay m (List.mem_range.mp inRange)
  simpa using nodup.length_le_of_subset inTaken

theorem some_candidate_free (taken : List String) {candidate : Nat → String}
    (distinct : Function.Injective candidate) :
    ∃ n, n ≤ taken.length ∧ candidate n ∉ taken := by
  by_contra none
  push Not at none
  have tooLong : taken.length + 1 ≤ taken.length :=
    taken_le_length distinct fun m below => none m (by omega)
  omega

theorem firstFree_first (taken : List String) {candidate : Nat → String}
    (distinct : Function.Injective candidate) :
    ∃ n, firstFree taken candidate = candidate n ∧ candidate n ∉ taken ∧
      ∀ m, m < n → candidate m ∈ taken := by
  obtain ⟨n, inBound, free⟩ := some_candidate_free taken distinct
  have first := leastWhere_first taken.length (fun n => !taken.contains (candidate n))
    ⟨n, inBound, by simpa using free⟩
  refine ⟨_, rfl, by simpa using first.1, ?_⟩
  intro m below
  simpa using first.2 m below

theorem firstFree_not_taken (taken : List String) {candidate : Nat → String}
    (distinct : Function.Injective candidate) : firstFree taken candidate ∉ taken := by
  obtain ⟨n, run, free, _⟩ := firstFree_first taken distinct
  exact run ▸ free

theorem number_text_injective : Function.Injective (fun n : Nat => toString n) :=
  fun _ _ same => Nat.repr_inj.mp same

theorem text_append_injective (stem : String) :
    Function.Injective (fun text : String => stem ++ text) :=
  fun _ _ same => String.append_right_inj stem |>.mp same

namespace Binding

theorem candidate_injective (wanted : String) : Function.Injective (candidate wanted) := by
  intro n m same
  cases n with
  | zero =>
    cases m with
    | zero => rfl
    | succ m =>
      have longer := congrArg String.length same
      simp [candidate] at longer
  | succ n =>
    cases m with
    | zero =>
      have longer := congrArg String.length same
      simp [candidate] at longer
    | succ m =>
      have numbers := number_text_injective (text_append_injective wanted same)
      omega

theorem freeName_fresh (bindings : List Binding) (wanted : String) :
    freeName bindings wanted ∉ bindings.map localName :=
  firstFree_not_taken _ (candidate_injective wanted)

end Binding

end GoSpy
