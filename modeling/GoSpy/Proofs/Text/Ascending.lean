import GoSpy.Text.Order
import Mathlib.Data.String.Basic
/- Sorted lists keep their members; the ascending list of texts is strictly sorted. -/
namespace GoSpy.Text

theorem mem_insertOnce (x y : String) (xs : List String) :
    y ∈ insertOnce x xs ↔ y = x ∨ y ∈ xs := by
  induction xs with
  | nil => simp [insertOnce]
  | cons z rest ih =>
    simp only [insertOnce]
    split
    · simp
    · split
      · rename_i same
        subst same
        simp
      · simp only [List.mem_cons, ih]
        tauto

theorem mem_ascending (y : String) (xs : List String) : y ∈ ascending xs ↔ y ∈ xs := by
  induction xs with
  | nil => simp [ascending]
  | cons x rest ih => simp [ascending, mem_insertOnce, ih]

theorem insertOnce_sorted (x : String) (xs : List String) (sorted : xs.Pairwise (· < ·)) :
    (insertOnce x xs).Pairwise (· < ·) := by
  induction xs with
  | nil => simp [insertOnce]
  | cons z rest ih =>
    obtain ⟨above, tail⟩ := List.pairwise_cons.mp sorted
    simp only [insertOnce]
    split
    · rename_i below
      refine List.pairwise_cons.mpr ⟨?_, sorted⟩
      intro y member
      rcases List.mem_cons.mp member with first | later
      · exact first ▸ below
      · exact lt_trans below (above y later)
    · split
      · exact sorted
      · rename_i notBelow different
        refine List.pairwise_cons.mpr ⟨?_, ih tail⟩
        intro y member
        rcases (mem_insertOnce x y rest).mp member with inserted | later
        · subst y
          exact lt_of_le_of_ne (not_lt.mp notBelow) (Ne.symm different)
        · exact above y later

theorem ascending_sorted (xs : List String) : (ascending xs).Pairwise (· < ·) := by
  induction xs with
  | nil => simp [ascending]
  | cons x rest ih => exact insertOnce_sorted x (ascending rest) ih

theorem mem_insertInOrder {α : Type} (le : α → α → Bool) (x y : α) (xs : List α) :
    y ∈ insertInOrder le x xs ↔ y = x ∨ y ∈ xs := by
  induction xs with
  | nil => simp [insertInOrder]
  | cons z rest ih =>
    simp only [insertInOrder]
    split
    · simp
    · simp only [List.mem_cons, ih]
      tauto

theorem mem_inOrder {α : Type} (le : α → α → Bool) (y : α) (xs : List α) :
    y ∈ inOrder le xs ↔ y ∈ xs := by
  induction xs with
  | nil => simp [inOrder]
  | cons x rest ih => simp [inOrder, mem_insertInOrder, ih]

section

variable {α : Type} {le : α → α → Bool}
variable (total : ∀ a b, le a b = true ∨ le b a = true)
variable (trans : ∀ a b c, le a b = true → le b c = true → le a c = true)

include total trans

theorem insertInOrder_sorted (x : α) {xs : List α} (sorted : xs.Pairwise fun a b => le a b = true) :
    (insertInOrder le x xs).Pairwise fun a b => le a b = true := by
  induction xs with
  | nil => simp [insertInOrder]
  | cons y rest ih =>
    obtain ⟨above, tail⟩ := List.pairwise_cons.mp sorted
    simp only [insertInOrder]
    split
    · rename_i below
      refine List.pairwise_cons.mpr ⟨?_, sorted⟩
      intro z member
      rcases List.mem_cons.mp member with rfl | later
      · exact below
      · exact trans x y z below (above z later)
    · rename_i notBelow
      refine List.pairwise_cons.mpr ⟨?_, ih tail⟩
      intro z member
      rcases (mem_insertInOrder le x z rest).mp member with rfl | later
      · exact (total y z).resolve_right notBelow
      · exact above z later

theorem inOrder_sorted (xs : List α) : (inOrder le xs).Pairwise fun a b => le a b = true := by
  induction xs with
  | nil => simp [inOrder]
  | cons x rest ih => exact insertInOrder_sorted total trans x ih

end

theorem insertInOrder_perm {α : Type} (le : α → α → Bool) (x : α) (xs : List α) :
    (insertInOrder le x xs).Perm (x :: xs) := by
  induction xs with
  | nil => exact .refl _
  | cons y rest ih =>
    simp only [insertInOrder]
    split
    · exact .refl _
    · exact (ih.cons y).trans (.swap x y rest)

theorem inOrder_perm {α : Type} (le : α → α → Bool) (xs : List α) : (inOrder le xs).Perm xs := by
  induction xs with
  | nil => exact .refl _
  | cons x rest ih => exact (insertInOrder_perm le x _).trans (ih.cons x)

end GoSpy.Text
