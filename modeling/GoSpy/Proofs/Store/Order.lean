import GoSpy.Store.Path
import GoSpy.Proofs.Text.Ascending
import Mathlib.Data.List.Sort
import Mathlib.Data.Prod.Lex
/- Paths are ordered by their steps, and two paths with the same steps only are equal in that
   order. A list of paths with different steps has one ascending arrangement. -/
namespace GoSpy

namespace Step

/-- A step's rank and, of two names, the text decide. -/
def key : Step → ℕ ×ₗ String
  | name text => toLex (3, text)
  | step => toLex (step.rank, "")

theorem key_injective : Function.Injective key := by
  intro a b same
  cases a <;> cases b <;> simp_all [key, rank]

theorem lt_iff_key (a b : Step) : a.lt b = true ↔ a.key < b.key := by
  cases a <;> cases b <;> simp [lt, key, rank, Prod.Lex.toLex_lt_toLex]

theorem runLe_total (as bs : List Step) : runLe as bs = true ∨ runLe bs as = true := by
  induction as generalizing bs with
  | nil => simp [runLe]
  | cons a as ih =>
    cases bs with
    | nil => simp [runLe]
    | cons b bs =>
      by_cases same : a = b
      · subst same
        simpa [runLe] using ih bs
      · simp only [runLe, same, Ne.symm same, if_false, lt_iff_key]
        exact lt_or_gt_of_ne fun keys => same (key_injective keys)

theorem runLe_antisymm {as bs : List Step} (first : runLe as bs = true)
    (later : runLe bs as = true) : as = bs := by
  induction as generalizing bs with
  | nil =>
    cases bs with
    | nil => rfl
    | cons => simp [runLe] at later
  | cons a as ih =>
    cases bs with
    | nil => simp [runLe] at first
    | cons b bs =>
      by_cases same : a = b
      · subst same
        simp only [runLe, if_true] at first later
        rw [ih first later]
      · simp only [runLe, same, Ne.symm same, if_false, lt_iff_key] at first later
        exact absurd later (lt_asymm first)

theorem runLe_trans {as bs cs : List Step} (first : runLe as bs = true)
    (later : runLe bs cs = true) : runLe as cs = true := by
  induction as generalizing bs cs with
  | nil => simp [runLe]
  | cons a as ih =>
    cases bs with
    | nil => simp [runLe] at first
    | cons b bs =>
      cases cs with
      | nil => simp [runLe] at later
      | cons c cs =>
        by_cases ab : a = b
        · subst ab
          by_cases ac : a = c
          · subst ac
            simp only [runLe, if_true] at first later ⊢
            exact ih first later
          · simpa [runLe, ac] using later
        · by_cases bc : b = c
          · subst bc
            simpa [runLe, ab] using first
          · simp only [runLe, ab, bc, if_false, lt_iff_key] at first later
            have below := lt_trans first later
            have ac : a ≠ c := fun same => below.ne (congrArg key same)
            simpa [runLe, ac, lt_iff_key] using below

end Step

namespace Path

/-- The order of paths, those with the same steps set aside. -/
def Before (p q : Path) : Prop := p.le q = true ∧ p.steps ≠ q.steps

theorem not_before_self (p : Path) : ¬ p.Before p := fun before => before.2 rfl

theorem before_asymm {p q : Path} (first : p.Before q) (later : q.Before p) : False :=
  first.2 (Step.runLe_antisymm first.1 later.1)

theorem inOrder_before {paths : List Path} (distinct : (paths.map steps).Nodup) :
    (Text.inOrder le paths).Pairwise Before := by
  have sorted := Text.inOrder_sorted (fun p q : Path => Step.runLe_total p.steps q.steps)
    (fun _ _ _ => Step.runLe_trans) paths
  have apart : ((Text.inOrder le paths).map steps).Nodup :=
    ((Text.inOrder_perm le paths).map steps).nodup_iff.mpr distinct
  exact sorted.and (List.pairwise_map.mp apart)

theorem inOrder_congr {paths paths' : List Path} (distinct : (paths.map steps).Nodup)
    (perm : paths'.Perm paths) : Text.inOrder le paths' = Text.inOrder le paths := by
  have distinct' : (paths'.map steps).Nodup := (perm.map steps).nodup_iff.mpr distinct
  have arranged : (Text.inOrder le paths').Perm (Text.inOrder le paths) :=
    (Text.inOrder_perm le paths').trans (perm.trans (Text.inOrder_perm le paths).symm)
  refine arranged.eq_of_pairwise ?_ (inOrder_before distinct') (inOrder_before distinct)
  intro p q _ _ first later
  exact (before_asymm first later).elim

end Path

end GoSpy
