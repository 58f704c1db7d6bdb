import GoSpy.Text.Class
import Mathlib.Data.List.TakeWhile
/- What the characters of names are not: white space, and digits at the front. In ASCII this is
   checked character by character, beyond it is read off the tables. -/
namespace GoSpy.Text

theorem of_ascii {p : Char → Bool} (all : (List.range 128).all (fun n => p (Char.ofNat n)) = true)
    {c : Char} (ascii : isAscii c = true) : p c = true := by
  have bound : c.toNat < 128 := by simpa [isAscii] using ascii
  have here := List.all_eq_true.mp all c.toNat (List.mem_range.mpr bound)
  rwa [Char.ofNat_toNat] at here

theorem within_iff {ranges : List (Nat × Nat)} {c : Char} :
    within ranges c = true ↔ ∃ r ∈ ranges, r.1 ≤ c.toNat ∧ c.toNat ≤ r.2 := by
  simp [within]

theorem letters_blanks_disjoint :
    (blankRanges.all fun b => letterRanges.all fun l =>
      decide (b.2 < l.1) || decide (l.2 < b.1)) = true := by
  decide +kernel

theorem isBlank_of_startsName {c : Char} (starts : startsName c = true) : isBlank c = false := by
  by_cases ascii : isAscii c = true
  · have checked := of_ascii (p := fun c => !startsName c || !isBlank c) (by decide +kernel) ascii
    simpa [starts] using checked
  · have letter : within letterRanges c = true := by
      simp only [startsName, isLetter, ascii, Bool.or_eq_true, beq_iff_eq] at starts
      rcases starts with letter | rfl
      · exact letter
      · exact absurd (by decide) ascii
    obtain ⟨l, inLetters, above, below⟩ := within_iff.mp letter
    by_contra blank
    rw [Bool.not_eq_false, isBlank, if_neg ascii] at blank
    obtain ⟨b, inBlanks, above', below'⟩ := within_iff.mp blank
    have apart := List.all_eq_true.mp
      (List.all_eq_true.mp letters_blanks_disjoint b inBlanks) l inLetters
    simp only [Bool.or_eq_true, decide_eq_true_eq] at apart
    omega

theorem isAscii_of_isDigit {c : Char} (digit : c.isDigit = true) : isAscii c = true := by
  simp only [Char.isDigit, Bool.and_eq_true, decide_eq_true_eq, ge_iff_le,
    UInt32.le_iff_toNat_le] at digit
  have bound : c.toNat ≤ 57 := digit.2
  simp only [isAscii, decide_eq_true_eq]
  omega

theorem isDigit_of_startsName {c : Char} (starts : startsName c = true) : c.isDigit = false := by
  by_contra digit
  rw [Bool.not_eq_false] at digit
  have checked := of_ascii (p := fun c => !startsName c || !c.isDigit) (by decide +kernel)
    (isAscii_of_isDigit digit)
  simp [starts, digit] at checked

theorem isBlank_of_isDigit {c : Char} (digit : c.isDigit = true) : isBlank c = false := by
  have checked := of_ascii (p := fun c => !c.isDigit || !isBlank c) (by decide +kernel)
    (isAscii_of_isDigit digit)
  simpa [digit] using checked

theorem continuesName_of_startsName {c : Char} (starts : startsName c = true) :
    continuesName c = true := by
  simp only [startsName, continuesName, Bool.or_eq_true, isLetter, isLetterOrNumber] at *
  rcases starts with letter | underscore
  · left
    split
    · rename_i ascii
      rw [if_pos ascii] at letter
      simp [Char.isAlphanum, letter]
    · rename_i beyond
      rw [if_neg beyond] at letter
      simp [letter]
  · exact Or.inr underscore

/-- Whether a text is one word of source text, keywords included. -/
def isWord (text : String) : Bool :=
  match text.toList with
  | [] => false
  | c :: rest => startsName c && rest.all continuesName

theorem isWord_iff (text : String) : isWord text = true ↔
    ∃ c rest, text.toList = c :: rest ∧ startsName c = true ∧
      ∀ d ∈ rest, continuesName d = true := by
  unfold isWord
  split
  · simp_all
  · rename_i c rest shape
    simp only [shape, Bool.and_eq_true, List.all_eq_true]
    constructor
    · exact fun word => ⟨c, rest, rfl, word⟩
    · rintro ⟨_, _, same, word⟩
      obtain ⟨rfl, rfl⟩ := List.cons.inj same
      exact word

theorem continuesName_of_isWord {text : String} (word : isWord text = true) :
    ∀ c ∈ text.toList, continuesName c = true := by
  obtain ⟨c, rest, shape, starts, continues⟩ := (isWord_iff text).mp word
  intro d member
  rw [shape] at member
  rcases List.mem_cons.mp member with rfl | later
  · exact continuesName_of_startsName starts
  · exact continues d later

end GoSpy.Text
