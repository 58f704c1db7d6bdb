import GoSpy.Proofs.Text.Names
import GoSpy.Proofs.Syntax.NormalForm
import GoSpy.Artifact.Import
/- The names of generated code are identifiers. Keywords are made of lower case letters only, so
   that a name with any other character is none of them. -/
namespace GoSpy

theorem keyword_lower {w : String} (keyword : isKeyword w = true) :
    ∀ c ∈ w.toList, c.isLower = true := by
  have lower : keywords.all (fun w => w.toList.all Char.isLower) = true := by decide
  have member : w ∈ keywords := by simpa [isKeyword] using keyword
  exact List.all_eq_true.mp (List.all_eq_true.mp lower w member)

theorem isIdentifier_append {front back : String} (word : Text.isWord front = true)
    (continues : back.toList.all Text.continuesName = true)
    (marked : back.toList.all Char.isLower = false) : isIdentifier (front ++ back) = true := by
  obtain ⟨c, more, shape, starts, later⟩ := (Text.isWord_iff front).mp word
  have whole : Text.isWord (front ++ back) = true := by
    refine (Text.isWord_iff _).mpr ⟨c, more ++ back.toList, by simp [shape], starts, ?_⟩
    intro d member
    rcases List.mem_append.mp member with inFront | inBack
    · exact later d inFront
    · exact List.all_eq_true.mp continues d inBack
  have free : isKeyword (front ++ back) = false := by
    by_contra keyword
    rw [Bool.not_eq_false] at keyword
    have lower := keyword_lower keyword
    rw [String.toList_append, List.forall_mem_append] at lower
    rw [List.all_eq_true.mpr lower.2] at marked
    cases marked
  simp [isIdentifier, whole, free]

theorem continuesName_of_isDigit {c : Char} (digit : c.isDigit = true) :
    Text.continuesName c = true := by
  simp [Text.continuesName, Text.isLetterOrNumber, Text.isAscii_of_isDigit digit,
    Char.isAlphanum, digit]

theorem isLower_of_isDigit {c : Char} (digit : c.isDigit = true) : c.isLower = false := by
  unfold Char.isLower
  simp only [Char.isDigit, Bool.and_eq_true, Bool.and_eq_false_iff,
    decide_eq_true_eq, decide_eq_false_iff_not, ge_iff_le, UInt32.le_iff_toNat_le] at digit ⊢
  have bound : c.val.toNat ≤ 57 := digit.2
  have least : 'a'.val.toNat = 97 := rfl
  omega

theorem isDigit_of_number {n : Nat} {c : Char} (member : c ∈ (toString n).toList) :
    c.isDigit = true := by
  rw [Nat.toString_eq_repr, Nat.toList_repr] at member
  exact Nat.isDigit_of_mem_toDigits (by decide) (by decide) member

theorem exists_digit (n : Nat) : ∃ c, c ∈ (toString n).toList := by
  rw [Nat.toString_eq_repr, Nat.toList_repr]
  exact List.exists_mem_of_ne_nil _ Nat.toDigits_ne_nil

theorem isIdentifier_numbered {front : String} (word : Text.isWord front = true) (n : Nat) :
    isIdentifier (front ++ toString n) = true := by
  have digits : ∀ c ∈ (toString n).toList, c.isDigit = true := fun _ => isDigit_of_number
  obtain ⟨c, member⟩ := exists_digit n
  refine isIdentifier_append word ?_ ?_
  · exact List.all_eq_true.mpr fun d inDigits => continuesName_of_isDigit (digits d inDigits)
  · exact List.all_eq_false.mpr ⟨c, member, by simp [isLower_of_isDigit (digits c member)]⟩

namespace Naming

theorem field_identifier {method : String} (identifier : isIdentifier method = true) :
    isIdentifier (calledField method) = true ∧ isIdentifier (inputField method) = true ∧
      isIdentifier (outputField method) = true := by
  have word := ((isIdentifier_iff method).mp identifier).1
  exact ⟨isIdentifier_append word (by decide) (by decide),
    isIdentifier_append word (by decide) (by decide),
    isIdentifier_append word (by decide) (by decide)⟩

theorem argField_identifier (index : Nat) : isIdentifier (argField index) = true :=
  isIdentifier_numbered rfl index

theorem retField_identifier (index : Nat) : isIdentifier (retField index) = true :=
  isIdentifier_numbered rfl index

theorem receiverCandidate_identifier (n : Nat) : isIdentifier (receiverCandidate n) = true := by
  match n with
  | 0 | 1 | 2 => decide
  | n + 3 => exact isIdentifier_numbered rfl n

theorem paramName_identifier (underscores index : Nat) :
    isIdentifier (paramName (paramStem underscores) index) = true := by
  refine isIdentifier_numbered ?_ index
  refine (Text.isWord_iff _).mpr ⟨'a', ['r', 'g'] ++ List.replicate underscores '_', ?_, rfl, ?_⟩
  · simp [paramStem]
  · intro c member
    simp only [List.mem_append, List.mem_cons, List.not_mem_nil, or_false,
      List.mem_replicate] at member
    rcases member with (rfl | rfl) | ⟨_, rfl⟩ <;> decide

end Naming

theorem Binding.candidate_identifier {wanted : String} (identifier : isIdentifier wanted = true)
    (n : Nat) : isIdentifier (candidate wanted n) = true := by
  cases n with
  | zero => exact identifier
  | succ n => exact isIdentifier_numbered ((isIdentifier_iff wanted).mp identifier).1 (n + 2)

end GoSpy
