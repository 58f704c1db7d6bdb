import GoSpy.Store.Path
import Mathlib.Data.List.Basic
/- Paths by their steps: a plain name joined to a directory is one step more, and the place of
   a file says in which directory it lies and how the file is called. -/
namespace GoSpy

namespace Text

theorem cutAt_ne_nil (mark : Char) (text : List Char) : cutAt mark text ≠ [] := by
  cases text with
  | nil => simp [cutAt]
  | cons c rest =>
    unfold cutAt
    split
    · simp
    · split <;> simp

theorem cutAt_unmarked {mark : Char} {text : List Char} (clear : mark ∉ text) :
    cutAt mark text = [text] := by
  induction text with
  | nil => rfl
  | cons c rest ih =>
    simp only [List.mem_cons, not_or] at clear
    simp [cutAt, Ne.symm clear.1, ih clear.2]

theorem cutAt_append_mark (mark : Char) (front rest : List Char) :
    cutAt mark (front ++ mark :: rest) = cutAt mark front ++ cutAt mark rest := by
  induction front with
  | nil => simp [cutAt]
  | cons c front ih =>
    simp only [List.cons_append, cutAt, ih]
    by_cases same : c = mark
    · simp [same]
    · simp only [same, if_false]
      cases parts : cutAt mark front with
      | nil => exact absurd parts (cutAt_ne_nil mark front)
      | cons part parts => rfl

theorem cutAt_single {mark : Char} {text part : List Char} (cut : cutAt mark text = [part]) :
    text = part := by
  induction text generalizing part with
  | nil => simpa [cutAt] using cut
  | cons c rest ih =>
    unfold cutAt at cut
    split at cut
    · exact absurd (List.cons.inj cut).2 (cutAt_ne_nil mark rest)
    · split at cut
      · rename_i first parts eq
        obtain ⟨rfl, rfl⟩ := List.cons.inj cut
        rw [ih eq]
      · rename_i eq
        exact absurd eq (cutAt_ne_nil mark rest)

theorem part_unmarked {mark : Char} {text part : List Char} (member : part ∈ cutAt mark text) :
    mark ∉ part := by
  induction text generalizing part with
  | nil => simp_all [cutAt]
  | cons c rest ih =>
    unfold cutAt at member
    split at member
    · rcases List.mem_cons.mp member with rfl | later
      · exact List.not_mem_nil
      · exact ih later
    · rename_i other
      split at member
      · rename_i parts eq
        rcases List.mem_cons.mp member with rfl | later
        · have tail : mark ∉ _ := ih (eq ▸ List.mem_cons_self)
          simp [tail, Ne.symm other]
        · exact ih (eq ▸ List.mem_cons_of_mem _ later)
      · simp_all [Ne.symm other]

end Text

/-- The name of a file or a directory: one part of a path, and not `.` or `..`. -/
structure PlainName (name : String) : Prop where
  nonempty : name ≠ ""
  notHere : name ≠ "."
  notUp : name ≠ ".."
  onePart : '/' ∉ name.toList

namespace Step

theorem ofText_plain {name : String} (plain : PlainName name) : ofText name = .name name := by
  simp [ofText, plain.notUp]

/-- Where something can lie: names from the root or from the working directory on. -/
def Settled (steps : List Step) : Prop :=
  ∃ names : List String, (∀ name ∈ names, PlainName name) ∧
    (steps = names.map .name ∨ steps = .root :: names.map .name)

theorem settled_nil : Settled [] := ⟨[], by simp, Or.inl rfl⟩

theorem settled_root : Settled [.root] := ⟨[], by simp, Or.inr rfl⟩

theorem settled_snoc {steps : List Step} {name : String} (settled : Settled steps)
    (plain : PlainName name) : Settled (steps ++ [.name name]) := by
  obtain ⟨names, all, shape⟩ := settled
  refine ⟨names ++ [name], ?_, ?_⟩
  · simpa [or_imp, forall_and] using ⟨all, plain⟩
  · rcases shape with rfl | rfl <;> simp

theorem settled_dropLast {steps : List Step} (settled : Settled steps) :
    Settled steps.dropLast := by
  obtain ⟨names, all, shape⟩ := settled
  have shorter : ∀ name ∈ names.dropLast, PlainName name := fun name member =>
    all name (List.dropLast_subset _ member)
  rcases shape with rfl | rfl
  · exact ⟨names.dropLast, shorter, Or.inl (by simp [List.map_dropLast])⟩
  · cases names with
    | nil => exact settled_nil
    | cons name names =>
      exact ⟨(name :: names).dropLast, shorter, Or.inr (by simp [List.map_dropLast])⟩

def Inner (step : Step) : Prop := step = .up ∨ ∃ name, PlainName name ∧ step = .name name

theorem runText_names (name : String) (names : List String)
    (plain : ∀ n ∈ name :: names, PlainName n) :
    Text.cutAt '/' (runText ((name :: names).map .name)).toList =
      (name :: names).map String.toList := by
  induction names generalizing name with
  | nil =>
    have clear := (plain name List.mem_cons_self).onePart
    simpa [runText, text] using Text.cutAt_unmarked clear
  | cons next names ih =>
    have clear := (plain name List.mem_cons_self).onePart
    have later := ih next fun n member => plain n (List.mem_cons_of_mem _ member)
    have shape : (runText ((name :: next :: names).map .name)).toList =
        name.toList ++ '/' :: (runText ((next :: names).map .name)).toList := by
      simp [runText, text]
    rw [shape, Text.cutAt_append_mark, Text.cutAt_unmarked clear, later]
    rfl

end Step

namespace Path

def innerSteps (parts : List String) : List Step :=
  (parts.filter fun part => part != "" && part != ".").map Step.ofText

def leadSteps (first : String) (more : Bool) : List Step :=
  if first = "." then [.here] else if first = "" ∧ more then [.root] else []

theorem innerSteps_append (front rest : List String) :
    innerSteps (front ++ rest) = innerSteps front ++ innerSteps rest := by
  simp [innerSteps]

theorem innerSteps_plain {name : String} (plain : PlainName name) :
    innerSteps [name] = [.name name] := by
  simp [innerSteps, plain.nonempty, plain.notHere, Step.ofText_plain plain]

theorem steps_eq (p : Path) {first : List Char} {parts : List (List Char)}
    (cut : Text.cutAt '/' p.text.toList = first :: parts) :
    p.steps = leadSteps (String.ofList first) (!parts.isEmpty) ++
      innerSteps (String.ofList first :: parts.map String.ofList) := by
  simp only [steps, cut, List.map_cons]
  generalize String.ofList first = head
  unfold leadSteps
  cases parts with
  | nil => split <;> simp_all [innerSteps]
  | cons next parts => split <;> simp_all [innerSteps]

theorem steps_parts {p : Path} {first part : List Char} {parts : List (List Char)}
    (cut : Text.cutAt '/' p.text.toList = first :: (parts ++ [part])) :
    p.steps = leadSteps (String.ofList first) true ++
      innerSteps (String.ofList first :: parts.map String.ofList) ++
        innerSteps [String.ofList part] := by
  have more : (!(parts ++ [part]).isEmpty) = true := by simp
  rw [steps_eq p cut, more, List.map_append, List.map_cons, List.map_nil, ← List.cons_append,
    innerSteps_append, List.append_assoc]

theorem join_part (dir : Path) {name : String} (onePart : '/' ∉ name.toList) :
    dir.join name = if dir.text = "" || dir.text.toList.getLast? == some '/' then ⟨dir.text ++ name⟩
      else ⟨dir.text ++ "/" ++ name⟩ := by
  have relative : isAbsolute ⟨name⟩ = false := by
    simp only [isAbsolute, beq_eq_false_iff_ne]
    exact fun lead => onePart (List.mem_of_head? lead)
  rw [join, relative]
  rfl

theorem steps_behind_nothing {name : String} (onePart : '/' ∉ name.toList) (notHere : name ≠ ".") :
    steps ⟨name⟩ = steps ⟨""⟩ ++ innerSteps [name] := by
  have nothing : steps ⟨""⟩ = [] := by decide
  have own : leadSteps name false = [] := by simp [leadSteps, notHere]
  rw [steps_eq ⟨name⟩ (Text.cutAt_unmarked onePart), String.ofList_toList, nothing]
  exact congrArg (· ++ innerSteps [name]) own

theorem steps_behind_slash {dir : Path} {name : String} (onePart : '/' ∉ name.toList)
    (slash : dir.text.toList.getLast? = some '/') :
    steps ⟨dir.text ++ name⟩ = dir.steps ++ innerSteps [name] := by
  obtain ⟨front, shape⟩ := List.getLast?_eq_some_iff.mp slash
  obtain ⟨first, parts, cut⟩ := List.exists_cons_of_ne_nil (Text.cutAt_ne_nil '/' front)
  have before : Text.cutAt '/' dir.text.toList = first :: (parts ++ [[]]) := by
    rw [shape, Text.cutAt_append_mark, cut]
    rfl
  have after : Text.cutAt '/' (dir.text ++ name).toList = first :: (parts ++ [name.toList]) := by
    rw [String.toList_append, shape, List.append_assoc, List.singleton_append,
      Text.cutAt_append_mark, cut, Text.cutAt_unmarked onePart]
    rfl
  have dropped : innerSteps [""] = [] := rfl
  rw [steps_parts (p := ⟨_⟩) after, steps_parts before, String.ofList_toList, String.ofList_nil,
    dropped, List.append_nil]

theorem steps_behind_part {dir : Path} {name : String} (onePart : '/' ∉ name.toList)
    (nonempty : dir.text ≠ "") :
    steps ⟨dir.text ++ "/" ++ name⟩ = dir.steps ++ innerSteps [name] := by
  obtain ⟨first, parts, cut⟩ :=
    List.exists_cons_of_ne_nil (Text.cutAt_ne_nil '/' dir.text.toList)
  have after : Text.cutAt '/' (dir.text ++ "/" ++ name).toList =
      first :: (parts ++ [name.toList]) := by
    have shape : (dir.text ++ "/" ++ name).toList = dir.text.toList ++ '/' :: name.toList := by simp
    rw [shape, Text.cutAt_append_mark, cut, Text.cutAt_unmarked onePart]
    rfl
  have lead : leadSteps (String.ofList first) (!parts.isEmpty) =
      leadSteps (String.ofList first) true := by
    cases parts with
    | cons => rfl
    | nil =>
      have text := Text.cutAt_single cut
      have some : String.ofList first ≠ "" := by simpa [← text] using nonempty
      simp [leadSteps, some]
  rw [steps_parts (p := ⟨_⟩) after, steps_eq dir cut, lead, String.ofList_toList]

/-- A name of one part goes behind the steps of the directory; a dot alone counts only where the
    directory is the working directory without a name. -/
theorem steps_join_part (dir : Path) {name : String} (onePart : '/' ∉ name.toList)
    (notHere : dir.text = "" → name ≠ ".") :
    (dir.join name).steps = dir.steps ++ innerSteps [name] := by
  rw [join_part dir onePart]
  by_cases empty : dir.text = ""
  · obtain rfl : dir = ⟨""⟩ := congrArg Path.mk empty
    simpa using steps_behind_nothing onePart (notHere rfl)
  · by_cases slash : dir.text.toList.getLast? = some '/'
    · simpa [slash] using steps_behind_slash onePart slash
    · simpa [empty, slash] using steps_behind_part onePart empty

theorem steps_join (dir : Path) {name : String} (plain : PlainName name) :
    (dir.join name).steps = dir.steps ++ [.name name] := by
  rw [steps_join_part dir plain.onePart fun _ => plain.notHere, innerSteps_plain plain]

theorem innerSteps_inner {parts : List String} (clear : ∀ part ∈ parts, '/' ∉ part.toList) :
    ∀ step ∈ innerSteps parts, step.Inner := by
  intro step member
  simp only [innerSteps, List.mem_map, List.mem_filter, Bool.and_eq_true, bne_iff_ne] at member
  obtain ⟨part, ⟨inParts, nonempty, notHere⟩, rfl⟩ := member
  by_cases up : part = ".."
  · exact Or.inl (by simp [Step.ofText, up])
  · exact Or.inr ⟨part, ⟨nonempty, notHere, up, clear part inParts⟩, by simp [Step.ofText, up]⟩

theorem settle_inner {done steps : List Step} (settled : Step.Settled done)
    (inner : ∀ step ∈ steps, step.Inner) : Step.Settled (settle done steps) := by
  induction steps generalizing done with
  | nil => exact settled
  | cons step rest ih =>
    have later := fun s member => inner s (List.mem_cons_of_mem step member)
    rcases inner step List.mem_cons_self with rfl | ⟨name, plain, rfl⟩
    · exact ih (Step.settled_dropLast settled) later
    · exact ih (Step.settled_snoc settled plain) later

theorem lexical_settled (p : Path) : Step.Settled p.lexical := by
  obtain ⟨first, parts, cut⟩ :=
    List.exists_cons_of_ne_nil (Text.cutAt_ne_nil '/' p.text.toList)
  have clear : ∀ part ∈ String.ofList first :: parts.map String.ofList, '/' ∉ part.toList := by
    intro part member
    rw [← List.map_cons, ← cut, List.mem_map] at member
    obtain ⟨chars, inCut, rfl⟩ := member
    simpa using Text.part_unmarked inCut
  have inner := innerSteps_inner clear
  rw [lexical, steps_eq p cut, leadSteps]
  split
  · change Step.Settled (settle [] (innerSteps _))
    exact settle_inner Step.settled_nil inner
  · split
    · change Step.Settled (settle [.root] (innerSteps _))
      exact settle_inner Step.settled_root inner
    · exact settle_inner Step.settled_nil inner

theorem settle_snoc (done steps : List Step) (name : String) :
    settle done (steps ++ [.name name]) = settle done steps ++ [.name name] := by
  induction steps generalizing done with
  | nil => simp [settle]
  | cons step rest ih => cases step <;> simp [settle, ih]

theorem lexical_join (dir : Path) {name : String} (plain : PlainName name) :
    (dir.join name).lexical = dir.lexical ++ [.name name] := by
  rw [lexical, steps_join dir plain, settle_snoc]
  rfl

theorem settle_append (done front rest : List Step) :
    settle done (front ++ rest) = settle (settle done front) rest := by
  induction front generalizing done with
  | nil => rfl
  | cons step front ih => cases step <;> exact ih _

theorem plain_of_lexical_join {dir : Path} {name called : String} (onePart : '/' ∉ called.toList)
    (place : (dir.join called).lexical = dir.lexical ++ [.name name]) : PlainName called := by
  have longer : (dir.join called).lexical.length = dir.lexical.length + 1 := by simp [place]
  have steps (notHere : dir.text = "" → called ≠ ".") :
      (dir.join called).lexical = settle dir.lexical (innerSteps [called]) := by
    rw [lexical, steps_join_part dir onePart notHere, settle_append]
    rfl
  refine ⟨?_, ?_, ?_, onePart⟩
  · rintro rfl
    have same : (dir.join "").lexical = dir.lexical := steps fun _ => by decide
    simp [same] at longer
  · rintro rfl
    by_cases empty : dir.text = ""
    · obtain rfl : dir = ⟨""⟩ := congrArg Path.mk empty
      exact absurd longer (by decide +kernel)
    · have same : (dir.join ".").lexical = dir.lexical := steps fun other => absurd other empty
      simp [same] at longer
  · rintro rfl
    have up : (dir.join "..").lexical = dir.lexical.dropLast := steps fun _ => by decide
    simp [up] at longer

theorem settle_names (done : List Step) (names : List String) :
    settle done (names.map .name) = done ++ names.map .name := by
  induction names generalizing done with
  | nil => simp [settle]
  | cons name names ih => simp [settle, ih]

theorem settle_settled {steps : List Step} (settled : Step.Settled steps) :
    settle [] steps = steps := by
  obtain ⟨names, _, rfl | rfl⟩ := settled
  · exact settle_names [] names
  · exact settle_names [.root] names

theorem steps_ofSteps {steps : List Step} (settled : Step.Settled steps) :
    (ofSteps steps).steps = steps := by
  obtain ⟨names, all, shape⟩ := settled
  have inner : innerSteps names = names.map .name := by
    rw [innerSteps, List.filter_eq_self.mpr]
    · exact List.map_congr_left fun name member => Step.ofText_plain (all name member)
    · intro name member
      simp [(all name member).nonempty, (all name member).notHere]
  have back : (names.map String.toList).map String.ofList = names := by simp
  cases names with
  | nil =>
    rcases shape with rfl | rfl
    · rfl
    · rfl
  | cons name names =>
    have cut := Step.runText_names name names all
    have plain := all name List.mem_cons_self
    rcases shape with rfl | rfl
    · rw [steps_eq (ofSteps _) cut]
      have lead (more : Bool) : leadSteps name more = [] := by
        simp [leadSteps, plain.notHere, plain.nonempty]
      rw [String.ofList_toList, lead]
      simpa using inner
    · have slash : Text.cutAt '/' (ofSteps (.root :: (name :: names).map .name)).text.toList =
          [] :: (name :: names).map String.toList := by
        rw [← cut]
        simp [ofSteps, Step.runText, Text.cutAt]
      rw [steps_eq (ofSteps _) slash]
      have lead : leadSteps (String.ofList []) true = [.root] := rfl
      have dropped : innerSteps (String.ofList [] :: name :: names) = innerSteps (name :: names) :=
        rfl
      simp only [back, dropped, inner]
      rfl

theorem lexical_ofSteps {steps : List Step} (settled : Step.Settled steps) :
    (ofSteps steps).lexical = steps := by
  rw [lexical, steps_ofSteps settled, settle_settled settled]

theorem fileName?_snoc {p : Path} {front : List Step} {name : String}
    (steps : p.steps = front ++ [.name name]) : p.fileName? = some name := by
  simp [fileName?, steps]

theorem fileName?_join (dir : Path) {name : String} (plain : PlainName name) :
    (dir.join name).fileName? = some name := fileName?_snoc (steps_join dir plain)

end Path

end GoSpy
