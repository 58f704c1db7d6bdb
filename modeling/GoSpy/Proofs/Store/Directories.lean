import GoSpy.Proofs.Store.Reading
/- Files in memory as directories. A file lies below a directory if its parent is the directory or lies
   below it itself. Files are read and listed by that, but a directory counts as there by its steps
   alone: a file is a directory without files, and so is the empty path where some path is absolute. -/
namespace GoSpy

namespace Path

inductive Below (dir : List Step) : List Step → Prop where
  | inside {place : List Step} (parent : parent? place = some dir) : Below dir place
  | deeper {place between : List Step} (parent : parent? place = some between)
      (below : Below dir between) : Below dir place

theorem below_iff {dir place : List Step} (settled : Step.Settled place) :
    Below dir place ↔ ∃ names : List String, names ≠ [] ∧ place = dir ++ names.map .name := by
  constructor
  · intro below
    induction below with
    | inside parent =>
      obtain ⟨name, -, shape⟩ := Memory.settled_parent settled parent
      exact ⟨[name], by simp, shape⟩
    | @deeper place between parent _ ih =>
      obtain ⟨name, -, rfl⟩ := Memory.settled_parent settled parent
      have before : Step.Settled between := by simpa using Step.settled_dropLast settled
      obtain ⟨names, -, rfl⟩ := ih before
      exact ⟨names ++ [name], by simp, by simp⟩
  · rintro ⟨names, some, rfl⟩
    clear settled
    induction names using List.reverseRecOn with
    | nil => exact absurd rfl some
    | append_singleton names name ih =>
      have parent : parent? (dir ++ (names ++ [name]).map .name) = .some (dir ++ names.map .name) := by
        rw [List.map_append, ← List.append_assoc]
        simp [parent?]
      cases names with
      | nil => exact .inside (by simpa using parent)
      | cons first names => exact .deeper parent (ih (by simp))

theorem isPrefix_iff {dir place : List Step} (settled : Step.Settled place) :
    dir <+: place ↔
      place = dir ∨ Below dir place ∨ dir = [] ∧ place.head? = some .root := by
  rw [below_iff settled]
  constructor
  · rintro ⟨rest, rfl⟩
    by_cases nothing : rest = []
    · exact Or.inl (by simp [nothing])
    · obtain ⟨names, -, shape | shape⟩ := settled
      · obtain ⟨front, back, -, -, rfl⟩ := List.map_eq_append_iff.mp shape.symm
        exact Or.inr (Or.inl ⟨back, by simpa using nothing, rfl⟩)
      · cases dir with
        | nil => exact Or.inr (Or.inr ⟨rfl, by simp [shape]⟩)
        | cons first dir =>
          obtain ⟨-, shape⟩ := List.cons.inj shape
          obtain ⟨front, back, -, -, rfl⟩ := List.map_eq_append_iff.mp shape.symm
          exact Or.inr (Or.inl ⟨back, by simpa using nothing, rfl⟩)
  · rintro (rfl | ⟨names, -, rfl⟩ | ⟨rfl, -⟩)
    · exact List.prefix_rfl
    · exact List.prefix_append dir _
    · exact List.nil_prefix

end Path

namespace Memory

variable {files : List (Path × String)} (distinct : (files.map fun f => f.1.lexical).Nodup)

include distinct

theorem ofFiles_files : (ofFiles files).files = files.map fun f => (f.1.lexical, f.2) := by
  induction files using List.reverseRecOn with
  | nil => rfl
  | append_singleton files f ih =>
    rw [List.map_append, List.nodup_append] at distinct
    obtain ⟨before, -, apart⟩ := distinct
    have kept : (ofFiles files).files.filter (fun g => g.1 != f.1.lexical) = (ofFiles files).files := by
      refine List.filter_eq_self.mpr fun g member => ?_
      rw [ih before] at member
      obtain ⟨h, inFiles, rfl⟩ := List.mem_map.mp member
      simpa using apart _ (List.mem_map_of_mem inFiles) f.1.lexical (by simp)
    rw [ofFiles_snoc, put, kept, ih before, List.map_append]
    rfl

theorem read_iff (path : Path) (text : String) :
    (ofFiles files).read path = .ok text ↔ ∃ f ∈ files, f.1.lexical = path.lexical ∧ f.2 = text := by
  have sound {text : String} (read : (ofFiles files).read path = .ok text) :
      ∃ f ∈ files, f.1.lexical = path.lexical ∧ f.2 = text := by
    obtain ⟨g, member, place, same⟩ := read_eq_ok read
    rw [ofFiles_files distinct] at member
    obtain ⟨f, inFiles, rfl⟩ := List.mem_map.mp member
    exact ⟨f, inFiles, place, same⟩
  constructor
  · exact sound
  · rintro ⟨f, inFiles, place, rfl⟩
    have member : (f.1.lexical, f.2) ∈ (ofFiles files).files := by
      rw [ofFiles_files distinct]
      exact List.mem_map_of_mem inFiles
    obtain ⟨text, read⟩ := read_of_mem (ofFiles_placed files) member
    rw [read_congr _ ((Path.lexical_ofSteps f.1.lexical_settled).trans place)] at read
    obtain ⟨g, inFiles', place', rfl⟩ := sound read
    rwa [List.inj_on_of_nodup_map distinct inFiles inFiles' (place.trans place'.symm)]

/-- Where a directory counts as there: at a file, above a file, and at the empty path if a file's path
    is absolute. -/
theorem list_there_iff (dir : Path) :
    (∃ listed, (ofFiles files).list dir = .ok listed) ↔
      ∃ f ∈ files, f.1.lexical = dir.lexical ∨ Path.Below dir.lexical f.1.lexical ∨
        dir.lexical = [] ∧ f.1.lexical.head? = some .root := by
  have found : (ofFiles files).files.any (fun f => dir.lexical.isPrefixOf f.1) = true ↔
      ∃ f ∈ files, dir.lexical <+: f.1.lexical := by
    simp [ofFiles_files distinct]
  have shape : (∃ f ∈ files, dir.lexical <+: f.1.lexical) ↔
      ∃ f ∈ files, f.1.lexical = dir.lexical ∨ Path.Below dir.lexical f.1.lexical ∨
        dir.lexical = [] ∧ f.1.lexical.head? = some .root :=
    exists_congr fun f => and_congr_right fun _ => Path.isPrefix_iff f.1.lexical_settled
  rw [← shape, ← found, Memory.list]
  split <;> simp [*]

theorem mem_list_parent {dir : Path} {listed : List Path}
    (run : (ofFiles files).list dir = .ok listed) (path : Path) :
    path ∈ listed ↔ ∃ f ∈ files, Path.parent? f.1.lexical = some dir.lexical ∧
      path = .ofSteps f.1.lexical := by
  unfold Memory.list at run
  split at run
  · obtain rfl := Except.ok.inj run
    simp only [ofFiles_files distinct, List.mem_map, List.mem_filter, beq_iff_eq]
    constructor
    · rintro ⟨_, ⟨⟨f, inFiles, rfl⟩, parent⟩, rfl⟩
      exact ⟨f, inFiles, parent, rfl⟩
    · rintro ⟨f, inFiles, parent, rfl⟩
      exact ⟨_, ⟨⟨f, inFiles, rfl⟩, parent⟩, rfl⟩
  · cases run

end Memory

structure DirectoryView (files : List (Path × String)) (m : Memory) : Prop where
  read : ∀ path text, m.read path = .ok text ↔
    ∃ f ∈ files, f.1.lexical = path.lexical ∧ f.2 = text
  unread : ∀ path cause, m.read path = .error cause →
    cause = .notInMemory "file" (Step.runText path.lexical)
  there : ∀ dir, (∃ listed, m.list dir = .ok listed) ↔
    ∃ f ∈ files, f.1.lexical = dir.lexical ∨ Path.Below dir.lexical f.1.lexical ∨
      dir.lexical = [] ∧ f.1.lexical.head? = some .root
  absent : ∀ dir cause, m.list dir = .error cause →
    cause = .notInMemory "directory" (Step.runText dir.lexical)
  inside : ∀ dir listed, m.list dir = .ok listed → ∀ path, path ∈ listed ↔
    ∃ f ∈ files, Path.parent? f.1.lexical = some dir.lexical ∧ path = .ofSteps f.1.lexical
  once : ∀ dir listed, m.list dir = .ok listed → (listed.map Path.lexical).Nodup
  readable : ∀ dir listed, m.list dir = .ok listed → ∀ path ∈ listed,
    ∃ f ∈ files, f.1.lexical = path.lexical ∧ m.read path = .ok f.2
  spelling : ∀ p q : Path, p.lexical = q.lexical → m.read p = m.read q ∧ m.list p = m.list q
  settled : ∀ p : Path, (Path.ofSteps p.lexical).lexical = p.lexical
  /-- A directory is there exactly if a file lies below it, unless none does and it is the place of a
      file, or is empty where a file's path is absolute. -/
  exactly : ∀ dir,
    ((∃ listed, m.list dir = .ok listed) ↔ ∃ f ∈ files, Path.Below dir.lexical f.1.lexical) ↔
      (∃ f ∈ files, Path.Below dir.lexical f.1.lexical) ∨
        ∀ f ∈ files, f.1.lexical ≠ dir.lexical ∧
          (dir.lexical = [] → f.1.lexical.head? ≠ some .root)

/-- The files of a memory are read and listed where their paths lead, however these are spelled; only
    which directories are there is not told by what lies below them alone. -/
theorem Memory.directory_view {files : List (Path × String)}
    (distinct : (files.map fun f => f.1.lexical).Nodup) : DirectoryView files (ofFiles files) := by
  have placed := ofFiles_placed files
  have there := list_there_iff distinct
  refine {
    read := read_iff distinct
    unread := ?_
    there := there
    absent := ?_
    inside := fun dir listed run => mem_list_parent distinct run
    once := ?_
    readable := ?_
    spelling := ?_
    settled := fun p => Path.lexical_ofSteps p.lexical_settled
    exactly := ?_ }
  · intro path cause failed
    unfold Memory.read at failed
    split at failed
    · cases failed
    · exact (Except.error.inj failed).symm
  · intro dir cause failed
    unfold Memory.list at failed
    split at failed
    · cases failed
    · exact (Except.error.inj failed).symm
  · intro dir listed run
    have same : listed.map Path.lexical = listed.map Path.steps := by
      refine List.map_congr_left fun path member => ?_
      obtain ⟨f, -, -, rfl⟩ := (mem_list_parent distinct run path).mp member
      have settled := f.1.lexical_settled
      rw [Path.lexical_ofSteps settled, Path.steps_ofSteps settled]
    rw [same]
    exact list_distinct placed (ofFiles_distinct files) run
  · intro dir listed run path member
    obtain ⟨f, inFiles, -, rfl⟩ := (mem_list_parent distinct run path).mp member
    have back := Path.lexical_ofSteps f.1.lexical_settled
    exact ⟨f, inFiles, back.symm, (read_iff distinct _ _).mpr ⟨f, inFiles, back.symm, rfl⟩⟩
  · intro p q same
    refine ⟨read_congr _ same, ?_⟩
    unfold Memory.list
    rw [same]
  · intro dir
    rw [there]
    constructor
    · intro agree
      -- With no file below it, a directory is there in the two other ways only.
      by_cases below : ∃ f ∈ files, Path.Below dir.lexical f.1.lexical
      · exact Or.inl below
      · refine Or.inr fun f inFiles => ⟨?_, ?_⟩
        · intro here
          exact below (agree.mp ⟨f, inFiles, Or.inl here⟩)
        · intro empty absolute
          exact below (agree.mp ⟨f, inFiles, Or.inr (Or.inr ⟨empty, absolute⟩)⟩)
    · intro agree
      constructor
      · rintro ⟨f, inFiles, here | below | ⟨empty, absolute⟩⟩
        · exact agree.resolve_right fun apart => (apart f inFiles).1 here
        · exact ⟨f, inFiles, below⟩
        · exact agree.resolve_right fun apart => (apart f inFiles).2 empty absolute
      · rintro ⟨f, inFiles, below⟩
        exact ⟨f, inFiles, Or.inr (Or.inl below)⟩

def dottedFiles : List (Path × String) :=
  [(⟨"/pkg/./doer.go"⟩, "package example\n"), (⟨"/pkg//sub/../sub/b.go"⟩, "package b\n"),
    (⟨"/../w.go"⟩, "package w\n")]

theorem Memory.dottedFiles_view :
    dottedFiles.map (fun f => Step.runText f.1.lexical) = ["/pkg/doer.go", "/pkg/sub/b.go", "w.go"] ∧
      (dottedFiles.map fun f => f.1.lexical).Nodup ∧
        DirectoryView dottedFiles (ofFiles dottedFiles) :=
  have distinct : (dottedFiles.map fun f => f.1.lexical).Nodup := by decide +kernel
  ⟨by decide +kernel, distinct, directory_view distinct⟩

/-- The path of a file counts as a directory without files, although nothing lies below it. -/
theorem Memory.file_listed :
    (ofFiles [(⟨"/pkg/a.go"⟩, "package a\n")]).list ⟨"/pkg/a.go"⟩ = .ok [] ∧
      ¬ ((∃ listed, (ofFiles [(⟨"/pkg/a.go"⟩, "package a\n")]).list ⟨"/pkg/a.go"⟩ = .ok listed) ↔
        ∃ f ∈ [((⟨"/pkg/a.go"⟩ : Path), "package a\n")],
          Path.Below (Path.mk "/pkg/a.go").lexical f.1.lexical) := by
  have run : (ofFiles [(⟨"/pkg/a.go"⟩, "package a\n")]).list ⟨"/pkg/a.go"⟩ = .ok [] := by
    decide +kernel
  refine ⟨run, fun agree => ?_⟩
  obtain ⟨f, inFiles, below⟩ := agree.mp ⟨[], run⟩
  obtain rfl := List.mem_singleton.mp inFiles
  obtain ⟨names, some, shape⟩ := (Path.below_iff (Path.lexical_settled _)).mp below
  have here : (Path.mk "/pkg/a.go").lexical = (Path.mk "/pkg/a.go").lexical ++ names.map .name := shape
  exact some (List.map_eq_nil_iff.mp (List.self_eq_append_right.mp here))

end GoSpy
