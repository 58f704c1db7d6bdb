import GoSpy.Proofs.Store.Reading
/- How the files that a directory lists are grouped into packages, and which failure is reported.
   Neither depends on the order of the listing, since the paths are put in order first. -/
namespace GoSpy.Package

def Eligible (exclude : List String) (path : Path) : Prop :=
  ∃ name, path.fileName? = some name ∧ (∃ stem, name = stem ++ ".go") ∧
    (∀ stem, name ≠ stem ++ "_test.go") ∧ name ∉ exclude

/-- A text with the mark of generated code on a line in front of all that begin with `package`. -/
def Marked (text : String) : Prop :=
  ∃ before tool after, textLines text =
      before ++ ("// Code generated ".toList ++ tool ++ " DO NOT EDIT.".toList) :: after ∧
    ∀ line ∈ before, ¬ "package".toList <+: line

def MarkedArtifact (exclude : List String) (path : Path) (text : String) : Prop :=
  (∃ package, package ≠ "" ∧ ∃ out ∈ exclude,
    path.fileName? = some (package ++ "_" ++ out)) ∧ Marked text

/-- A file that cannot be read, or that is no artifact and cannot be parsed. -/
inductive Fails (source : FileSource) (exclude : List String) (path : Path) : LoadError → Prop
  | unreadable {cause : IoError} : source.read path = .error cause →
      Fails source exclude path (.unreadable path cause)
  | unparsable {text : String} {error : SourceError} : source.read path = .ok text →
      ¬ MarkedArtifact exclude path text → SourceFile.ofText path.text text = .error error →
      Fails source exclude path (.source error)

def FirstFailure (source : FileSource) (exclude : List String) (listed : List Path)
    (error : LoadError) : Prop :=
  ∃ path ∈ listed, Eligible exclude path ∧ Fails source exclude path error ∧
    ∀ earlier ∈ listed, Eligible exclude earlier → earlier.Before path →
      ∀ other, ¬ Fails source exclude earlier other

/-- Packages that hold each source among the listed files once, in the package it names. -/
structure Grouped (source : FileSource) (exclude : List String) (listed : List Path)
    (packages : List Package) : Prop where
  names : (packages.map Package.name).Pairwise (· < ·)
  nonempty : ∀ p ∈ packages, p.files ≠ []
  named : ∀ p ∈ packages, ∀ f ∈ p.files, f.file.package = p.name
  ordered : ∀ p ∈ packages, p.files.Pairwise fun f g => f.path.Before g.path
  parsed : ∀ p ∈ packages, ∀ f ∈ p.files, ∃ text, source.read f.path = .ok text ∧
    SourceFile.ofText f.path.text text = .ok f.file
  once : ((packages.flatMap Package.files).map fun f => f.path.steps).Nodup
  sources : ∀ path, (∃ p ∈ packages, ∃ f ∈ p.files, f.path = path) ↔
    path ∈ listed ∧ Eligible exclude path ∧
      ∃ text, source.read path = .ok text ∧ ¬ MarkedArtifact exclude path text

theorem isSuffixOf_iff (suffix name : String) :
    suffix.toList.isSuffixOf name.toList = true ↔ ∃ stem, name = stem ++ suffix := by
  rw [List.isSuffixOf_iff_suffix]
  constructor
  · rintro ⟨stem, whole⟩
    refine ⟨String.ofList stem, String.toList_inj.mp ?_⟩
    simp [whole]
  · rintro ⟨stem, rfl⟩
    rw [String.toList_append]
    exact List.suffix_append _ _

theorem wanted_iff (exclude : List String) (path : Path) :
    wanted exclude path = true ↔ Eligible exclude path := by
  unfold wanted isSource Eligible
  cases path.fileName? with
  | none => simp
  | some name =>
    have test : "_test.go".toList.isSuffixOf name.toList = false ↔
        ∀ stem, name ≠ stem ++ "_test.go" := by
      rw [← Bool.not_eq_true, isSuffixOf_iff, not_exists]
    simp only [Option.any_some, Bool.and_eq_true, Bool.not_eq_true', isSuffixOf_iff, test,
      Option.some.injEq, exists_eq_left', and_assoc, List.contains_eq_mem, decide_eq_false_iff_not]

theorem isPrefixed_iff (out name : String) :
    isPrefixed out.toList name.toList = true ↔
      ∃ package, package ≠ "" ∧ name = package ++ "_" ++ out := by
  constructor
  · intro prefixed
    obtain ⟨suffix, shape⟩ := Bool.and_eq_true_iff.mp prefixed
    obtain ⟨stem, rfl⟩ := (isSuffixOf_iff out name).mp suffix
    have front : (stem ++ out).toList.take ((stem ++ out).toList.length - out.toList.length) =
        stem.toList := by
      simp
    simp only [front, Bool.and_eq_true, decide_eq_true_eq, beq_iff_eq] at shape
    obtain ⟨package, ends⟩ := List.getLast?_eq_some_iff.mp shape.2
    refine ⟨String.ofList package, ?_, ?_⟩
    · intro empty
      have none : package = [] := by simpa using congrArg String.toList empty
      have one := shape.1
      rw [ends, none] at one
      exact absurd one (by decide)
    · exact String.toList_inj.mp (by simp [ends])
  · rintro ⟨package, visible, rfl⟩
    have long : 0 < package.toList.length := by
      refine List.length_pos_of_ne_nil fun none => visible ?_
      exact String.toList_inj.mp (by simpa using none)
    have front : (package ++ "_" ++ out).toList.take
        ((package ++ "_" ++ out).toList.length - out.toList.length) =
          package.toList ++ ['_'] := by
      have whole : (package ++ "_" ++ out).toList = (package.toList ++ ['_']) ++ out.toList := by
        simp
      rw [whole, List.length_append, Nat.add_sub_cancel, List.take_left]
    unfold isPrefixed
    rw [front]
    refine Bool.and_eq_true_iff.mpr ⟨(isSuffixOf_iff _ _).mpr ⟨_, rfl⟩, ?_⟩
    simp [long]

theorem isMark_iff (line : List Char) :
    isMark line = true ↔
      ∃ tool, line = "// Code generated ".toList ++ tool ++ " DO NOT EDIT.".toList := by
  unfold isMark
  rw [Bool.and_eq_true, List.isPrefixOf_iff_prefix, List.isSuffixOf_iff_suffix]
  constructor
  · rintro ⟨⟨rest, rfl⟩, ends⟩
    have behind : ("// Code generated ".toList ++ rest).drop "// Code generated ".length = rest :=
      List.drop_left
    rw [behind] at ends
    obtain ⟨tool, rfl⟩ := ends
    exact ⟨tool, (List.append_assoc ..).symm⟩
  · rintro ⟨tool, rfl⟩
    rw [List.append_assoc]
    have behind : ("// Code generated ".toList ++ (tool ++ " DO NOT EDIT.".toList)).drop
        "// Code generated ".length = tool ++ " DO NOT EDIT.".toList := List.drop_left
    rw [behind]
    exact ⟨List.prefix_append _ _, List.suffix_append _ _⟩

theorem isGenerated_iff (text : String) : isGenerated text = true ↔ Marked text := by
  let front : List Char → Bool := fun line => !"package".toList.isPrefixOf line
  have front_iff (line : List Char) : front line = true ↔ ¬ "package".toList <+: line := by
    simp only [front, Bool.not_eq_true', ← List.isPrefixOf_iff_prefix, Bool.not_eq_true]
  have mark_front (tool : List Char) :
      front ("// Code generated ".toList ++ tool ++ " DO NOT EDIT.".toList) = true := rfl
  constructor
  · intro generated
    obtain ⟨line, member, mark⟩ := List.any_eq_true.mp generated
    obtain ⟨tool, rfl⟩ := (isMark_iff line).mp mark
    obtain ⟨before, after, here⟩ := List.append_of_mem member
    refine ⟨before, tool, after ++ (textLines text).dropWhile front, ?_, ?_⟩
    · have whole := List.takeWhile_append_dropWhile (p := front) (l := textLines text)
      rw [here, List.append_assoc, List.cons_append] at whole
      exact whole.symm
    · intro line inBefore
      have inFront : line ∈ (textLines text).takeWhile front := by
        rw [here]
        exact List.mem_append_left _ inBefore
      exact (front_iff line).mp (List.mem_takeWhile_imp inFront)
  · rintro ⟨before, tool, after, whole, clear⟩
    refine List.any_eq_true.mpr ⟨_, ?_, (isMark_iff _).mpr ⟨tool, rfl⟩⟩
    have all : ∀ line ∈ before, front line = true := fun line member =>
      (front_iff line).mpr (clear line member)
    have taken : (textLines text).takeWhile front =
        before ++ ("// Code generated ".toList ++ tool ++ " DO NOT EDIT.".toList) ::
          after.takeWhile front := by
      rw [whole, List.takeWhile_append_of_pos all, List.takeWhile_cons_of_pos (mark_front tool)]
    rw [taken]
    exact List.mem_append_right _ List.mem_cons_self

theorem markedArtifact_iff (exclude : List String) (path : Path) (text : String) :
    (isPrefixedArtifact exclude path && isGenerated text) = true ↔
      MarkedArtifact exclude path text := by
  rw [Bool.and_eq_true, isGenerated_iff]
  refine and_congr_left fun _ => ?_
  unfold isPrefixedArtifact
  cases path.fileName? with
  | none => simp
  | some name =>
    simp only [Option.any_some, List.any_eq_true, isPrefixed_iff, Option.some.injEq]
    constructor
    · rintro ⟨out, member, package, visible, shape⟩
      exact ⟨package, visible, out, member, shape⟩
    · rintro ⟨package, visible, out, member, shape⟩
      exact ⟨out, member, package, visible, shape⟩

theorem loadFile_error_iff {source : FileSource} {exclude : List String} {path : Path}
    {error : LoadError} :
    loadFile source exclude path = .error error ↔ Fails source exclude path error := by
  unfold loadFile
  constructor
  · intro run
    rcases bind_eq_error.mp run with failed | ⟨text, read, run⟩
    · obtain ⟨cause, unread, rfl⟩ := mapError_eq_error.mp failed
      exact .unreadable unread
    · split at run
      · cases run
      · rename_i kept
        rcases bind_eq_error.mp run with failed | ⟨_, _, run⟩
        · obtain ⟨cause, unparsed, rfl⟩ := mapError_eq_error.mp failed
          exact .unparsable (mapError_eq_ok.mp read)
            (fun artifact => kept ((markedArtifact_iff ..).mpr artifact)) unparsed
        · cases run
  · rintro (unread | ⟨read, kept, unparsed⟩)
    · exact bind_eq_error.mpr (Or.inl (mapError_eq_error.mpr ⟨_, unread, rfl⟩))
    · refine bind_eq_error.mpr (Or.inr ⟨_, mapError_eq_ok.mpr read, ?_⟩)
      rw [if_neg fun artifact => kept ((markedArtifact_iff ..).mp artifact)]
      exact bind_eq_error.mpr (Or.inl (mapError_eq_error.mpr ⟨_, unparsed, rfl⟩))

theorem loadFiles_error_iff {source : FileSource} {exclude : List String} {paths : List Path}
    (sorted : paths.Pairwise Path.Before) {error : LoadError} :
    loadFiles source exclude paths = .error error ↔
      ∃ path ∈ paths, Fails source exclude path error ∧
        ∀ earlier ∈ paths, earlier.Before path → ∀ other, ¬ Fails source exclude earlier other := by
  induction paths with
  | nil => simp [loadFiles]
  | cons path rest ih =>
    obtain ⟨above, tail⟩ := List.pairwise_cons.mp sorted
    unfold loadFiles
    rw [bind_eq_error]
    constructor
    · rintro (here | ⟨loaded, fine, run⟩)
      · refine ⟨path, List.mem_cons_self, loadFile_error_iff.mp here, ?_⟩
        intro earlier member before
        rcases List.mem_cons.mp member with rfl | later
        · exact absurd before earlier.not_before_self
        · exact (Path.before_asymm before (above earlier later)).elim
      · rcases bind_eq_error.mp run with there | ⟨_, _, run⟩
        · obtain ⟨failing, inRest, fails, first⟩ := (ih tail).mp there
          refine ⟨failing, List.mem_cons_of_mem _ inRest, fails, ?_⟩
          intro earlier member before other
          rcases List.mem_cons.mp member with rfl | later
          · rw [← loadFile_error_iff, fine]
            intro same
            cases same
          · exact first earlier later before other
        · cases run
    · rintro ⟨failing, member, fails, first⟩
      rcases List.mem_cons.mp member with rfl | inRest
      · exact Or.inl (loadFile_error_iff.mpr fails)
      · have clear := first path List.mem_cons_self (above failing inRest)
        cases here : loadFile source exclude path with
        | error other => exact absurd (loadFile_error_iff.mp here) (clear other)
        | ok loaded =>
          refine Or.inr ⟨loaded, rfl, bind_eq_error.mpr (Or.inl ((ih tail).mpr ?_))⟩
          refine ⟨failing, inRest, fails, ?_⟩
          intro earlier later
          exact first earlier (List.mem_cons_of_mem _ later)

theorem group_ascending (files : List ParsedFile) :
    ((group files).map Package.name).Pairwise (· < ·) := by
  have names : (group files).map Package.name =
      Text.ascending (files.map fun f => f.file.package) := by
    rw [group, List.map_map]
    exact List.map_id _
  rw [names]
  exact Text.ascending_sorted _

theorem load_ascending {source : FileSource} {exclude : List String} {dir : Path}
    {packages : List Package} (run : load source exclude dir = .ok packages) :
    (packages.map name).Pairwise (· < ·) := by
  obtain ⟨_, files, _, _, rfl⟩ := load_eq_ok run
  exact group_ascending files

theorem group_once {files : List ParsedFile} (distinct : (files.map fun f => f.path.steps).Nodup) :
    (((group files).flatMap Package.files).map fun f => f.path.steps).Nodup := by
  rw [List.map_flatMap, List.nodup_flatMap]
  constructor
  · intro p member
    rw [(mem_group.mp member).2]
    exact (List.filter_sublist.map _).nodup distinct
  · refine (List.pairwise_map.mp (group_ascending files)).imp_of_mem ?_
    intro p q inGroup inGroup' below steps first later
    obtain ⟨f, inFirst, rfl⟩ := List.mem_map.mp first
    obtain ⟨g, inLater, same⟩ := List.mem_map.mp later
    rw [(mem_group.mp inGroup).2] at inFirst
    rw [(mem_group.mp inGroup').2] at inLater
    obtain ⟨inFiles, named⟩ := List.mem_filter.mp inFirst
    obtain ⟨inFiles', named'⟩ := List.mem_filter.mp inLater
    obtain rfl := List.inj_on_of_nodup_map distinct inFiles' inFiles same
    exact below.ne ((beq_iff_eq.mp named).symm.trans (beq_iff_eq.mp named'))

section

variable {source : FileSource} {exclude : List String} {dir : Path} {listed : List Path}
  {packages : List Package}

theorem mem_load_listed (list : source.list dir = .ok listed)
    (run : load source exclude dir = .ok packages) (f : ParsedFile) :
    (∃ p ∈ packages, f ∈ p.files) ↔ ∃ path ∈ listed, wanted exclude path = true ∧
      loadFile source exclude path = .ok (some f) := by
  rw [mem_load run]
  constructor
  · rintro ⟨again, same, found⟩
    obtain rfl := Except.ok.inj (list.symm.trans same)
    exact found
  · intro found
    exact ⟨listed, list, found⟩

theorem load_sources (list : source.list dir = .ok listed)
    (run : load source exclude dir = .ok packages) (path : Path) :
    (∃ p ∈ packages, ∃ f ∈ p.files, f.path = path) ↔
      path ∈ listed ∧ Eligible exclude path ∧
        ∃ text, source.read path = .ok text ∧ ¬ MarkedArtifact exclude path text := by
  constructor
  · rintro ⟨p, member, f, inPackage, rfl⟩
    obtain ⟨path, inListed, fits, here⟩ := (mem_load_listed list run f).mp ⟨p, member, inPackage⟩
    obtain ⟨rfl, text, read, kept, _⟩ := loadFile_eq_some here
    refine ⟨inListed, (wanted_iff ..).mp fits, text, read, fun artifact => ?_⟩
    rw [(markedArtifact_iff ..).mpr artifact] at kept
    cases kept
  · rintro ⟨inListed, fits, text, read, kept⟩
    have wanted := (wanted_iff ..).mpr fits
    obtain ⟨again, files, same, loaded, _⟩ := load_eq_ok run
    obtain rfl := Except.ok.inj (list.symm.trans same)
    obtain ⟨result, here⟩ := loadFiles_each loaded
      ((Text.mem_inOrder ..).mpr (List.mem_filter.mpr ⟨inListed, wanted⟩))
    obtain ⟨f, rfl⟩ := loadFile_kept here read (by
      rw [← Bool.not_eq_true, markedArtifact_iff]
      exact kept)
    obtain ⟨p, member, inPackage⟩ :=
      (mem_load_listed list run f).mpr ⟨path, inListed, wanted, here⟩
    exact ⟨p, member, f, inPackage, (loadFile_eq_some here).1⟩

theorem load_grouped (list : source.list dir = .ok listed)
    (distinct : (listed.map Path.steps).Nodup)
    (run : load source exclude dir = .ok packages) : Grouped source exclude listed packages := by
  have sources := load_sources list run
  have loads := mem_load_listed list run
  obtain ⟨again, files, same, loaded, rfl⟩ := load_eq_ok run
  obtain rfl := Except.ok.inj (list.symm.trans same)
  have ordered : files.Pairwise fun f g => f.path.Before g.path :=
    loadFiles_before loaded (Path.inOrder_before ((List.filter_sublist.map _).nodup distinct))
  have places : (files.map fun f => f.path.steps).Nodup :=
    List.pairwise_map.mpr (ordered.imp fun before => before.2)
  constructor
  case names => exact group_ascending files
  case nonempty =>
    intro p member empty
    obtain ⟨⟨f, inFiles, named⟩, shape⟩ := mem_group.mp member
    have inPackage : f ∈ p.files := by
      rw [shape]
      exact List.mem_filter.mpr ⟨inFiles, beq_iff_eq.mpr named⟩
    rw [empty] at inPackage
    cases inPackage
  case named =>
    intro p member f inPackage
    rw [(mem_group.mp member).2] at inPackage
    exact beq_iff_eq.mp (List.mem_filter.mp inPackage).2
  case ordered =>
    intro p member
    rw [(mem_group.mp member).2]
    exact ordered.filter _
  case parsed =>
    intro p member f inPackage
    obtain ⟨path, _, _, here⟩ := (loads f).mp ⟨p, member, inPackage⟩
    obtain ⟨rfl, text, read, _, parsed⟩ := loadFile_eq_some here
    exact ⟨text, read, parsed⟩
  case once => exact group_once places
  case sources => exact sources

theorem load_listed (exclude : List String) (list : source.list dir = .ok listed) :
    load source exclude dir =
      (loadFiles source exclude (Text.inOrder Path.le (listed.filter (wanted exclude)))).map
        group := by
  let paths := Text.inOrder Path.le (listed.filter (wanted exclude))
  have run : load source exclude dir =
      loadFiles source exclude paths >>= fun files => .ok (group files) := by
    rw [load, list]
    rfl
  rw [run]
  cases loadFiles source exclude paths <;> rfl

theorem load_error_iff (list : source.list dir = .ok listed)
    (distinct : (listed.map Path.steps).Nodup) (error : LoadError) :
    load source exclude dir = .error error ↔ FirstFailure source exclude listed error := by
  have member (path : Path) : path ∈ Text.inOrder Path.le (listed.filter (wanted exclude)) ↔
      path ∈ listed ∧ Eligible exclude path := by
    rw [Text.mem_inOrder, List.mem_filter, wanted_iff]
  have sorted : (Text.inOrder Path.le (listed.filter (wanted exclude))).Pairwise Path.Before :=
    Path.inOrder_before ((List.filter_sublist.map _).nodup distinct)
  have stops : load source exclude dir = .error error ↔
      loadFiles source exclude (Text.inOrder Path.le (listed.filter (wanted exclude))) =
        .error error := by
    rw [load_listed exclude list]
    cases loadFiles source exclude (Text.inOrder Path.le (listed.filter (wanted exclude))) <;>
      simp [Except.map]
  rw [stops, loadFiles_error_iff sorted]
  simp only [member, and_imp, and_assoc]
  rfl

theorem load_reordered {other : FileSource} {listed' : List Path}
    (list : source.list dir = .ok listed) (distinct : (listed.map Path.steps).Nodup)
    (list' : other.list dir = .ok listed') (perm : listed'.Perm listed)
    (read : other.read = source.read) :
    load other exclude dir = load source exclude dir := by
  have loadFile_same : loadFile other exclude = loadFile source exclude :=
    funext fun path => loadFile_congr exclude (congrFun read path)
  have same (paths : List Path) :
      loadFiles other exclude paths = loadFiles source exclude paths := by
    induction paths with
    | nil => rfl
    | cons path rest ih => rw [loadFiles, loadFiles, ih, loadFile_same]
  have arranged : Text.inOrder Path.le (listed'.filter (wanted exclude)) =
      Text.inOrder Path.le (listed.filter (wanted exclude)) :=
    Path.inOrder_congr ((List.filter_sublist.map _).nodup distinct) (perm.filter _)
  rw [load_listed exclude list', load_listed exclude list, same, arranged]

end

/-- A directory that cannot be listed is reported. One that lists each path once is loaded alike
    whatever the order of the listing: its sources are grouped, each of them once, or the failure
    of the first file that fails is reported. -/
theorem load_groups (source : FileSource) (exclude : List String) (dir : Path) :
    (∀ cause, source.list dir = .error cause →
      load source exclude dir = .error (.unreadable dir cause)) ∧
    ∀ listed, source.list dir = .ok listed → (listed.map Path.steps).Nodup →
      (∀ (other : FileSource) (listed' : List Path), other.list dir = .ok listed' →
        listed'.Perm listed → other.read = source.read →
          load other exclude dir = load source exclude dir) ∧
      (∀ packages, load source exclude dir = .ok packages →
        Grouped source exclude listed packages) ∧
      ∀ error, load source exclude dir = .error error ↔
        FirstFailure source exclude listed error := by
  constructor
  · intro cause failed
    rw [load, failed]
    rfl
  · intro listed list distinct
    refine ⟨?_, ?_, load_error_iff list distinct⟩
    · intro other listed' list' perm read
      exact load_reordered list distinct list' perm read
    · intro packages run
      exact load_grouped list distinct run

def shelf : FileSource :=
  (Memory.ofFiles [(⟨"/src/b.go"⟩, "package example\n"), (⟨"/src/main.go"⟩, "package main\n"),
    (⟨"/src/a.go"⟩, "package example\n"), (⟨"/src/a_test.go"⟩, "package example_test\n"),
    (⟨"/src/my_spies.go"⟩, "package main\n"), (⟨"/src/spies.go"⟩, "package example_test\n"),
    (⟨"/src/c_spies.go"⟩, "// Code generated by fm. DO NOT EDIT.\n\npackage c_test\n")]).source

def backwards (source : FileSource) : FileSource :=
  { source with list := fun dir => (source.list dir).map List.reverse }

def overview (packages : List Package) : List (String × List String) :=
  packages.map fun p => (p.name, p.files.map fun f => f.path.text)

theorem shelf_groups :
    ∃ listed packages, shelf.list ⟨"/src"⟩ = .ok listed ∧ (listed.map Path.steps).Nodup ∧
      (backwards shelf).list ⟨"/src"⟩ = .ok listed.reverse ∧
      load shelf ["spies.go"] ⟨"/src"⟩ = .ok packages ∧
      load (backwards shelf) ["spies.go"] ⟨"/src"⟩ = .ok packages ∧
      Grouped shelf ["spies.go"] listed packages ∧
      overview packages = [("example", ["/src/a.go", "/src/b.go"]),
        ("main", ["/src/main.go", "/src/my_spies.go"])] := by
  have listing : (shelf.list ⟨"/src"⟩).toOption.any (fun listed =>
      decide (listed.map Path.steps).Nodup) = true := by
    decide +kernel
  have outcome : (load shelf ["spies.go"] ⟨"/src"⟩).toOption.map overview =
      some [("example", ["/src/a.go", "/src/b.go"]),
        ("main", ["/src/main.go", "/src/my_spies.go"])] := by
    decide +kernel
  cases list : shelf.list ⟨"/src"⟩ with
  | error => simp [list, Except.toOption] at listing
  | ok listed =>
    cases run : load shelf ["spies.go"] ⟨"/src"⟩ with
    | error => simp [run, Except.toOption] at outcome
    | ok packages =>
      have distinct : (listed.map Path.steps).Nodup := by
        simpa [list, Except.toOption] using listing
      have found : overview packages = [("example", ["/src/a.go", "/src/b.go"]),
          ("main", ["/src/main.go", "/src/my_spies.go"])] := by
        simpa [run, Except.toOption] using outcome
      have list' : (backwards shelf).list ⟨"/src"⟩ = .ok listed.reverse := by
        simp [backwards, list, Except.map]
      obtain ⟨reordered, grouped, _⟩ :=
        (load_groups shelf ["spies.go"] ⟨"/src"⟩).2 listed list distinct
      have same := reordered (backwards shelf) listed.reverse list'
        (List.reverse_perm listed) rfl
      exact ⟨listed, packages, rfl, distinct, list', rfl, same.trans run, grouped packages run,
        found⟩

end GoSpy.Package
