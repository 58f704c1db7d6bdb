import GoSpy.Proofs.Store.Loading
import GoSpy.Proofs.Store.Order
import Mathlib.Data.List.Induction
/- Files in memory as they are read: what putting a file changes, which files a directory lists,
   and that the packages of a directory depend on its sources only. -/
namespace GoSpy

namespace Memory

theorem read_put (m : Memory) (place : List Step) (text : String) (path : Path) :
    (m.put place text).read path = if path.lexical = place then .ok text else m.read path := by
  unfold Memory.read put
  rw [List.find?_append]
  by_cases here : path.lexical = place
  · have absent : (m.files.filter fun f => f.1 != place).find? (fun f => f.1 == path.lexical) =
        none := by
      refine List.find?_eq_none.mpr fun f member => ?_
      simpa [here] using (List.mem_filter.mp member).2
    rw [absent]
    simp [here]
  · have same : (m.files.filter fun f => f.1 != place).find? (fun f => f.1 == path.lexical) =
        m.files.find? fun f => f.1 == path.lexical := by
      rw [List.find?_filter]
      congr 1
      funext f
      by_cases found : f.1 = path.lexical <;> simp [found, here]
    have other : [(place, text)].find? (fun f => f.1 == path.lexical) = none := by
      simp [Ne.symm here]
    rw [same, other, if_neg here, Option.or_none]

theorem ofFiles_snoc (files : List (Path × String)) (f : Path × String) :
    ofFiles (files ++ [f]) = (ofFiles files).put f.1.lexical f.2 := by
  simp [ofFiles]

theorem read_ofFiles_filter {files : List (Path × String)} {keep : Path × String → Bool}
    {path : Path} (kept : ∀ f ∈ files, f.1.lexical = path.lexical → keep f = true) :
    (ofFiles (files.filter keep)).read path = (ofFiles files).read path := by
  induction files using List.reverseRecOn with
  | nil => rfl
  | append_singleton files f ih =>
    have before := ih fun g member => kept g (List.mem_append_left _ member)
    rw [List.filter_append, ofFiles_snoc, read_put]
    by_cases here : path.lexical = f.1.lexical
    · have keeps := kept f (by simp) here.symm
      rw [List.filter_cons_of_pos keeps, List.filter_nil, ofFiles_snoc, read_put]
      simp [here]
    · rw [if_neg here]
      cases taken : keep f with
      | true =>
        rw [List.filter_cons_of_pos taken, List.filter_nil, ofFiles_snoc, read_put, if_neg here,
          before]
      | false => rw [List.filter_cons_of_neg (by simp [taken]), List.filter_nil, List.append_nil,
          before]

def Distinct (m : Memory) : Prop := (m.files.map Prod.fst).Nodup

theorem put_distinct {m : Memory} (distinct : m.Distinct) (place : List Step) (text : String) :
    (m.put place text).Distinct := by
  unfold Distinct put
  rw [List.map_append]
  refine ((List.filter_sublist.map Prod.fst).nodup distinct).append (List.nodup_singleton _) ?_
  simp

theorem ofFiles_distinct (files : List (Path × String)) : (ofFiles files).Distinct := by
  induction files using List.reverseRecOn with
  | nil => exact List.nodup_nil
  | append_singleton files f ih =>
    rw [ofFiles_snoc]
    exact put_distinct ih _ _

theorem read_of_mem {m : Memory} (placed : m.Placed) {f : List Step × String}
    (member : f ∈ m.files) : ∃ text, m.read (.ofSteps f.1) = .ok text := by
  unfold Memory.read
  rw [Path.lexical_ofSteps (placed f member)]
  cases found : m.files.find? fun g => g.1 == f.1 with
  | some g => exact ⟨g.2, rfl⟩
  | none => simpa using List.find?_eq_none.mp found f member

end Memory

def Path.inside (dir : Path) (name : String) : Path := .ofSteps (dir.lexical ++ [.name name])

namespace Path

theorem steps_inside (dir : Path) {name : String} (plain : PlainName name) :
    (dir.inside name).steps = dir.lexical ++ [.name name] :=
  steps_ofSteps (Step.settled_snoc dir.lexical_settled plain)

theorem lexical_inside (dir : Path) {name : String} (plain : PlainName name) :
    (dir.inside name).lexical = dir.lexical ++ [.name name] :=
  lexical_ofSteps (Step.settled_snoc dir.lexical_settled plain)

theorem fileName?_inside (dir : Path) {name : String} (plain : PlainName name) :
    (dir.inside name).fileName? = some name := fileName?_snoc (steps_inside dir plain)

end Path

namespace Memory

variable {m m' : Memory} {dir : Path} {listed : List Path}

theorem mem_list_iff (placed : m.Placed) (run : m.list dir = .ok listed) (path : Path) :
    path ∈ listed ↔ ∃ name, PlainName name ∧ path = dir.inside name ∧
      ∃ text, m.read path = .ok text := by
  unfold Memory.list at run
  split at run
  · obtain rfl := Except.ok.inj run
    simp only [List.mem_map, List.mem_filter, beq_iff_eq]
    constructor
    · rintro ⟨f, ⟨inFiles, parent⟩, rfl⟩
      obtain ⟨name, plain, shape⟩ := settled_parent (placed f inFiles) parent
      exact ⟨name, plain, by rw [Path.inside, shape], read_of_mem placed inFiles⟩
    · rintro ⟨name, plain, rfl, text, read⟩
      obtain ⟨f, inFiles, here, _⟩ := read_eq_ok read
      rw [Path.lexical_inside dir plain] at here
      exact ⟨f, ⟨inFiles, by simp [here, Path.parent?]⟩, by rw [here, Path.inside]⟩
  · cases run

theorem list_distinct (placed : m.Placed) (distinct : m.Distinct) (run : m.list dir = .ok listed) :
    (listed.map Path.steps).Nodup := by
  unfold Memory.list at run
  split at run
  · obtain rfl := Except.ok.inj run
    have places : (m.files.filter fun f => Path.parent? f.1 == some dir.lexical).map
        (Path.steps ∘ fun f => Path.ofSteps f.1) =
        (m.files.filter fun f => Path.parent? f.1 == some dir.lexical).map Prod.fst :=
      List.map_congr_left fun f member =>
        Path.steps_ofSteps (placed f (List.mem_of_mem_filter member))
    rw [List.map_map, places]
    exact (List.filter_sublist.map Prod.fst).nodup distinct
  · cases run

theorem list_kept (placed : m.Placed) (run : m.list dir = .ok listed)
    (kept : ∀ path text, m.read path = .ok text → ∃ text', m'.read path = .ok text') :
    ∃ listed', m'.list dir = .ok listed' := by
  unfold Memory.list at run
  split at run
  · rename_i there
    obtain ⟨f, inFiles, below⟩ := List.any_eq_true.mp there
    obtain ⟨text, read⟩ := read_of_mem placed inFiles
    obtain ⟨text', read'⟩ := kept _ _ read
    obtain ⟨g, inFiles', same, _⟩ := read_eq_ok read'
    rw [Path.lexical_ofSteps (placed f inFiles)] at same
    have still : m'.files.any (fun f => dir.lexical.isPrefixOf f.1) = true :=
      List.any_eq_true.mpr ⟨g, inFiles', same ▸ below⟩
    exact ⟨_, by rw [Memory.list, if_pos still]⟩
  · cases run

end Memory

namespace Package

theorem loadFiles_ok {source : FileSource} {exclude : List String} {paths : List Path}
    (each : ∀ path ∈ paths, ∃ loaded, loadFile source exclude path = .ok loaded) :
    ∃ files, loadFiles source exclude paths = .ok files := by
  induction paths with
  | nil => exact ⟨[], rfl⟩
  | cons path rest ih =>
    obtain ⟨⟨loaded, first⟩, others⟩ := List.forall_mem_cons.mp each
    obtain ⟨files, later⟩ := ih others
    exact ⟨_, loadFiles_cons_eq_ok.mpr ⟨loaded, files, first, later, rfl⟩⟩

theorem loadFiles_before {source : FileSource} {exclude : List String} {paths : List Path}
    {files : List ParsedFile} (run : loadFiles source exclude paths = .ok files)
    (sorted : paths.Pairwise Path.Before) : files.Pairwise fun f g => f.path.Before g.path := by
  induction paths generalizing files with
  | nil =>
    simp only [loadFiles, Except.ok.injEq] at run
    simp [← run]
  | cons path rest ih =>
    obtain ⟨loaded, others, first, later, rfl⟩ := loadFiles_cons_eq_ok.mp run
    obtain ⟨above, tail⟩ := List.pairwise_cons.mp sorted
    have sortedLater := ih later tail
    cases loaded with
    | none => exact sortedLater
    | some f =>
      refine List.pairwise_cons.mpr ⟨fun g member => ?_, sortedLater⟩
      obtain ⟨q, inRest, parsed⟩ := (mem_loadFiles later g).mp member
      rw [(loadFile_eq_some first).1, (loadFile_eq_some parsed).1]
      exact above q inRest

theorem eq_of_before {files files' : List ParsedFile}
    (sorted : files.Pairwise fun f g => f.path.Before g.path)
    (sorted' : files'.Pairwise fun f g => f.path.Before g.path)
    (same : ∀ f, f ∈ files ↔ f ∈ files') : files = files' := by
  have irrefl : Std.Irrefl fun f g : ParsedFile => f.path.Before g.path :=
    ⟨fun f => f.path.not_before_self⟩
  have antisymm : Std.Antisymm fun f g : ParsedFile => f.path.Before g.path :=
    ⟨fun _ _ first later => (Path.before_asymm first later).elim⟩
  exact sorted.eq_of_mem_iff sorted' same

theorem loadFile_congr {source source' : FileSource} {path : Path} (exclude : List String)
    (same : source.read path = source'.read path) :
    loadFile source exclude path = loadFile source' exclude path := by
  unfold loadFile
  rw [same]

theorem loadFile_artifact {source : FileSource} {exclude : List String} {path : Path}
    {text : String} (read : source.read path = .ok text)
    (artifact : (isPrefixedArtifact exclude path && isGenerated text) = true) :
    loadFile source exclude path = .ok none := by
  unfold loadFile
  rw [read]
  simp [Except.mapError, Bind.bind, Except.bind, artifact]

variable {m m' : Memory} {exclude : List String} {dir : Path} {listed : List Path}

theorem mem_wanted (placed : m.Placed) (list : m.list dir = .ok listed) (path : Path) :
    path ∈ Text.inOrder Path.le (listed.filter (wanted exclude)) ↔
      ∃ name, PlainName name ∧ path = dir.inside name ∧ wanted exclude path = true ∧
        ∃ text, m.read path = .ok text := by
  rw [Text.mem_inOrder, List.mem_filter, Memory.mem_list_iff placed list]
  constructor
  · rintro ⟨⟨name, plain, rfl, read⟩, fits⟩
    exact ⟨name, plain, rfl, fits, read⟩
  · rintro ⟨name, plain, rfl, fits, read⟩
    exact ⟨⟨name, plain, rfl, read⟩, fits⟩

theorem mem_sources (placed : m.Placed) (list : m.list dir = .ok listed) {files : List ParsedFile}
    (loaded : loadFiles m.source exclude (Text.inOrder Path.le (listed.filter (wanted exclude))) =
      .ok files) (f : ParsedFile) :
    f ∈ files ↔ ∃ name, PlainName name ∧ wanted exclude (dir.inside name) = true ∧
      loadFile m.source exclude (dir.inside name) = .ok (some f) := by
  rw [mem_loadFiles loaded]
  constructor
  · rintro ⟨path, member, parsed⟩
    obtain ⟨name, plain, rfl, fits, _⟩ := (mem_wanted placed list path).mp member
    exact ⟨name, plain, fits, parsed⟩
  · rintro ⟨name, plain, fits, parsed⟩
    obtain ⟨_, text, read, _⟩ := loadFile_eq_some parsed
    exact ⟨_, (mem_wanted placed list _).mpr ⟨name, plain, rfl, fits, text, read⟩, parsed⟩

theorem load_unchanged (placed : m.Placed) (distinct : m.Distinct) (placed' : m'.Placed)
    (distinct' : m'.Distinct) {packages : List Package}
    (run : load m.source exclude dir = .ok packages)
    (kept : ∀ path text, m.read path = .ok text → ∃ text', m'.read path = .ok text')
    (changed : ∀ name, PlainName name → m'.read (dir.inside name) ≠ m.read (dir.inside name) →
      wanted exclude (dir.inside name) = true →
        loadFile m'.source exclude (dir.inside name) = .ok none ∧
          ∀ f, loadFile m.source exclude (dir.inside name) ≠ .ok (some f)) :
    load m'.source exclude dir = .ok packages := by
  obtain ⟨listed, files, list, loaded, rfl⟩ := load_eq_ok run
  obtain ⟨listed', list'⟩ := Memory.list_kept placed list kept
  have each : ∀ path ∈ Text.inOrder Path.le (listed'.filter (wanted exclude)),
      ∃ result, loadFile m'.source exclude path = .ok result := by
    intro path member
    obtain ⟨name, plain, rfl, fits, text', read'⟩ := (mem_wanted placed' list' path).mp member
    by_cases same : m'.read (dir.inside name) = m.read (dir.inside name)
    · have before := (mem_wanted placed list _).mpr ⟨name, plain, rfl, fits, text', same ▸ read'⟩
      have again : m'.source.read (dir.inside name) = m.source.read (dir.inside name) := same
      rw [loadFile_congr exclude again]
      exact loadFiles_each loaded before
    · exact ⟨none, (changed name plain same fits).1⟩
  obtain ⟨files', loaded'⟩ := loadFiles_ok each
  -- The sources are the same, and the order of their paths leaves one list of them.
  have sources : ∀ f, f ∈ files ↔ f ∈ files' := by
    intro f
    rw [mem_sources placed list loaded, mem_sources placed' list' loaded']
    refine exists_congr fun name => and_congr_right fun plain => and_congr_right fun fits => ?_
    by_cases same : m'.read (dir.inside name) = m.read (dir.inside name)
    · have again : m'.source.read (dir.inside name) = m.source.read (dir.inside name) := same
      rw [loadFile_congr exclude again]
    · obtain ⟨skipped, absent⟩ := changed name plain same fits
      simp [skipped, absent f]
  have ordered {m : Memory} {listed : List Path} (placed : m.Placed) (distinct : m.Distinct)
      (list : m.list dir = .ok listed) :
      (Text.inOrder Path.le (listed.filter (wanted exclude))).Pairwise Path.Before :=
    Path.inOrder_before
      ((List.filter_sublist.map _).nodup (Memory.list_distinct placed distinct list))
  have same : files = files' := eq_of_before
    (loadFiles_before loaded (ordered placed distinct list))
    (loadFiles_before loaded' (ordered placed' distinct' list')) sources
  have listing : m'.source.list dir = .ok listed' := list'
  rw [load, listing, same]
  simp [Except.mapError, Bind.bind, Except.bind, loaded']

end Package

end GoSpy
