import GoSpy.Store.Package
import GoSpy.Proofs.Store.Paths
import GoSpy.Proofs.Text.Ascending
import GoSpy.Proofs.Token.Cutting
import GoSpy.Proofs.Grammar.Inversion
/- Loading the packages of a directory of files in memory: which files become sources, and what
   the packages they are grouped into are called. -/
namespace GoSpy

namespace Memory

def Placed (m : Memory) : Prop := ∀ f ∈ m.files, Step.Settled f.1

theorem put_placed {m : Memory} (placed : m.Placed) (path : Path) (text : String) :
    (m.put path.lexical text).Placed := by
  intro f member
  simp only [put, List.mem_append, List.mem_filter, List.mem_singleton] at member
  rcases member with ⟨old, _⟩ | rfl
  · exact placed f old
  · exact path.lexical_settled

theorem ofFiles_placed (files : List (Path × String)) : (ofFiles files).Placed := by
  suffices run : ∀ m : Memory, m.Placed →
      (files.foldl (fun m f => m.put f.1.lexical f.2) m).Placed from
    run ⟨[]⟩ (by simp [Placed])
  induction files with
  | nil => exact fun m placed => placed
  | cons f rest ih => exact fun m placed => ih _ (put_placed placed f.1 f.2)

theorem read_eq_ok {m : Memory} {path : Path} {text : String} (read : m.read path = .ok text) :
    ∃ f ∈ m.files, f.1 = path.lexical ∧ f.2 = text := by
  unfold Memory.read at read
  split at read
  · rename_i f found
    exact ⟨f, List.mem_of_find?_eq_some found, by simpa using List.find?_some found,
      by simpa using read⟩
  · simp at read

theorem read_congr (m : Memory) {p q : Path} (same : p.lexical = q.lexical) :
    m.read p = m.read q := by
  unfold Memory.read
  rw [same]

theorem settled_parent {place dir : List Step} (settled : Step.Settled place)
    (parent : Path.parent? place = some dir) :
    ∃ name, PlainName name ∧ place = dir ++ [.name name] := by
  obtain ⟨names, all, shape⟩ := settled
  rcases List.eq_nil_or_concat names with rfl | ⟨front, name, rfl⟩
  · rcases shape with rfl | rfl <;> simp [Path.parent?] at parent
  · have parts : ∃ before, place = before ++ [.name name] := by
      rcases shape with rfl | rfl
      · exact ⟨front.map .name, by simp⟩
      · exact ⟨.root :: front.map .name, by simp⟩
    obtain ⟨before, rfl⟩ := parts
    have same : before = dir := by simpa [Path.parent?] using parent
    exact ⟨name, all name (by simp), by rw [same]⟩

theorem mem_list {m : Memory} (placed : m.Placed) {dir : Path} {listed : List Path}
    (run : m.list dir = .ok listed) {path : Path} (member : path ∈ listed) :
    ∃ name, PlainName name ∧ path.lexical = dir.lexical ++ [.name name] ∧
      path.fileName? = some name := by
  unfold Memory.list at run
  split at run
  · obtain rfl := Except.ok.inj run
    simp only [List.mem_map, List.mem_filter, beq_iff_eq] at member
    obtain ⟨f, ⟨inFiles, parent⟩, rfl⟩ := member
    obtain ⟨name, plain, shape⟩ := settled_parent (placed f inFiles) parent
    have settled := shape ▸ placed f inFiles
    rw [shape]
    exact ⟨name, plain, Path.lexical_ofSteps settled,
      Path.fileName?_snoc (Path.steps_ofSteps settled)⟩
  · simp at run

theorem list_complete {m : Memory} {dir path : Path} {listed : List Path} {name text : String}
    (run : m.list dir = .ok listed)
    (place : path.lexical = dir.lexical ++ [.name name]) (read : m.read path = .ok text) :
    ∃ q ∈ listed, q.lexical = path.lexical := by
  obtain ⟨f, inFiles, here, _⟩ := read_eq_ok read
  unfold Memory.list at run
  split at run
  · obtain rfl := Except.ok.inj run
    refine ⟨.ofSteps f.1, ?_, ?_⟩
    · refine List.mem_map.mpr ⟨f, List.mem_filter.mpr ⟨inFiles, ?_⟩, rfl⟩
      simp [here, place, Path.parent?]
    · rw [here, Path.lexical_ofSteps (path.lexical_settled)]
  · simp at run

end Memory

theorem SourceFile.ofText_package {path text : String} {file : SourceFile}
    (run : SourceFile.ofText path text = .ok file) : Text.isWord file.package = true := by
  obtain ⟨lexemes, lexed, parsed⟩ := bind_eq_ok.mp (mapError_eq_ok.mp run)
  obtain ⟨⟨_, next⟩, read, rfl⟩ := map_eq_ok.mp parsed
  obtain ⟨⟨x, member, word⟩, _⟩ := Grammar.sourceFile_package read
  exact Lexemes.ofText_words lexed member word

namespace Package

theorem loadFile_eq_some {source : FileSource} {exclude : List String} {path : Path}
    {f : ParsedFile} (run : loadFile source exclude path = .ok (some f)) :
    f.path = path ∧ ∃ text, source.read path = .ok text ∧
      (isPrefixedArtifact exclude path && isGenerated text) = false ∧
      SourceFile.ofText path.text text = .ok f.file := by
  unfold loadFile at run
  obtain ⟨text, read, run⟩ := bind_eq_ok.mp run
  split at run
  · simp at run
  · rename_i kept
    obtain ⟨file, parsed, run⟩ := bind_eq_ok.mp run
    simp only [Except.ok.injEq, Option.some.injEq] at run
    subst run
    exact ⟨rfl, text, mapError_eq_ok.mp read, by simpa using kept, mapError_eq_ok.mp parsed⟩

theorem loadFile_kept {source : FileSource} {exclude : List String} {path : Path}
    {text : String} {loaded : Option ParsedFile}
    (run : loadFile source exclude path = .ok loaded) (read : source.read path = .ok text)
    (kept : (isPrefixedArtifact exclude path && isGenerated text) = false) :
    ∃ f, loaded = some f := by
  unfold loadFile at run
  obtain ⟨_, again, run⟩ := bind_eq_ok.mp run
  obtain rfl := Except.ok.inj (read.symm.trans (mapError_eq_ok.mp again))
  rw [kept] at run
  obtain ⟨file, _, run⟩ := bind_eq_ok.mp run
  exact ⟨_, (Except.ok.inj run).symm⟩

theorem loadFiles_cons_eq_ok {source : FileSource} {exclude : List String} {path : Path}
    {rest : List Path} {files : List ParsedFile} :
    loadFiles source exclude (path :: rest) = .ok files ↔
      ∃ loaded others, loadFile source exclude path = .ok loaded ∧
        loadFiles source exclude rest = .ok others ∧ files = loaded.toList ++ others := by
  rw [loadFiles]
  constructor
  · intro run
    obtain ⟨loaded, first, run⟩ := bind_eq_ok.mp run
    obtain ⟨others, later, run⟩ := bind_eq_ok.mp run
    exact ⟨loaded, others, first, later, (Except.ok.inj run).symm⟩
  · rintro ⟨loaded, others, first, later, rfl⟩
    exact bind_eq_ok.mpr ⟨loaded, first, bind_eq_ok.mpr ⟨others, later, rfl⟩⟩

theorem mem_loadFiles {source : FileSource} {exclude : List String} {paths : List Path}
    {files : List ParsedFile} (run : loadFiles source exclude paths = .ok files)
    (f : ParsedFile) :
    f ∈ files ↔ ∃ path ∈ paths, loadFile source exclude path = .ok (some f) := by
  induction paths generalizing files with
  | nil =>
    simp only [loadFiles, Except.ok.injEq] at run
    simp [← run]
  | cons path rest ih =>
    obtain ⟨loaded, others, first, later, rfl⟩ := loadFiles_cons_eq_ok.mp run
    rw [List.mem_append, ih later]
    simp [first]

theorem loadFiles_each {source : FileSource} {exclude : List String} {paths : List Path}
    {files : List ParsedFile} (run : loadFiles source exclude paths = .ok files) {path : Path}
    (member : path ∈ paths) : ∃ loaded, loadFile source exclude path = .ok loaded := by
  induction paths generalizing files with
  | nil => simp at member
  | cons first rest ih =>
    obtain ⟨loaded, others, here, later, -⟩ := loadFiles_cons_eq_ok.mp run
    rcases List.mem_cons.mp member with rfl | there
    · exact ⟨loaded, here⟩
    · exact ih later there

theorem mem_group {files : List ParsedFile} {p : Package} :
    p ∈ group files ↔ (∃ f ∈ files, f.file.package = p.name) ∧
      p.files = files.filter fun f => f.file.package == p.name := by
  simp only [group, List.mem_map, Text.mem_ascending]
  constructor
  · rintro ⟨_, ⟨f, member, rfl⟩, rfl⟩
    exact ⟨⟨f, member, rfl⟩, rfl⟩
  · rintro ⟨⟨f, member, same⟩, files⟩
    refine ⟨p.name, ⟨f, member, same⟩, ?_⟩
    rw [← files]

theorem load_eq_ok {source : FileSource} {exclude : List String} {dir : Path}
    {packages : List Package} (run : load source exclude dir = .ok packages) :
    ∃ listed files, source.list dir = .ok listed ∧
      loadFiles source exclude (Text.inOrder Path.le (listed.filter (wanted exclude))) =
        .ok files ∧ packages = group files := by
  unfold load at run
  obtain ⟨listed, list, run⟩ := bind_eq_ok.mp run
  obtain ⟨files, loaded, run⟩ := bind_eq_ok.mp run
  exact ⟨listed, files, mapError_eq_ok.mp list, loaded, (Except.ok.inj run).symm⟩

theorem mem_load {source : FileSource} {exclude : List String} {dir : Path}
    {packages : List Package} (run : load source exclude dir = .ok packages) (f : ParsedFile) :
    (∃ p ∈ packages, f ∈ p.files) ↔ ∃ listed, source.list dir = .ok listed ∧
      ∃ path ∈ listed, wanted exclude path = true ∧
        loadFile source exclude path = .ok (some f) := by
  obtain ⟨listed, files, list, loaded, rfl⟩ := load_eq_ok run
  have grouped : (∃ p ∈ group files, f ∈ p.files) ↔ f ∈ files := by
    constructor
    · rintro ⟨p, member, inPackage⟩
      rw [(mem_group.mp member).2] at inPackage
      exact List.mem_of_mem_filter inPackage
    · intro member
      refine ⟨⟨f.file.package, files.filter fun g => g.file.package == f.file.package⟩,
        mem_group.mpr ⟨⟨f, member, rfl⟩, rfl⟩, ?_⟩
      exact List.mem_filter.mpr ⟨member, by simp⟩
  rw [grouped, mem_loadFiles loaded]
  constructor
  · rintro ⟨path, member, parsed⟩
    obtain ⟨inListed, fits⟩ := List.mem_filter.mp ((Text.mem_inOrder ..).mp member)
    exact ⟨listed, list, path, inListed, fits, parsed⟩
  · rintro ⟨again, same, path, inListed, fits, parsed⟩
    obtain rfl := Except.ok.inj (list.symm.trans same)
    exact ⟨path, (Text.mem_inOrder ..).mpr (List.mem_filter.mpr ⟨inListed, fits⟩), parsed⟩

theorem load_name {source : FileSource} {exclude : List String} {dir : Path}
    {packages : List Package} (run : load source exclude dir = .ok packages) {p : Package}
    (member : p ∈ packages) : Text.isWord p.name = true := by
  obtain ⟨listed, files, _, loaded, rfl⟩ := load_eq_ok run
  obtain ⟨f, inFiles, named⟩ := (mem_group.mp member).1
  obtain ⟨path, _, parsed⟩ := (mem_loadFiles loaded f).mp inFiles
  obtain ⟨_, text, _, _, ofText⟩ := loadFile_eq_some parsed
  exact named ▸ SourceFile.ofText_package ofText

end Package

namespace Memory

theorem mem_load {m : Memory} {exclude : List String} {dir path : Path} {name : String}
    {packages : List Package} (placed : m.Placed)
    (run : Package.load m.source exclude dir = .ok packages)
    (place : path.lexical = dir.lexical ++ [.name name]) (named : path.fileName? = some name) :
    (∃ p ∈ packages, ∃ f ∈ p.files, f.path.lexical = path.lexical) ↔
      Package.wanted exclude path = true ∧ ∃ text, m.source.read path = .ok text ∧
        (Package.isPrefixedArtifact exclude path && Package.isGenerated text) = false := by
  constructor
  · rintro ⟨p, inPackages, f, inFiles, same⟩
    obtain ⟨listed, list, q, inListed, fits, parsed⟩ :=
      (Package.mem_load run f).mp ⟨p, inPackages, inFiles⟩
    obtain ⟨rfl, text, read, kept, _⟩ := Package.loadFile_eq_some parsed
    obtain ⟨n, _, lexical, called⟩ := mem_list placed list inListed
    have name : f.path.fileName? = path.fileName? := by
      rw [same, place] at lexical
      simp_all
    refine ⟨?_, text, ?_, ?_⟩
    · simpa only [Package.wanted, Package.isSource, name] using fits
    · rw [← read]
      exact read_congr _ same.symm
    · simpa only [Package.isPrefixedArtifact, name] using kept
  · rintro ⟨fits, text, read, kept⟩
    obtain ⟨listed, files, list, loaded, _⟩ := Package.load_eq_ok run
    obtain ⟨q, inListed, same⟩ := list_complete list place read
    obtain ⟨n, _, lexical, called⟩ := mem_list placed list inListed
    have name : q.fileName? = path.fileName? := by
      rw [same, place] at lexical
      simp_all
    have fits' : Package.wanted exclude q = true := by
      simpa only [Package.wanted, Package.isSource, name] using fits
    have read' : m.source.read q = .ok text := by
      rw [← read]
      exact read_congr _ same
    obtain ⟨result, parsed⟩ := Package.loadFiles_each loaded
      ((Text.mem_inOrder ..).mpr (List.mem_filter.mpr ⟨inListed, fits'⟩))
    obtain ⟨f, rfl⟩ := Package.loadFile_kept parsed read' (by
      simpa only [Package.isPrefixedArtifact, name] using kept)
    obtain ⟨p, inPackages, inFiles⟩ :=
      (Package.mem_load run f).mpr ⟨listed, list, q, inListed, fits', parsed⟩
    refine ⟨p, inPackages, f, inFiles, ?_⟩
    rw [(Package.loadFile_eq_some parsed).1, same]

end Memory

end GoSpy
