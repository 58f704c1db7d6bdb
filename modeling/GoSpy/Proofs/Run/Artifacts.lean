import GoSpy.Proofs.Run.Effects
import GoSpy.Proofs.Store.Grouping
/- The files that a run writes: what they are called, and that their text carries the mark of
   generated code, so that the next run can tell them from sources. -/
namespace GoSpy

namespace Package

theorem artifactName_prefixed {package : String} (out : String)
    (named : Text.isWord package = true) :
    isPrefixed out.toList (package ++ "_" ++ out).toList = true := by
  refine (isPrefixed_iff out _).mpr ⟨package, ?_, rfl⟩
  rintro rfl
  obtain ⟨c, rest, shape, _⟩ := (Text.isWord_iff "").mp named
  cases shape

theorem slash_not_mem_of_isWord {package : String} (named : Text.isWord package = true) :
    '/' ∉ package.toList := by
  intro slash
  have continues := Text.continuesName_of_isWord named '/' slash
  exact absurd continues (by decide)

theorem prefixedName_plain {package out : String} (clear : '/' ∉ package.toList)
    (onePart : '/' ∉ out.toList) : PlainName (package ++ "_" ++ out) := by
  have underscore : '_' ∈ (package ++ "_" ++ out).toList := by simp
  refine ⟨?_, ?_, ?_, ?_⟩
  · intro empty
    simp [empty] at underscore
  · intro dot
    rw [dot] at underscore
    exact absurd underscore (by decide)
  · intro dots
    rw [dots] at underscore
    exact absurd underscore (by decide)
  · simp [clear, onePart]

theorem artifactName_plain {package out : String} (named : Text.isWord package = true)
    (onePart : '/' ∉ out.toList) : PlainName (package ++ "_" ++ out) :=
  prefixedName_plain (slash_not_mem_of_isWord named) onePart

end Package

theorem Artifact.text_generated (a : Artifact) : Package.isGenerated a.text = true := by
  obtain ⟨rest, shape⟩ : ∃ rest, a.text.toList = mark.toList ++ '\n' :: rest := by
    refine ⟨(Layout.unlines (["", "package " ++ a.package] ++ importLines a.imports) ++
      String.join (a.decls.map fun d => "\n" ++ d.text)).toList, ?_⟩
    simp [text, headLines, Layout.unlines]
  have bare : a.text.toList.dropWhile (· == '\ufeff') = a.text.toList := by
    rw [shape]
    rfl
  have oneLine : '\n' ∉ mark.toList := by decide
  have lines : Package.textLines a.text =
      mark.toList :: (Text.cutAt '\n' rest).map (Text.dropEndWhile (· == '\r')) := by
    rw [Package.textLines, bare, shape, Text.cutAt_append_mark, Text.cutAt_unmarked oneLine]
    rfl
  have marked : Package.isMark mark.toList = true := by decide +kernel
  have front : (!"package".toList.isPrefixOf mark.toList) = true := by decide +kernel
  rw [Package.isGenerated, lines, List.takeWhile_cons, if_pos front]
  simp [marked]

/-- A file as a run writes it: at a path made of `out` and a package, with the mark. -/
structure IsArtifact (dir : Path) (out : String) (path : Path) (text : String) : Prop where
  path : ∃ several package, Text.isWord package = true ∧
    path = dir.join (Job.outName several package out)
  generated : Package.isGenerated text = true

theorem Workspace.rehearse_artifacts {w : Workspace} {exclude : List String}
    {obstacles : Obstacles} {o : RunOptions} {dir path : Path} {text : String}
    (wrote : .wrote path text ∈ (w.rehearse exclude obstacles o dir).2.log) :
    IsArtifact dir o.out path text := by
  obtain ⟨packages, loaded, job, planned, rfl, rfl⟩ := rehearse_wrote wrote
  obtain ⟨p, member, rfl⟩ := List.mem_map.mp planned
  exact ⟨⟨_, p.name, Package.load_name loaded member, rfl⟩, Artifact.text_generated _⟩

namespace IsArtifact

variable {dir path : Path} {out text name : String}

theorem name_eq (artifact : IsArtifact dir out path text) (onePart : '/' ∉ out.toList)
    (place : path.lexical = dir.lexical ++ [.name name]) :
    name = out ∨ Package.isPrefixed out.toList name.toList = true := by
  obtain ⟨several, package, word, rfl⟩ := artifact.path
  have same {called : String} (plain : PlainName called)
      (here : (dir.join called).lexical = dir.lexical ++ [.name name]) : name = called := by
    rw [Path.lexical_join dir plain] at here
    simpa using here.symm
  cases several with
  | true =>
    obtain rfl := same (Package.artifactName_plain word onePart) place
    exact Or.inr (Package.artifactName_prefixed out word)
  | false => exact Or.inl (same (Path.plain_of_lexical_join onePart place) place)

theorem skipped (artifact : IsArtifact dir out path text) (onePart : '/' ∉ out.toList)
    (place : path.lexical = dir.lexical ++ [.name name]) (plain : PlainName name)
    {exclude : List String} (excluded : out ∈ exclude) :
    Package.wanted exclude (dir.inside name) = false ∨
      (Package.isPrefixedArtifact exclude (dir.inside name) && Package.isGenerated text) =
        true := by
  have named := Path.fileName?_inside dir plain
  rcases artifact.name_eq onePart place with rfl | prefixed
  · refine Or.inl ?_
    simp [Package.wanted, named, excluded]
  · refine Or.inr (Bool.and_eq_true_iff.mpr ⟨?_, artifact.generated⟩)
    simp only [Package.isPrefixedArtifact, named, Option.any_some]
    exact List.any_eq_true.mpr ⟨out, excluded, prefixed⟩

end IsArtifact

end GoSpy
