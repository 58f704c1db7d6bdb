import GoSpy.Proofs.Run.Artifacts
/- Which of its own sources a run can write over: none if there is one package, and among
   several exactly the hand-written files that have the name of an artifact. -/
namespace GoSpy

theorem Rehearsal.performAll_unhindered (jobs : List Job) (r : Rehearsal) :
    ((Job.performAll (target {}) jobs).run r).1 = .ok (jobs.map Job.artifact) ∧
      ((Job.performAll (target {}) jobs).run r).2.log =
        r.log ++ jobs.map fun job => .wrote job.artifact.path job.text := by
  have unaided : ({} : Obstacles).normalizing = none := rfl
  rw [performAll_clear unaided (fun _ _ => rfl) r]
  exact ⟨rfl, rfl⟩

theorem run_writes (source : FileSource) (exclude : List String) (obstacles : Obstacles)
    (o : RunOptions) (dir : Path) (r : Rehearsal) (path : Path) (text : String)
    (wrote : .wrote path text ∈
      ((run source exclude (Rehearsal.target obstacles) o dir).run r).2.log) :
    .wrote path text ∈ r.log ∨
      ∃ packages, Package.load source exclude dir = .ok packages ∧ ∃ p ∈ packages,
        path = dir.join (Job.outName (decide (1 < packages.length)) p.name o.out) := by
  obtain ⟨added, state, each⟩ := run_adds source exclude obstacles o dir r
  rw [state] at wrote
  rcases List.mem_append.mp wrote with before | new
  · exact Or.inl before
  · obtain ⟨packages, loaded, job, planned, rfl, _⟩ := each path text new
    obtain ⟨p, member, rfl⟩ := List.mem_map.mp planned
    exact Or.inr ⟨packages, loaded, p, member, rfl⟩

namespace Workspace

/-- A run that passes over `o.out` writes where one of the sources of that very run lies. -/
def OverwritesSource (w : Workspace) (obstacles : Obstacles) (o : RunOptions) (dir : Path) :
    Prop :=
  ∃ path text, .wrote path text ∈ (w.rehearse [o.out] obstacles o dir).2.log ∧
    ∃ packages, Package.load w.source [o.out] dir = .ok packages ∧
      ∃ p ∈ packages, ∃ f ∈ p.files, f.path.lexical = path.lexical

/-- Of several packages one has a source under the name of its own artifact: a file that
    carries no mark of generated code. -/
def ArtifactNameTaken (w : Workspace) (o : RunOptions) (dir : Path) : Prop :=
  ∃ packages, Package.load w.source [o.out] dir = .ok packages ∧ 1 < packages.length ∧
    ∃ p ∈ packages, Package.isSource (dir.join (p.name ++ "_" ++ o.out)) = true ∧
      ∃ text, w.source.read (dir.join (p.name ++ "_" ++ o.out)) = .ok text ∧
        Package.isGenerated text = false

theorem artifact_loaded_iff {w : Workspace} {out : String} {dir : Path}
    {packages : List Package} (plain : PlainName out)
    (loaded : Package.load w.source [out] dir = .ok packages) {p : Package}
    (member : p ∈ packages) :
    (∃ q ∈ packages, ∃ f ∈ q.files,
        f.path.lexical = (dir.join (p.name ++ "_" ++ out)).lexical) ↔
      Package.isSource (dir.join (p.name ++ "_" ++ out)) = true ∧
        ∃ text, w.source.read (dir.join (p.name ++ "_" ++ out)) = .ok text ∧
          Package.isGenerated text = false := by
  have word := Package.load_name loaded member
  have own := Package.artifactName_plain word plain.onePart
  have named := Path.fileName?_join dir own
  have prefixed : Package.isPrefixedArtifact [out] (dir.join (p.name ++ "_" ++ out)) = true := by
    simp only [Package.isPrefixedArtifact, named, Option.any_some, List.any_cons,
      List.any_nil, Bool.or_false]
    exact Package.artifactName_prefixed out word
  have other : p.name ++ "_" ++ out ≠ out := by
    intro same
    have lengths := congrArg String.length same
    simp only [String.length_append] at lengths
    have one : "_".length = 1 := rfl
    omega
  have placed := Memory.ofFiles_placed w.files
  have sources := Memory.mem_load placed loaded (Path.lexical_join dir own) named
  rw [sources]
  simp only [Package.wanted, named, prefixed, Option.any_some, Bool.true_and,
    Bool.and_eq_true, Bool.not_eq_true', List.contains_cons, List.contains_nil, Bool.or_false,
    beq_eq_false_iff_ne]
  constructor
  · rintro ⟨⟨isSource, _⟩, text, read, unmarked⟩
    exact ⟨isSource, text, read, unmarked⟩
  · rintro ⟨isSource, text, read, unmarked⟩
    exact ⟨⟨isSource, other⟩, text, read, unmarked⟩

/-- Whatever a run meets, it writes over a source only where a hand-written file has the name
    of an artifact, and if nothing hinders it, it does so there. -/
theorem overwrites_where_name_taken (w : Workspace) (o : RunOptions) (dir : Path)
    (plain : PlainName o.out) :
    (∀ obstacles, w.OverwritesSource obstacles o dir → w.ArtifactNameTaken o dir) ∧
      (w.ArtifactNameTaken o dir → w.OverwritesSource {} o dir) := by
  constructor
  · rintro obstacles ⟨path, text, wrote, packages, loaded, source⟩
    rcases run_writes w.source [o.out] obstacles o dir ⟨w, []⟩ path text wrote with
      before | ⟨again, same, p, member, rfl⟩
    · exact absurd before List.not_mem_nil
    · obtain rfl := Except.ok.inj (loaded.symm.trans same)
      by_cases several : 1 < packages.length
      · simp only [Job.outName, several, decide_true, if_true] at source
        have taken := (artifact_loaded_iff plain loaded member).mp source
        exact ⟨packages, loaded, several, p, member, taken⟩
      · -- A single artifact is called `o.out`, and no source is.
        simp only [Job.outName, several, decide_false] at source
        have placed := Memory.ofFiles_placed w.files
        have named := Path.fileName?_join dir plain
        have sources := Memory.mem_load placed loaded (Path.lexical_join dir plain) named
        have wanted := (sources.mp source).1
        simp [Package.wanted, named] at wanted
  · rintro ⟨packages, loaded, several, p, member, taken⟩
    have log := (Rehearsal.performAll_unhindered (Job.plan o dir packages) ⟨w, []⟩).2
    have outcome := (Rehearsal.performAll_unhindered (Job.plan o dir packages) ⟨w, []⟩).1
    refine ⟨dir.join (p.name ++ "_" ++ o.out), (Job.ofPackage o dir true p).text, ?_, packages,
      loaded, (artifact_loaded_iff plain loaded member).mpr taken⟩
    have whole : (w.rehearse [o.out] {} o dir).2.log =
        (Job.plan o dir packages).map fun job => .wrote job.artifact.path job.text := by
      simp only [rehearse, run, loaded, run_bind, outcome]
      exact log.trans (List.nil_append _)
    rw [whole]
    refine List.mem_map.mpr ⟨Job.ofPackage o dir true p, ?_, rfl⟩
    refine List.mem_map.mpr ⟨p, member, ?_⟩
    simp [several]

def rerun : Workspace :=
  ofFiles [(⟨"pkg/x.go"⟩, "package a\n"), (⟨"pkg/y.go"⟩, "package b\n"),
    (⟨"pkg/a_spies.go"⟩, "// Code generated by fm. DO NOT EDIT.\n\npackage a_test\n")]

theorem rerun_spares_sources :
    PlainName "spies.go" ∧
      ∀ obstacles, ¬ rerun.OverwritesSource obstacles { out := "spies.go" } ⟨"pkg"⟩ := by
  have plain : PlainName "spies.go" := ⟨by decide, by decide, by decide, by decide⟩
  refine ⟨plain, fun obstacles overwrites => ?_⟩
  obtain ⟨packages, loaded, _, p, member, _, text, read, unmarked⟩ :=
    (overwrites_where_name_taken rerun { out := "spies.go" } ⟨"pkg"⟩ plain).1 obstacles overwrites
  have names : ((Package.load rerun.source ["spies.go"] ⟨"pkg"⟩).toOption.map fun packages =>
      packages.map Package.name) = some ["a", "b"] := by
    decide +kernel
  rw [loaded] at names
  have named : p.name ∈ ["a", "b"] := by
    rw [← Option.some.inj names]
    exact List.mem_map_of_mem member
  rcases List.mem_pair.mp named with first | second
  · rw [first] at read
    have marked : rerun.source.read (Path.join ⟨"pkg"⟩ ("a" ++ "_" ++ "spies.go")) =
        .ok "// Code generated by fm. DO NOT EDIT.\n\npackage a_test\n" := by
      decide +kernel
    obtain rfl := Except.ok.inj (marked.symm.trans read)
    exact absurd unmarked (by decide +kernel)
  · rw [second] at read
    have absent : (rerun.source.read
        (Path.join ⟨"pkg"⟩ ("b" ++ "_" ++ "spies.go"))).toOption = none := by
      decide +kernel
    simp only [read] at absent
    exact absurd absent (by simp [Except.toOption])

def nameSharers : Workspace :=
  ofFiles [(⟨"pkg/x.go"⟩, "package a\n"), (⟨"pkg/a_spies.go"⟩, "package b\n")]

theorem source_overwritten :
    PlainName "spies.go" ∧ nameSharers.OverwritesSource {} { out := "spies.go" } ⟨"pkg"⟩ := by
  refine ⟨⟨by decide, by decide, by decide, by decide⟩, ?_⟩
  have finished : (Package.load nameSharers.source ["spies.go"] ⟨"pkg"⟩).toOption.isSome =
      true := by
    decide +kernel
  cases loaded : Package.load nameSharers.source ["spies.go"] ⟨"pkg"⟩ with
  | error => simp [loaded, Except.toOption] at finished
  | ok packages =>
    let path : Path := ⟨"pkg/a_spies.go"⟩
    have place : path.lexical = Path.lexical ⟨"pkg"⟩ ++ [.name "a_spies.go"] := by
      decide +kernel
    have named : path.fileName? = some "a_spies.go" := by decide +kernel
    have source := Memory.mem_load (Memory.ofFiles_placed _) loaded place named
    refine ⟨path, "// Code generated by fm. DO NOT EDIT.\n\npackage a_test\n", ?_, packages,
      loaded, source.mpr ⟨?_, "package b\n", ?_, ?_⟩⟩
    all_goals decide +kernel

end Workspace

end GoSpy
