import GoSpy.Proofs.Run.Overwriting
/- A run that spares its sources can be repeated: what it has written is no source of the next
   run, so that this finds the same packages, makes the same artifacts of them and writes what is
   there already. -/
namespace GoSpy

namespace Workspace

variable {w : Workspace} {exclude : List String} {obstacles : Obstacles} {o : RunOptions}
variable {dir : Path} {packages : List Package}

theorem rehearse_clear (unaided : obstacles.normalizing = none)
    (loaded : Package.load w.source exclude dir = .ok packages)
    (clear : ∀ job ∈ Job.plan o dir packages, obstacles.stops job.artifact.path = false) :
    w.rehearse exclude obstacles o dir =
      (.ok ⟨(Job.plan o dir packages).map Job.artifact⟩,
        ⟨w.replay ((Job.plan o dir packages).map Job.effect),
          (Job.plan o dir packages).map Job.effect⟩) := by
  have all := Rehearsal.performAll_clear unaided clear ⟨w, []⟩
  unfold rehearse run
  rw [loaded]
  dsimp only
  rw [run_bind, all]
  rfl

theorem rehearse_succeeds (unaided : obstacles.normalizing = none) {report : Report}
    (ran : (w.rehearse exclude obstacles o dir).1 = .ok report) :
    ∃ packages, Package.load w.source exclude dir = .ok packages ∧
      ∀ job ∈ Job.plan o dir packages, obstacles.stops job.artifact.path = false := by
  unfold rehearse run at ran
  cases loaded : Package.load w.source exclude dir with
  | error =>
    rw [loaded] at ran
    cases ran
  | ok packages =>
    refine ⟨packages, rfl, ?_⟩
    rw [loaded] at ran
    dsimp only at ran
    rw [run_bind] at ran
    cases all : ((Job.performAll (Rehearsal.target obstacles) (Job.plan o dir packages)).run
        ⟨w, []⟩).1 with
    | ok written => exact Rehearsal.clear_of_performAll unaided all
    | error =>
      rw [all] at ran
      cases ran

theorem load_again (plain : PlainName o.out)
    (loaded : Package.load w.source [o.out] dir = .ok packages)
    (spares : ¬ w.OverwritesSource obstacles o dir) :
    Package.load (w.rehearse [o.out] obstacles o dir).2.files.source [o.out] dir =
      .ok packages := by
  have files := w.rehearse_files [o.out] obstacles o dir
  refine Package.load_unchanged (Memory.ofFiles_placed _) (Memory.ofFiles_distinct _)
    (Memory.ofFiles_placed _) (Memory.ofFiles_distinct _) loaded ?_ ?_
  · intro path text read
    rw [files]
    exact read_replay_kept _ read
  · -- A file that differs was written by the run. So it is an artifact now, and it was no source
    -- before, as the run spares its sources.
    intro name plainName differs wanted
    have place := Path.lexical_inside dir plainName
    have after := w.read_replay (w.rehearse [o.out] obstacles o dir).2.log (dir.inside name)
    rw [← files] at after
    cases last : lastWritten (w.rehearse [o.out] obstacles o dir).2.log
        (dir.inside name).lexical with
    | none =>
      rw [last] at after
      exact absurd after differs
    | some text =>
      rw [last] at after
      obtain ⟨path, wrote, here⟩ := lastWritten_eq_some last
      have marked : (Package.isPrefixedArtifact [o.out] (dir.inside name) &&
          Package.isGenerated text) = true := by
        have excluded : o.out ∈ [o.out] := List.mem_cons_self
        rcases (rehearse_artifacts wrote).skipped plain.onePart (here.trans place) plainName
          excluded with unwanted | marked
        · simp [wanted] at unwanted
        · exact marked
      refine ⟨Package.loadFile_artifact after marked, ?_⟩
      intro f parsed
      obtain ⟨same, before, read, _⟩ := Package.loadFile_eq_some parsed
      obtain ⟨listed, _, list, _⟩ := Package.load_eq_ok loaded
      have inListed := (Memory.mem_list_iff (Memory.ofFiles_placed _) list (dir.inside name)).mpr
        ⟨name, plainName, rfl, before, read⟩
      obtain ⟨p, inPackages, inFiles⟩ :=
        (Package.mem_load loaded f).mpr ⟨listed, list, _, inListed, wanted, parsed⟩
      exact spares ⟨path, text, wrote, packages, loaded, p, inPackages, f, inFiles,
        by rw [same, here]⟩

/-- A run that succeeds and writes over none of its sources succeeds again, with the same report,
    and then leaves every file as it is. -/
theorem rehearse_again (w : Workspace) (obstacles : Obstacles) (o : RunOptions) (dir : Path)
    {report : Report} (plain : PlainName o.out) (unaided : obstacles.normalizing = none)
    (ran : (w.rehearse [o.out] obstacles o dir).1 = .ok report)
    (spares : ¬ w.OverwritesSource obstacles o dir) :
    ((w.rehearse [o.out] obstacles o dir).2.files.rehearse [o.out] obstacles o dir).1 =
        .ok report ∧
      ∀ path,
        ((w.rehearse [o.out] obstacles o dir).2.files.rehearse
            [o.out] obstacles o dir).2.files.source.read path =
          (w.rehearse [o.out] obstacles o dir).2.files.source.read path := by
  obtain ⟨packages, loaded, clear⟩ := rehearse_succeeds unaided ran
  have first := rehearse_clear unaided loaded clear
  have again := rehearse_clear unaided (load_again plain loaded spares) clear
  rw [again, ← ran, first]
  exact ⟨rfl, fun path => read_replay_twice w _ path⟩

/-- Two packages among files of earlier runs: an artifact from when there was one package, one of
    the first package that is out of date and one of a package that is gone. A hand-written file
    is called almost like an artifact. -/
def littered : Workspace :=
  ofFiles [(⟨"pkg/x.go"⟩, "package a\ntype Doer interface { Do() }\n"),
    (⟨"pkg/y.go"⟩, "package b\n"), (⟨"pkg/spies.go"⟩, "package a_test\n"),
    (⟨"pkg/a_spies.go"⟩, "// Code generated by fm. DO NOT EDIT.\n\npackage a_test\n"),
    (⟨"pkg/c_spies.go"⟩, "// Code generated by fm. DO NOT EDIT.\n\npackage c_test\n"),
    (⟨"pkg/my_spies.go"⟩, "package b\ntype Spy struct{}\n")]

def writtenPlaces (log : List Effect) : List (List Step) :=
  log.filterMap fun effect => match effect with
    | .wrote path _ => some path.lexical
    | .normalized _ => none

def spying : RunOptions := { out := "spies.go" }

theorem littered_runs :
    ∃ report, (littered.rehearse [spying.out] {} spying ⟨"pkg"⟩).1 = .ok report := by
  have finished :
      (littered.rehearse [spying.out] {} spying ⟨"pkg"⟩).1.toOption.isSome = true := by
    decide +kernel
  cases outcome : (littered.rehearse [spying.out] {} spying ⟨"pkg"⟩).1 with
  | ok report => exact ⟨report, rfl⟩
  | error => simp [outcome, Except.toOption] at finished

theorem littered_spares : ¬ littered.OverwritesSource {} spying ⟨"pkg"⟩ := by
  have places : writtenPlaces (littered.rehearse [spying.out] {} spying ⟨"pkg"⟩).2.log =
      [[.name "pkg", .name "a_spies.go"], [.name "pkg", .name "b_spies.go"]] := by
    decide +kernel
  have sources : ((Package.load littered.source [spying.out] ⟨"pkg"⟩).toOption.map fun packages =>
      packages.flatMap fun p => p.files.map fun f => f.path.lexical) =
        some [[.name "pkg", .name "x.go"], [.name "pkg", .name "my_spies.go"],
          [.name "pkg", .name "y.go"]] := by
    decide +kernel
  rintro ⟨path, text, wrote, packages, loaded, p, inPackages, f, inFiles, same⟩
  rw [loaded] at sources
  have listed : (packages.flatMap fun p => p.files.map fun f => f.path.lexical) =
      [[.name "pkg", .name "x.go"], [.name "pkg", .name "my_spies.go"],
        [.name "pkg", .name "y.go"]] := Option.some.inj sources
  have source : f.path.lexical ∈ packages.flatMap fun p => p.files.map fun f => f.path.lexical :=
    List.mem_flatMap.mpr ⟨p, inPackages, List.mem_map_of_mem inFiles⟩
  have written : path.lexical ∈
      writtenPlaces (littered.rehearse [spying.out] {} spying ⟨"pkg"⟩).2.log :=
    List.mem_filterMap.mpr ⟨_, wrote, rfl⟩
  rw [listed] at source
  rw [places, ← same] at written
  simp only [List.mem_cons, List.not_mem_nil, or_false] at source
  rcases source with here | here | here <;> simp [here] at written

theorem littered_rehearsed_again :
    PlainName spying.out ∧ ∃ report,
      (littered.rehearse [spying.out] {} spying ⟨"pkg"⟩).1 = .ok report ∧
      ¬ littered.OverwritesSource {} spying ⟨"pkg"⟩ ∧
      ((littered.rehearse [spying.out] {} spying ⟨"pkg"⟩).2.files.rehearse
        [spying.out] {} spying ⟨"pkg"⟩).1 = .ok report := by
  have plain : PlainName spying.out := ⟨by decide, by decide, by decide, by decide⟩
  obtain ⟨report, ran⟩ := littered_runs
  have again := rehearse_again littered {} spying ⟨"pkg"⟩ plain rfl ran littered_spares
  exact ⟨plain, report, ran, littered_spares, again.1⟩

end Workspace

end GoSpy
