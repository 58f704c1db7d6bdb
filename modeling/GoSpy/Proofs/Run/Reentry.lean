import GoSpy.Proofs.Run.Artifacts
/- Whether an artifact can come back as a source, over a whole history of a directory. Where the
   name for artifacts is given as one part of a path, none does, whichever packages there were
   when it was written; where the name has a slash in it, the loader compares it with no file's
   name, and every artifact that is called like a source becomes one. -/
namespace GoSpy

/-- What can happen to the files. A run has no normalizing step; its write of a file called
    `fullAt` fails. -/
inductive Event where
  | write (path : Path) (text : String)
  | remove (path : Path)
  | run (exclude : List String) (fullAt : Option String) (o : RunOptions)

/-- Files, and those of them that a run wrote last. -/
structure Chronicle where
  files : Workspace
  made : Workspace

namespace Chronicle

/-- What an event makes of the files. Every run is for the one directory and the one name. -/
def follow (dir : Path) (out : String) (c : Chronicle) : Event → Chronicle
  | .write path text => ⟨c.files.put path text, c.made.remove path⟩
  | .remove path => ⟨c.files.remove path, c.made.remove path⟩
  | .run exclude fullAt o =>
    let ran := (c.files.rehearse exclude { fullAt } { o with out } dir).2
    ⟨ran.files, c.made.replay ran.log⟩

def after (dir : Path) (out : String) (w : Workspace) (events : List Event) : Chronicle :=
  events.foldl (follow dir out) ⟨w, ⟨[]⟩⟩

end Chronicle

namespace Workspace

def AllArtifacts (dir : Path) (out : String) (w : Workspace) : Prop :=
  ∀ f ∈ w.files, IsArtifact dir out f.1 f.2

variable {dir : Path} {out : String} {w : Workspace}

theorem AllArtifacts.remove (all : w.AllArtifacts dir out) (path : Path) :
    (w.remove path).AllArtifacts dir out :=
  fun f member => all f (List.mem_of_mem_filter member)

theorem AllArtifacts.put (all : w.AllArtifacts dir out) {path : Path} {text : String}
    (artifact : IsArtifact dir out path text) : (w.put path text).AllArtifacts dir out := by
  intro f member
  rcases List.mem_append.mp member with before | new
  · exact all.remove path f before
  · exact List.mem_singleton.mp new ▸ artifact

theorem AllArtifacts.replay (all : w.AllArtifacts dir out) {log : List Effect}
    (each : ∀ path text, .wrote path text ∈ log → IsArtifact dir out path text) :
    (w.replay log).AllArtifacts dir out := by
  induction log generalizing w with
  | nil => exact all
  | cons effect log ih =>
    refine ih ?_ fun path text wrote => each path text (List.mem_cons_of_mem _ wrote)
    cases effect with
    | wrote path text => exact all.put (each path text List.mem_cons_self)
    | normalized => exact all

end Workspace

namespace Chronicle

variable {dir : Path} {out : String}

theorem follow_artifacts {c : Chronicle} (all : c.made.AllArtifacts dir out) (event : Event) :
    (c.follow dir out event).made.AllArtifacts dir out := by
  cases event with
  | write path => exact all.remove path
  | remove path => exact all.remove path
  | run => exact all.replay fun _ _ wrote => Workspace.rehearse_artifacts wrote

theorem after_artifacts (dir : Path) (out : String) (w : Workspace) (events : List Event) :
    (after dir out w events).made.AllArtifacts dir out := by
  induction events using List.reverseRecOn with
  | nil => exact fun f member => absurd member List.not_mem_nil
  | append_singleton events event ih =>
    unfold after
    rw [List.foldl_append]
    exact follow_artifacts ih event

end Chronicle

theorem Package.kept_of_slash {dir : Path} {out name : String} (plain : PlainName name)
    (slash : '/' ∈ out.toList) (source : isSource (dir.inside name) = true) :
    wanted [out] (dir.inside name) = true ∧ isPrefixedArtifact [out] (dir.inside name) = false := by
  have named := Path.fileName?_inside dir plain
  constructor
  · have other : name ≠ out := fun same => plain.onePart (same ▸ slash)
    simp [wanted, source, named, other]
  · simp only [isPrefixedArtifact, named, Option.any_some, List.any_cons, List.any_nil,
      Bool.or_false]
    refine Bool.eq_false_iff.mpr fun prefixed => ?_
    have suffix := List.isSuffixOf_iff_suffix.mp (Bool.and_eq_true_iff.mp prefixed).1
    exact plain.onePart (suffix.subset slash)

theorem Path.plain_of_lexical {dir path : Path} {name : String}
    (place : path.lexical = dir.lexical ++ [.name name]) : PlainName name := by
  have parent : Path.parent? (dir.lexical ++ [.name name]) = some dir.lexical := by
    simp [Path.parent?]
  obtain ⟨called, plain, same⟩ := Memory.settled_parent (place ▸ path.lexical_settled) parent
  obtain rfl : name = called := by simpa using same
  exact plain

theorem Workspace.loaded_iff {w : Workspace} {dir path : Path} {name text : String}
    {exclude : List String} {packages : List Package} (plain : PlainName name)
    (place : path.lexical = dir.lexical ++ [.name name])
    (current : w.source.read path = .ok text)
    (loaded : Package.load w.source exclude dir = .ok packages) :
    (∃ p ∈ packages, ∃ f ∈ p.files, f.path.lexical = path.lexical) ↔
      Package.wanted exclude (dir.inside name) = true ∧
        (Package.isPrefixedArtifact exclude (dir.inside name) && Package.isGenerated text) =
          false := by
  have here := Path.lexical_inside dir plain
  have same : path.lexical = (dir.inside name).lexical := place.trans here.symm
  have read : w.source.read (dir.inside name) = .ok text := by
    rw [← current]
    exact Memory.read_congr _ same.symm
  rw [same, Memory.mem_load (Memory.ofFiles_placed w.files) loaded here
    (Path.fileName?_inside dir plain)]
  refine and_congr_right fun _ => ⟨?_, fun kept => ⟨text, read, kept⟩⟩
  rintro ⟨other, again, kept⟩
  obtain rfl := Except.ok.inj (read.symm.trans again)
  exact kept

namespace Chronicle

/-- Over every history, a file right in the directory that a run wrote last is no source of a load
    that excludes `out` if that is one part of a path. Where `out` has a slash in it, the file is
    a source of a load that excludes nothing but `out`, if it is called like one. -/
theorem artifact_reenters_iff (dir : Path) (out : String) (w : Workspace) (events : List Event)
    {path : Path} {text name : String}
    (written : (path, text) ∈ (after dir out w events).made.files)
    (place : path.lexical = dir.lexical ++ [.name name])
    (current : (after dir out w events).files.source.read path = .ok text) :
    (∀ exclude packages, out ∈ exclude →
      Package.load (after dir out w events).files.source exclude dir = .ok packages →
      '/' ∉ out.toList → ¬ ∃ p ∈ packages, ∃ f ∈ p.files, f.path.lexical = path.lexical) ∧
    ∀ packages, Package.load (after dir out w events).files.source [out] dir = .ok packages →
      ((∃ p ∈ packages, ∃ f ∈ p.files, f.path.lexical = path.lexical) ↔
        '/' ∈ out.toList ∧ Package.isSource (dir.inside name) = true) := by
  have artifact := after_artifacts dir out w events _ written
  have plain := Path.plain_of_lexical place
  have never {exclude : List String} {packages : List Package} (excluded : out ∈ exclude)
      (loaded : Package.load (after dir out w events).files.source exclude dir = .ok packages)
      (onePart : '/' ∉ out.toList) :
      ¬ ∃ p ∈ packages, ∃ f ∈ p.files, f.path.lexical = path.lexical := by
    intro source
    obtain ⟨wanted, kept⟩ := (Workspace.loaded_iff plain place current loaded).mp source
    rcases artifact.skipped onePart place plain excluded with unwanted | marked
    · simp [wanted] at unwanted
    · simp [kept] at marked
  refine ⟨fun exclude packages => never, fun packages loaded => ?_⟩
  have sources := Workspace.loaded_iff plain place current loaded
  constructor
  · intro source
    refine ⟨by_contra fun onePart => never List.mem_cons_self loaded onePart source, ?_⟩
    exact (Bool.and_eq_true_iff.mp (sources.mp source).1).1
  · rintro ⟨slash, source⟩
    obtain ⟨wanted, unprefixed⟩ := Package.kept_of_slash plain slash source
    exact sources.mpr ⟨wanted, by simp [unprefixed]⟩

def growth : List Event :=
  [.run ["spies.go"] none { out := "spies.go" }, .write ⟨"pkg/y.go"⟩ "package b\n",
    .run ["spies.go"] none { out := "spies.go" }]

def grown : Chronicle :=
  after ⟨"pkg"⟩ "spies.go" (.ofFiles [(⟨"pkg/x.go"⟩, "package a\n")]) growth

theorem grown_keeps_artifacts_out :
    grown.made.files.map Prod.fst =
        [⟨"pkg/spies.go"⟩, ⟨"pkg/a_spies.go"⟩, ⟨"pkg/b_spies.go"⟩] ∧
      ∃ packages, Package.load grown.files.source ["spies.go"] ⟨"pkg"⟩ = .ok packages ∧
        packages.map Package.name = ["a", "b"] ∧
        ∀ written ∈ grown.made.files,
          ¬ ∃ p ∈ packages, ∃ f ∈ p.files, f.path.lexical = written.1.lexical := by
  have finished : ((Package.load grown.files.source ["spies.go"] ⟨"pkg"⟩).toOption.map
      fun packages => packages.map Package.name) = some ["a", "b"] := by
    decide +kernel
  refine ⟨by decide +kernel, ?_⟩
  cases loaded : Package.load grown.files.source ["spies.go"] ⟨"pkg"⟩ with
  | error => simp [loaded, Except.toOption] at finished
  | ok packages =>
    rw [loaded] at finished
    refine ⟨packages, rfl, Option.some.inj finished, fun written member => ?_⟩
    have places : ∀ f ∈ grown.made.files, ∃ name ∈ ["spies.go", "a_spies.go", "b_spies.go"],
        f.1.lexical = Path.lexical ⟨"pkg"⟩ ++ [.name name] := by
      decide +kernel
    have current : ∀ f ∈ grown.made.files,
        (grown.files.source.read f.1).toOption = some f.2 := by
      decide +kernel
    obtain ⟨name, _, place⟩ := places written member
    have read : grown.files.source.read written.1 = .ok written.2 := by
      have same := current written member
      cases outcome : grown.files.source.read written.1 with
      | ok text => simpa [outcome, Except.toOption] using same
      | error => simp [outcome, Except.toOption] at same
    exact (artifact_reenters_iff ⟨"pkg"⟩ "spies.go" _ growth member place read).1 _ packages
      List.mem_cons_self loaded (by decide)

def dotted : Chronicle :=
  after ⟨"pkg"⟩ "./x.go" (.ofFiles [(⟨"pkg/a.go"⟩, "package a\n")])
    [.run ["./x.go"] none { out := "./x.go" }]

theorem dotted_artifact_reenters :
    ∃ path text packages, (path, text) ∈ dotted.made.files ∧
      path.lexical = Path.lexical ⟨"pkg"⟩ ++ [.name "x.go"] ∧
      dotted.files.source.read path = .ok text ∧
      Package.load dotted.files.source ["./x.go"] ⟨"pkg"⟩ = .ok packages ∧
      ∃ p ∈ packages, ∃ f ∈ p.files, f.path.lexical = path.lexical := by
  have finished : (Package.load dotted.files.source ["./x.go"] ⟨"pkg"⟩).toOption.isSome = true := by
    decide +kernel
  cases loaded : Package.load dotted.files.source ["./x.go"] ⟨"pkg"⟩ with
  | error => simp [loaded, Except.toOption] at finished
  | ok packages =>
    let path : Path := ⟨"pkg/./x.go"⟩
    have place : path.lexical = Path.lexical ⟨"pkg"⟩ ++ [.name "x.go"] := by decide +kernel
    have named : path.fileName? = some "x.go" := by decide +kernel
    let text := "// Code generated by fm. DO NOT EDIT.\n\npackage a_test\n"
    have source :=
      Memory.mem_load (Memory.ofFiles_placed dotted.files.files) loaded place named
    refine ⟨path, text, packages, ?_, place, ?_, rfl, source.mpr ⟨?_, text, ?_, ?_⟩⟩
    all_goals decide +kernel

end Chronicle

end GoSpy
