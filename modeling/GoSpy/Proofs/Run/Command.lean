import GoSpy.Proofs.Run.Artifacts
/- Commands whose parts can be exchanged, and the calls that they make to write and to normalize.
   Whatever a call answers, a run makes the calls of its plan one after the other and ends at the
   first that fails. -/
namespace GoSpy

structure PackageMap where
  entries : List (String × Package)
  ascending : (entries.map Prod.fst).Pairwise (· < ·)

structure Command (m : Type → Type) where
  parse : Path → Except LoadError PackageMap
  generate : Package → Generation
  write : Path → String → m (Except RunError Unit)
  normalize : Option (Path → m (Except RunError Unit))
  packageSuffix : String

namespace Command

section

variable {m : Type → Type}

def job (c : Command m) (dir : Path) (out : String) (several : Bool) (name : String)
    (p : Package) : Job :=
  let generation := c.generate p
  let resolution := (Job.scopeOf p).resolve generation.decls
  { artifact :=
      ⟨name, dir.join (Job.outName several name out), generation.spies, generation.skipped⟩
    text := Artifact.text ⟨name ++ c.packageSuffix, resolution.imports, resolution.decls⟩ }

def plan (c : Command m) (dir : Path) (out : String) (packages : PackageMap) : List Job :=
  packages.entries.map fun entry =>
    c.job dir out (decide (1 < packages.entries.length)) entry.1 entry.2

variable [Monad m]

def perform (c : Command m) (job : Job) : m (Except RunError Unit) := do
  match ← c.write job.artifact.path job.text with
  | .error e => return .error e
  | .ok () =>
    match c.normalize with
    | none => return .ok ()
    | some normalize => normalize job.artifact.path

def performAll (c : Command m) : List Job → m (Except RunError (List Written))
  | [] => return .ok []
  | job :: rest => do
    match ← perform c job with
    | .error e => return .error e
    | .ok () =>
      match ← performAll c rest with
      | .error e => return .error e
      | .ok written => return .ok (job.artifact :: written)

def run (c : Command m) (dir : Path) (out : String) : m (Except RunError Report) := do
  match c.parse dir with
  | .error e => return .error (.load e)
  | .ok packages =>
    match ← c.performAll (c.plan dir out packages) with
    | .error e => return .error e
    | .ok written => return .ok ⟨written⟩

end

end Command

/- The command as it runs -/

def Package.loadMap (source : FileSource) (exclude : List String) (dir : Path) :
    Except LoadError PackageMap :=
  match loaded : load source exclude dir with
  | .error e => .error e
  | .ok packages => .ok
    { entries := packages.map fun p => (p.name, p)
      ascending := by
        rw [List.map_map]
        exact load_ascending loaded }

theorem Package.loadMap_error {source : FileSource} {exclude : List String} {dir : Path}
    {e : LoadError} (failed : load source exclude dir = .error e) :
    loadMap source exclude dir = .error e := by
  unfold loadMap
  split <;> simp_all

theorem Package.loadMap_ok {source : FileSource} {exclude : List String} {dir : Path}
    {packages : List Package} (loaded : load source exclude dir = .ok packages) :
    ∃ entries, loadMap source exclude dir = .ok entries ∧
      entries.entries = packages.map fun p => (p.name, p) := by
  unfold loadMap
  split <;> simp_all

section

variable {m : Type → Type} [Monad m]

def Command.ofTarget (source : FileSource) (exclude : List String) (target : Target m)
    (o : RunOptions) : Command m where
  parse := Package.loadMap source exclude
  generate p := Generation.of o.spy p.decls
  write path text := return (← target.write path text).mapError (.write path)
  normalize := target.normalize.map fun normalize path =>
    return (← normalize path).mapError (.normalize path)
  packageSuffix := o.packageSuffix

variable [LawfulMonad m] {source : FileSource} {exclude : List String} {target : Target m}
  {o : RunOptions}

theorem Command.perform_ofTarget (job : Job) :
    (ofTarget source exclude target o).perform job = Job.perform target job := by
  unfold perform Job.perform Job.normalize ofTarget
  simp only [bind_assoc, pure_bind]
  congr 1
  funext written
  cases written with
  | error => rfl
  | ok =>
    cases target.normalize with
    | none => rfl
    | some normalize =>
      refine bind_congr (x := normalize job.artifact.path) fun normalized => ?_
      cases normalized <;> rfl

theorem Command.performAll_ofTarget (jobs : List Job) :
    (ofTarget source exclude target o).performAll jobs = Job.performAll target jobs := by
  induction jobs with
  | nil => rfl
  | cons job rest ih =>
    rw [performAll, Job.performAll, perform_ofTarget]
    refine bind_congr fun outcome => ?_
    cases outcome with
    | error => rfl
    | ok => exact congrArg (fun written => written >>= _) ih

theorem run_eq_command (dir : Path) :
    run source exclude target o dir = (Command.ofTarget source exclude target o).run dir o.out := by
  unfold run Command.run
  cases loaded : Package.load source exclude dir with
  | error e =>
    have failed : (Command.ofTarget source exclude target o).parse dir = .error e :=
      Package.loadMap_error loaded
    rw [failed]
  | ok packages =>
    obtain ⟨map, parsed, entries⟩ := Package.loadMap_ok loaded
    have same : (Command.ofTarget source exclude target o).parse dir = .ok map := parsed
    have plan : (Command.ofTarget source exclude target o).plan dir o.out map =
        Job.plan o dir packages := by
      rw [Command.plan, Job.plan, entries, List.map_map, List.length_map]
      rfl
    have all : Job.performAll target (Job.plan o dir packages) =
        (Command.ofTarget source exclude target o).performAll
          ((Command.ofTarget source exclude target o).plan dir o.out map) := by
      rw [plan, Command.performAll_ofTarget]
    rw [same]
    exact congrArg (fun written => written >>= _) all

end

/- Calls -/

inductive Call where
  | write (path : Path) (text : String)
  | normalize (path : Path)
deriving DecidableEq, Repr

/-- What a command meets: whether it has a normalizer, and what a call answers after those that
    were made before it. -/
structure Surroundings where
  normalizes : Bool
  answer : List Call → Call → Except RunError Unit

namespace Surroundings

def call (s : Surroundings) (call : Call) : StateM (List Call) (Except RunError Unit) := do
  let before ← get
  set (before ++ [call])
  return s.answer before call

def command (s : Surroundings) (parse : Path → Except LoadError PackageMap)
    (generate : Package → Generation) (packageSuffix : String) : Command (StateM (List Call)) where
  parse := parse
  generate := generate
  write path text := s.call (.write path text)
  normalize := if s.normalizes then some fun path => s.call (.normalize path) else none
  packageSuffix := packageSuffix

def jobCalls (s : Surroundings) (job : Job) : List Call :=
  .write job.artifact.path job.text ::
    if s.normalizes then [.normalize job.artifact.path] else []

def calls (s : Surroundings) (jobs : List Job) : List Call := jobs.flatMap s.jobCalls

def NoneFails (s : Surroundings) (before calls : List Call) : Prop :=
  ∀ front call back, calls = front ++ call :: back → s.answer (before ++ front) call = .ok ()

/-- A run of jobs makes all their calls, or those up to the first that fails, and then gives that
    failure. -/
inductive Carries (s : Surroundings) (jobs : List Job) : Except RunError Report → List Call → Prop
  | completed : s.NoneFails [] (s.calls jobs) →
      Carries s jobs (.ok ⟨jobs.map Job.artifact⟩) (s.calls jobs)
  | stopped {front back : List Call} {call : Call} {error : RunError} :
      s.calls jobs = front ++ call :: back → s.NoneFails [] front →
      s.answer front call = .error error → Carries s jobs (.error error) (front ++ [call])

variable {s : Surroundings}

theorem noneFails_cons {before calls : List Call} {call : Call} :
    s.NoneFails before (call :: calls) ↔
      s.answer before call = .ok () ∧ s.NoneFails (before ++ [call]) calls := by
  constructor
  · intro fine
    constructor
    · simpa using fine [] call calls rfl
    · rintro front later back rfl
      simpa using fine (call :: front) later back rfl
  · rintro ⟨first, others⟩ front later back split
    cases front with
    | nil =>
      obtain ⟨rfl, _⟩ := List.cons.inj split
      simpa using first
    | cons head front =>
      obtain ⟨rfl, rest⟩ := List.cons.inj split
      simpa using others front later back rest

def obey (s : Surroundings) (before : List Call) : List Call → Except RunError Unit × List Call
  | [] => (.ok (), before)
  | call :: rest =>
    match s.answer before call with
    | .error error => (.error error, before ++ [call])
    | .ok () => s.obey (before ++ [call]) rest

theorem obey_append (before front back : List Call) :
    s.obey before (front ++ back) =
      match s.obey before front with
      | (.error error, made) => (.error error, made)
      | (.ok (), made) => s.obey made back := by
  induction front generalizing before with
  | nil => rfl
  | cons call front ih =>
    rw [List.cons_append, obey, obey]
    cases s.answer before call with
    | error => rfl
    | ok => exact ih _

theorem obey_cases (before calls : List Call) :
    (s.NoneFails before calls ∧ s.obey before calls = (.ok (), before ++ calls)) ∨
      ∃ front call back error, calls = front ++ call :: back ∧ s.NoneFails before front ∧
        s.answer (before ++ front) call = .error error ∧
        s.obey before calls = (.error error, before ++ (front ++ [call])) := by
  induction calls generalizing before with
  | nil =>
    refine Or.inl ⟨?_, by simp [obey]⟩
    intro front call back split
    simp at split
  | cons call calls ih =>
    cases answered : s.answer before call with
    | error error =>
      refine Or.inr ⟨[], call, calls, error, rfl, ?_, by simpa using answered, ?_⟩
      · intro front call back split
        simp at split
      · simp [obey, answered]
    | ok =>
      have next : s.obey before (call :: calls) = s.obey (before ++ [call]) calls := by
        rw [obey, answered]
      rw [next]
      rcases ih (before ++ [call]) with ⟨fine, made⟩ | ⟨front, failing, back, error, split, fine,
        failed, made⟩
      · exact Or.inl ⟨noneFails_cons.mpr ⟨answered, fine⟩, by simpa using made⟩
      · refine Or.inr ⟨call :: front, failing, back, error, by rw [split]; rfl,
          noneFails_cons.mpr ⟨answered, fine⟩, by simpa using failed, by simpa using made⟩

variable {parse : Path → Except LoadError PackageMap} {generate : Package → Generation}
  {packageSuffix : String}

theorem perform_obeys (job : Job) (before : List Call) :
    ((s.command parse generate packageSuffix).perform job).run before =
      s.obey before (s.jobCalls job) := by
  have written : ((s.command parse generate packageSuffix).write job.artifact.path job.text).run
      before = (s.answer before (.write job.artifact.path job.text),
        before ++ [.write job.artifact.path job.text]) := rfl
  unfold Command.perform
  rw [run_bind, written, jobCalls, obey]
  dsimp only
  cases s.answer before (.write job.artifact.path job.text) with
  | error => rfl
  | ok =>
    cases normalizes : s.normalizes with
    | false =>
      simp only [command, normalizes]
      rfl
    | true =>
      simp only [command, normalizes, if_true, obey]
      have normalized (made : List Call) : (s.call (.normalize job.artifact.path)).run made =
          (s.answer made (.normalize job.artifact.path),
            made ++ [.normalize job.artifact.path]) := rfl
      rw [normalized]
      cases s.answer _ (.normalize job.artifact.path) <;> rfl

theorem performAll_obeys (jobs : List Job) (before : List Call) :
    ((s.command parse generate packageSuffix).performAll jobs).run before =
      ((s.obey before (s.calls jobs)).1.map fun _ => jobs.map Job.artifact,
        (s.obey before (s.calls jobs)).2) := by
  induction jobs generalizing before with
  | nil => rfl
  | cons job rest ih =>
    have calls : s.calls (job :: rest) = s.jobCalls job ++ s.calls rest := rfl
    rw [calls, obey_append, Command.performAll, run_bind, perform_obeys]
    rcases s.obey before (s.jobCalls job) with ⟨failed | fine, made⟩
    · rfl
    · dsimp only
      rw [run_bind, ih]
      rcases s.obey made (s.calls rest) with ⟨failed | fine, made⟩ <;> rfl

theorem run_carries (dir : Path) (out : String) {packages : PackageMap}
    (parsed : parse dir = .ok packages) :
    let c := s.command parse generate packageSuffix
    s.Carries (c.plan dir out packages) ((c.run dir out).run []).1 ((c.run dir out).run []).2 := by
  intro c
  let jobs := c.plan dir out packages
  have parsed' : c.parse dir = .ok packages := parsed
  have run : (c.run dir out).run [] =
      ((s.obey [] (s.calls jobs)).1.map fun _ => ⟨jobs.map Job.artifact⟩,
        (s.obey [] (s.calls jobs)).2) := by
    unfold Command.run
    rw [parsed']
    dsimp only
    rw [run_bind, performAll_obeys]
    rcases s.obey [] (s.calls jobs) with ⟨failed | fine, made⟩ <;> rfl
  rw [run]
  rcases s.obey_cases [] (s.calls jobs) with ⟨fine, made⟩ | ⟨front, call, back, error, split, fine,
    failed, made⟩
  · rw [made]
    exact .completed fine
  · rw [made]
    exact .stopped split fine failed

namespace Carries

variable {jobs : List Job} {result : Except RunError Report} {made : List Call}

theorem made_prefix (carries : s.Carries jobs result made) : made <+: s.calls jobs := by
  cases carries with
  | completed => exact List.prefix_refl _
  | @stopped front back call _ split =>
    rw [split]
    exact ⟨back, by simp⟩

theorem answered (carries : s.Carries jobs result made) {front back : List Call}
    {call next : Call} (split : made = front ++ call :: next :: back) :
    s.answer front call = .ok () := by
  cases carries with
  | completed fine => simpa using fine front call (next :: back) split
  | @stopped first _ last _ _ fine =>
    rcases List.eq_nil_or_concat back with rfl | ⟨before, final, rfl⟩
    · have shorter : first = front ++ [call] := by
        have whole : first ++ [last] = (front ++ [call]) ++ [next] := by simpa using split
        exact (List.append_inj' whole rfl).1
      simpa using fine front call [] shorter
    · have shorter : first = front ++ call :: next :: before := by
        have whole : first ++ [last] = (front ++ call :: next :: before) ++ [final] := by
          simpa using split
        exact (List.append_inj' whole rfl).1
      simpa using fine front call (next :: before) shorter

theorem ok_iff (carries : s.Carries jobs result made) :
    (∃ report, result = .ok report) ↔ s.NoneFails [] made := by
  cases carries with
  | completed fine => simp [fine]
  | @stopped front _ call _ _ _ failed =>
    constructor
    · rintro ⟨_, good⟩
      cases good
    · intro fine
      have answered := fine front call [] rfl
      rw [List.nil_append, failed] at answered
      cases answered

theorem report_eq (carries : s.Carries jobs result made) {report : Report}
    (good : result = .ok report) : report = ⟨jobs.map Job.artifact⟩ := by
  cases carries with
  | completed => exact (Except.ok.inj good).symm
  | stopped => cases good

end Carries

theorem written_first {jobs : List Job} {front back : List Call} {path : Path}
    (split : s.calls jobs = front ++ .normalize path :: back) :
    ∃ earlier text, front = earlier ++ [.write path text] := by
  induction jobs generalizing front with
  | nil => simp [calls] at split
  | cons job rest ih =>
    have unfolded : s.calls (job :: rest) = .write job.artifact.path job.text ::
        ((if s.normalizes then [.normalize job.artifact.path] else []) ++ s.calls rest) := rfl
    rw [unfolded] at split
    cases front with
    | nil => cases (List.cons.inj split).1
    | cons first front =>
      obtain ⟨rfl, later⟩ := List.cons.inj split
      cases normalizes : s.normalizes with
      | false =>
        obtain ⟨earlier, text, rfl⟩ := ih (by simpa [normalizes] using later)
        exact ⟨_ :: earlier, text, rfl⟩
      | true =>
        simp only [normalizes, if_true, List.cons_append, List.nil_append] at later
        cases front with
        | nil =>
          obtain ⟨same, _⟩ := List.cons.inj later
          obtain rfl := Call.normalize.inj same
          exact ⟨[], job.text, rfl⟩
        | cons second front =>
          obtain ⟨rfl, rest⟩ := List.cons.inj later
          obtain ⟨earlier, text, rfl⟩ := ih rest
          exact ⟨_ :: _ :: earlier, text, rfl⟩

end Surroundings

namespace Command

variable {m : Type → Type} (c : Command m) (dir : Path) (out : String) (packages : PackageMap)

theorem plan_names : (c.plan dir out packages).map (fun job => job.artifact.package) =
    packages.entries.map Prod.fst := by
  rw [plan, List.map_map]
  rfl

theorem plan_paths (onePart : '/' ∉ out.toList)
    (clear : ∀ entry ∈ packages.entries, '/' ∉ entry.1.toList) :
    ((c.plan dir out packages).map fun job => job.artifact.path.steps).Nodup := by
  have paths : (c.plan dir out packages).map (fun job => job.artifact.path.steps) =
      packages.entries.map fun entry =>
        (dir.join (Job.outName (decide (1 < packages.entries.length)) entry.1 out)).steps := by
    rw [plan, List.map_map]
    rfl
  rw [paths]
  by_cases several : 1 < packages.entries.length
  · rw [decide_eq_true several]
    refine List.pairwise_map.mpr ((List.pairwise_map.mp packages.ascending).imp_of_mem ?_)
    intro entry entry' member member' below same
    simp only [Job.outName, if_true] at same
    rw [Path.steps_join dir (Package.prefixedName_plain (clear entry member) onePart),
      Path.steps_join dir (Package.prefixedName_plain (clear entry' member') onePart)] at same
    have names : entry.1 ++ "_" ++ out = entry'.1 ++ "_" ++ out := by simpa using same
    have chars := congrArg String.toList names
    simp only [String.toList_append, List.append_cancel_right_eq, String.toList_inj] at chars
    exact below.ne chars
  · have one : packages.entries.length ≤ 1 := Nat.le_of_not_lt several
    match packages.entries, one with
    | [], _ => exact List.nodup_nil
    | [_], _ => exact List.nodup_singleton _

end Command

theorem Package.loadMap_clear {source : FileSource} {exclude : List String} {dir : Path}
    {packages : PackageMap} (parsed : loadMap source exclude dir = .ok packages) :
    ∀ entry ∈ packages.entries, '/' ∉ entry.1.toList := by
  intro entry member
  cases loaded : load source exclude dir with
  | error e =>
    rw [loadMap_error loaded] at parsed
    cases parsed
  | ok list =>
    obtain ⟨map, again, entries⟩ := loadMap_ok loaded
    obtain rfl := Except.ok.inj (parsed.symm.trans again)
    rw [entries] at member
    obtain ⟨p, inList, rfl⟩ := List.mem_map.mp member
    exact slash_not_mem_of_isWord (load_name loaded inList)

structure Answers where
  write : List Call → Path → String → Except IoError Unit
  normalize : Option (List Call → Path → Except String Unit)

namespace Answers

def target (a : Answers) : Target (StateM (List Call)) where
  write path text := do
    let before ← get
    set (before ++ [.write path text])
    return a.write before path text
  normalize := a.normalize.map fun normalize path => do
    let before ← get
    set (before ++ [.normalize path])
    return normalize before path

def surroundings (a : Answers) : Surroundings where
  normalizes := a.normalize.isSome
  answer
    | before, .write path text => (a.write before path text).mapError (.write path)
    | before, .normalize path =>
      match a.normalize with
      | none => .ok ()
      | some normalize => (normalize before path).mapError (.normalize path)

theorem command_eq (a : Answers) (source : FileSource) (exclude : List String) (o : RunOptions) :
    Command.ofTarget source exclude a.target o =
      a.surroundings.command (Package.loadMap source exclude) (fun p => .of o.spy p.decls)
        o.packageSuffix := by
  obtain ⟨write, normalize⟩ := a
  cases normalize <;> rfl

end Answers

/-- Whatever packages there are, however they are made into spies and whatever the calls answer:
    if no packages are parsed, no call is made and that failure is given. Otherwise the run makes
    the calls of its plan, in the order of the packages' names, up to the first that fails, and is
    good exactly if none fails. A path is normalized right after it was written, and the paths of
    packages differ if no name has a slash, as none has that was loaded. The program's own runs
    are of this kind. -/
theorem Command.run_effects (s : Surroundings) (parse : Path → Except LoadError PackageMap)
    (generate : Package → Generation) (packageSuffix : String) (dir : Path) (out : String) :
    let c := s.command parse generate packageSuffix
    let result := ((c.run dir out).run []).1
    let made := ((c.run dir out).run []).2
    (∀ e, parse dir = .error e → result = .error (.load e) ∧ made = []) ∧
    (∀ packages, parse dir = .ok packages →
      s.Carries (c.plan dir out packages) result made ∧
      ((c.plan dir out packages).map fun job => job.artifact.package).Pairwise (· < ·) ∧
      ((∃ report, result = .ok report) ↔ s.NoneFails [] made) ∧
      (∀ report, result = .ok report → report.artifacts = packages.entries.map fun entry =>
        ⟨entry.1, dir.join (Job.outName (decide (1 < packages.entries.length)) entry.1 out),
          (generate entry.2).spies, (generate entry.2).skipped⟩) ∧
      (∀ front path back, made = front ++ .normalize path :: back →
        ∃ earlier text, front = earlier ++ [.write path text] ∧
          s.answer earlier (.write path text) = .ok ()) ∧
      ('/' ∉ out.toList → (∀ entry ∈ packages.entries, '/' ∉ entry.1.toList) →
        ((c.plan dir out packages).map fun job => job.artifact.path.steps).Nodup)) ∧
    (∀ source exclude packages, Package.loadMap source exclude dir = .ok packages →
      ∀ entry ∈ packages.entries, '/' ∉ entry.1.toList) ∧
    ∀ (a : Answers) source exclude (o : RunOptions),
      GoSpy.run source exclude a.target o dir =
        (a.surroundings.command (Package.loadMap source exclude) (fun p => .of o.spy p.decls)
          o.packageSuffix).run dir o.out := by
  intro c result made
  refine ⟨?_, ?_, fun source exclude packages => Package.loadMap_clear, ?_⟩
  · intro e failed
    have failed' : c.parse dir = .error e := failed
    have run : (c.run dir out).run [] = (.error (.load e), []) := by
      unfold Command.run
      rw [failed']
      rfl
    exact ⟨congrArg Prod.fst run, congrArg Prod.snd run⟩
  · intro packages parsed
    have carries : s.Carries (c.plan dir out packages) result made :=
      Surroundings.run_carries dir out parsed
    refine ⟨carries, ?_, carries.ok_iff, ?_, ?_, c.plan_paths dir out packages⟩
    · rw [plan_names]
      exact packages.ascending
    · intro report good
      rw [carries.report_eq good, plan, List.map_map]
      rfl
    · intro front path back split
      obtain ⟨more, whole⟩ := carries.made_prefix
      rw [split, List.append_assoc, List.cons_append] at whole
      obtain ⟨earlier, text, rfl⟩ := Surroundings.written_first whole.symm
      have written : made = earlier ++ .write path text :: .normalize path :: back := by
        rw [split, List.append_assoc]
        rfl
      exact ⟨earlier, text, rfl, carries.answered written⟩
  · intro a source exclude o
    rw [run_eq_command, Answers.command_eq]

def failingLater : Surroundings where
  normalizes := true
  answer
    | _, .write .. => .ok ()
    | _, .normalize path =>
      if path.text = "pkg/b_x.go" then .error (.normalize path "bad") else .ok ()

def threePackages : FileSource :=
  (Memory.ofFiles [(⟨"pkg/c.go"⟩, "package c\n"), (⟨"pkg/a.go"⟩, "package a\n"),
    (⟨"pkg/b.go"⟩, "package b\n")]).source

def Call.path : Call → Path
  | .write path _ => path
  | .normalize path => path

theorem Command.failingLater_run :
    let c := failingLater.command (Package.loadMap threePackages []) (fun p => .of {} p.decls)
      "_test"
    let result := ((c.run ⟨"pkg"⟩ "x.go").run []).1
    let made := ((c.run ⟨"pkg"⟩ "x.go").run []).2
    ∃ packages, Package.loadMap threePackages [] ⟨"pkg"⟩ = .ok packages ∧
      failingLater.Carries (c.plan ⟨"pkg"⟩ "x.go" packages) result made ∧
      result = .error (.normalize ⟨"pkg/b_x.go"⟩ "bad") ∧
      made.map (fun call => call.path.text) =
        ["pkg/a_x.go", "pkg/a_x.go", "pkg/b_x.go", "pkg/b_x.go"] ∧
      ((c.plan ⟨"pkg"⟩ "x.go" packages).map fun job => job.artifact.path.steps).Nodup := by
  intro c result made
  have ended : result = .error (.normalize ⟨"pkg/b_x.go"⟩ "bad") := by decide +kernel
  have calls : made.map (fun call => call.path.text) =
      ["pkg/a_x.go", "pkg/a_x.go", "pkg/b_x.go", "pkg/b_x.go"] := by
    decide +kernel
  have loads : (Package.loadMap threePackages [] ⟨"pkg"⟩).toOption.isSome = true := by
    decide +kernel
  obtain ⟨_, effects, clear, _⟩ := run_effects failingLater (Package.loadMap threePackages [])
    (fun p => .of {} p.decls) "_test" ⟨"pkg"⟩ "x.go"
  cases parsed : Package.loadMap threePackages [] ⟨"pkg"⟩ with
  | error => simp [parsed, Except.toOption] at loads
  | ok packages =>
    obtain ⟨carries, _, _, _, _, paths⟩ := effects packages parsed
    have onePart : '/' ∉ "x.go".toList := by decide
    exact ⟨packages, rfl, carries, ended, calls,
      paths onePart (clear threePackages [] packages parsed)⟩

end GoSpy
