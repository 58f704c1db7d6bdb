import GoSpy.Run.Rehearsal
import GoSpy.Proofs.Store.Reading
/- What a rehearsed run does to the files: the writes of its log, one after the other, and nothing
   else. What is read afterwards is the text that was written last at the place, or what was
   there before. -/
namespace GoSpy

/- Files under a log of writes -/

def Effect.textAt? (place : List Step) : Effect → Option String
  | wrote path text => if path.lexical = place then some text else none
  | normalized _ => none

def lastWritten (log : List Effect) (place : List Step) : Option String :=
  (log.filterMap (Effect.textAt? place)).getLast?

theorem lastWritten_eq_some {log : List Effect} {place : List Step} {text : String}
    (last : lastWritten log place = some text) :
    ∃ path, .wrote path text ∈ log ∧ path.lexical = place := by
  obtain ⟨effect, member, at_⟩ := List.mem_filterMap.mp (List.mem_of_getLast? last)
  cases effect with
  | wrote path written =>
    simp only [Effect.textAt?, Option.ite_none_right_eq_some, Option.some.injEq] at at_
    obtain ⟨here, rfl⟩ := at_
    exact ⟨path, member, here⟩
  | normalized => cases at_

namespace Workspace

def follow (w : Workspace) : Effect → Workspace
  | .wrote path text => w.put path text
  | .normalized _ => w

def replay (w : Workspace) (log : List Effect) : Workspace := log.foldl follow w

theorem replay_append (w : Workspace) (first later : List Effect) :
    w.replay (first ++ later) = (w.replay first).replay later := List.foldl_append ..

theorem read_put (w : Workspace) (path : Path) (text : String) (q : Path) :
    (w.put path text).source.read q =
      if q.lexical = path.lexical then .ok text else w.source.read q := by
  change (Memory.ofFiles ((w.remove path).files ++ [(path, text)])).read q = _
  rw [Memory.ofFiles_snoc, Memory.read_put]
  split
  · rfl
  · rename_i elsewhere
    refine Memory.read_ofFiles_filter fun f _ here => ?_
    have apart : f.1.steps ≠ path.steps := by
      intro same
      refine elsewhere ?_
      rw [← here, Path.lexical, Path.lexical, same]
    simpa [Path.same] using apart

theorem read_replay (w : Workspace) (log : List Effect) (q : Path) :
    (w.replay log).source.read q =
      match lastWritten log q.lexical with
      | some text => .ok text
      | none => w.source.read q := by
  induction log using List.reverseRecOn with
  | nil => rfl
  | append_singleton log effect ih =>
    rw [replay_append]
    change ((w.replay log).follow effect).source.read q = _
    have last : lastWritten (log ++ [effect]) q.lexical =
        (effect.textAt? q.lexical).or (lastWritten log q.lexical) := by
      rw [lastWritten, List.filterMap_append, List.getLast?_append]
      cases shape : effect.textAt? q.lexical <;> simp [shape, lastWritten]
    rw [last]
    cases effect with
    | normalized => exact ih
    | wrote path text =>
      rw [follow, read_put]
      by_cases here : q.lexical = path.lexical
      · simp [Effect.textAt?, here]
      · simpa [Effect.textAt?, here, Ne.symm here] using ih

theorem read_replay_twice (w : Workspace) (log : List Effect) (q : Path) :
    ((w.replay log).replay log).source.read q = (w.replay log).source.read q := by
  rw [read_replay, read_replay]
  cases lastWritten log q.lexical <;> rfl

theorem read_replay_kept {w : Workspace} (log : List Effect) {q : Path} {text : String}
    (read : w.source.read q = .ok text) : ∃ text', (w.replay log).source.read q = .ok text' := by
  rw [read_replay]
  cases lastWritten log q.lexical with
  | some text => exact ⟨text, rfl⟩
  | none => exact ⟨text, read⟩

end Workspace

/- Parts of a run -/

theorem run_bind {σ α β : Type} (x : StateM σ α) (f : α → StateM σ β) (state : σ) :
    (x >>= f).run state = (f (x.run state).1).run (x.run state).2 := rfl

/-- Whatever the rehearsal is in, the part of a run goes on with its log and carries out on the
    files what it adds there; its writes are allowed ones. -/
def Adds (allowed : Path → String → Prop) {α : Type} (x : StateM Rehearsal α) : Prop :=
  ∀ r, ∃ added, (x.run r).2 = ⟨r.files.replay added, r.log ++ added⟩ ∧
    ∀ path text, .wrote path text ∈ added → allowed path text

namespace Adds

variable {allowed : Path → String → Prop} {α β : Type}

theorem result (a : α) : Adds allowed (pure a) :=
  fun r => ⟨[], by rw [List.append_nil]; rfl, by simp⟩

theorem followed {x : StateM Rehearsal α} {f : α → StateM Rehearsal β}
    (first : Adds allowed x) (rest : ∀ a, Adds allowed (f a)) : Adds allowed (x >>= f) := by
  intro r
  obtain ⟨added, state, each⟩ := first r
  obtain ⟨later, state', each'⟩ := rest (x.run r).1 (x.run r).2
  refine ⟨added ++ later, ?_, fun path text wrote => ?_⟩
  · rw [run_bind, state', state, Workspace.replay_append, List.append_assoc]
  · rcases List.mem_append.mp wrote with before | after
    · exact each path text before
    · exact each' path text after

theorem widened {other : Path → String → Prop} {x : StateM Rehearsal α} (narrow : Adds allowed x)
    (wider : ∀ path text, allowed path text → other path text) : Adds other x := by
  intro r
  obtain ⟨added, state, each⟩ := narrow r
  exact ⟨added, state, fun path text wrote => wider path text (each path text wrote)⟩

theorem write (o : Obstacles) (path : Path) (text : String) :
    Adds (fun p t => p = path ∧ t = text) (Rehearsal.write o path text) := by
  intro r
  unfold Rehearsal.write
  split
  · exact result _ r
  · exact ⟨[.wrote path text], rfl, by simp⟩

theorem normalize (o : Obstacles) (path : Path) :
    Adds allowed (Job.normalize (Rehearsal.target o) path) := by
  unfold Job.normalize Rehearsal.target
  cases o.normalizing with
  | none => exact result _
  | some outcome =>
    refine followed (fun r => ⟨[.normalized path], rfl, by simp⟩) fun outcome => ?_
    cases outcome <;> exact result _

theorem perform (o : Obstacles) (job : Job) :
    Adds (fun path text => path = job.artifact.path ∧ text = job.text)
      (job.perform (Rehearsal.target o)) := by
  refine followed (write o _ _) fun outcome => ?_
  cases outcome with
  | error => exact result _
  | ok => exact normalize o _

theorem performAll (o : Obstacles) (jobs : List Job) :
    Adds (fun path text => ∃ job ∈ jobs, path = job.artifact.path ∧ text = job.text)
      (Job.performAll (Rehearsal.target o) jobs) := by
  induction jobs with
  | nil => exact result _
  | cons job rest ih =>
    refine followed ((perform o job).widened ?_) fun outcome => ?_
    · exact fun path text same => ⟨job, List.mem_cons_self, same⟩
    · cases outcome with
      | error => exact result _
      | ok =>
        refine followed (ih.widened ?_) fun outcome => ?_
        · rintro path text ⟨later, member, same⟩
          exact ⟨later, List.mem_cons_of_mem _ member, same⟩
        · cases outcome <;> exact result _

end Adds

theorem run_adds (source : FileSource) (exclude : List String) (obstacles : Obstacles)
    (o : RunOptions) (dir : Path) :
    Adds (fun path text => ∃ packages, Package.load source exclude dir = .ok packages ∧
        ∃ job ∈ Job.plan o dir packages, path = job.artifact.path ∧ text = job.text)
      (run source exclude (Rehearsal.target obstacles) o dir) := by
  unfold run
  cases loaded : Package.load source exclude dir with
  | error => exact .result _
  | ok packages =>
    refine .followed ((Adds.performAll obstacles _).widened ?_) fun outcome => ?_
    · exact fun path text planned => ⟨packages, rfl, planned⟩
    · cases outcome <;> exact .result _

theorem Workspace.rehearse_files (w : Workspace) (exclude : List String) (obstacles : Obstacles)
    (o : RunOptions) (dir : Path) :
    (w.rehearse exclude obstacles o dir).2.files =
      w.replay (w.rehearse exclude obstacles o dir).2.log := by
  obtain ⟨added, state, _⟩ := run_adds w.source exclude obstacles o dir ⟨w, []⟩
  have whole : (w.rehearse exclude obstacles o dir).2 = ⟨w.replay added, [] ++ added⟩ := state
  rw [whole, List.nil_append]

theorem Workspace.rehearse_wrote {w : Workspace} {exclude : List String} {obstacles : Obstacles}
    {o : RunOptions} {dir path : Path} {text : String}
    (wrote : .wrote path text ∈ (w.rehearse exclude obstacles o dir).2.log) :
    ∃ packages, Package.load w.source exclude dir = .ok packages ∧
      ∃ job ∈ Job.plan o dir packages, path = job.artifact.path ∧ text = job.text := by
  obtain ⟨added, state, each⟩ := run_adds w.source exclude obstacles o dir ⟨w, []⟩
  have whole : (w.rehearse exclude obstacles o dir).2 = ⟨w.replay added, [] ++ added⟩ := state
  rw [whole, List.nil_append] at wrote
  exact each path text wrote

/- Runs that succeed -/

def Obstacles.stops (o : Obstacles) (path : Path) : Bool :=
  o.fullAt.isSome && path.fileName? == o.fullAt

def Job.effect (job : Job) : Effect := .wrote job.artifact.path job.text

namespace Rehearsal

variable {obstacles : Obstacles}

theorem write_clear {path : Path} (clear : obstacles.stops path = false) (text : String)
    (r : Rehearsal) : (write obstacles path text).run r =
      (.ok (), ⟨r.files.put path text, r.log ++ [.wrote path text]⟩) := by
  unfold Obstacles.stops at clear
  unfold write
  rw [clear]
  rfl

theorem write_stopped {path : Path} (stopped : obstacles.stops path = true) (text : String)
    (r : Rehearsal) : (write obstacles path text).run r = (.error (.other "disk full"), r) := by
  unfold Obstacles.stops at stopped
  unfold write
  rw [stopped]
  rfl

theorem perform_clear (unaided : obstacles.normalizing = none) {job : Job}
    (clear : obstacles.stops job.artifact.path = false) (r : Rehearsal) :
    (job.perform (target obstacles)).run r =
      (.ok (), ⟨r.files.follow job.effect, r.log ++ [job.effect]⟩) := by
  have written : ((target obstacles).write job.artifact.path job.text).run r = _ :=
    write_clear clear job.text r
  unfold Job.perform
  rw [run_bind, written]
  change (Job.normalize (target obstacles) job.artifact.path).run _ = _
  unfold Job.normalize target
  rw [unaided]
  rfl

theorem performAll_clear (unaided : obstacles.normalizing = none) {jobs : List Job}
    (clear : ∀ job ∈ jobs, obstacles.stops job.artifact.path = false) (r : Rehearsal) :
    (Job.performAll (target obstacles) jobs).run r =
      (.ok (jobs.map Job.artifact),
        ⟨r.files.replay (jobs.map Job.effect), r.log ++ jobs.map Job.effect⟩) := by
  induction jobs generalizing r with
  | nil => exact congrArg (Prod.mk _) (by rw [List.map_nil, List.append_nil]; rfl)
  | cons job rest ih =>
    obtain ⟨first, later⟩ := List.forall_mem_cons.mp clear
    have others := ih later ⟨r.files.follow job.effect, r.log ++ [job.effect]⟩
    unfold Job.performAll
    rw [run_bind, perform_clear unaided first]
    dsimp only
    rw [run_bind, others, List.append_assoc]
    rfl

theorem clear_of_performAll {jobs : List Job} {r : Rehearsal} {written : List Written}
    (unaided : obstacles.normalizing = none)
    (run : ((Job.performAll (target obstacles) jobs).run r).1 = .ok written) :
    ∀ job ∈ jobs, obstacles.stops job.artifact.path = false := by
  induction jobs generalizing r written with
  | nil => simp
  | cons job rest ih =>
    unfold Job.performAll at run
    rw [run_bind] at run
    cases stopped : obstacles.stops job.artifact.path with
    | true =>
      have failed : ((target obstacles).write job.artifact.path job.text).run r = _ :=
        write_stopped stopped job.text r
      unfold Job.perform at run
      rw [run_bind, failed] at run
      cases run
    | false =>
      rw [perform_clear unaided stopped] at run
      dsimp only at run
      rw [run_bind] at run
      refine List.forall_mem_cons.mpr ⟨stopped, ?_⟩
      cases others : ((Job.performAll (target obstacles) rest).run
          ⟨r.files.follow job.effect, r.log ++ [job.effect]⟩).1 with
      | ok written => exact ih others
      | error =>
        rw [others] at run
        cases run

end Rehearsal

end GoSpy
