import GoSpy.Run.Report
/- A run in two parts. `Job.plan` says for every package what is to be written and where, and
   depends on nothing but the packages. `Job.performAll` carries the jobs out one by one on a
   target and stops at the first failure; what was done before stays done. -/
namespace GoSpy

structure RunOptions where
  spy : SpyOptions := {}
  out : String := "fm_test.go"
  packageSuffix : String := "_test"
deriving DecidableEq, Repr

structure Target (m : Type → Type) where
  write : Path → String → m (Except IoError Unit)
  normalize : Option (Path → m (Except String Unit))

structure Job where
  artifact : Written
  text : String
deriving DecidableEq, Repr

namespace Job

/-- One package has `out` for itself; several put their names in front of it. -/
def outName (several : Bool) (package out : String) : String :=
  if several then package ++ "_" ++ out else out

def scopeOf (p : Package) : Scope := ⟨p.files.map fun f => (f.path.text, f.file.imports)⟩

def ofPackage (o : RunOptions) (dir : Path) (several : Bool) (p : Package) : Job :=
  let generation := Generation.of o.spy p.decls
  let resolution := (scopeOf p).resolve generation.decls
  { artifact :=
      ⟨p.name, dir.join (outName several p.name o.out), generation.spies, generation.skipped⟩
    text := Artifact.text ⟨p.name ++ o.packageSuffix, resolution.imports, resolution.decls⟩ }

def plan (o : RunOptions) (dir : Path) (packages : List Package) : List Job :=
  packages.map (ofPackage o dir (decide (1 < packages.length)))

section

variable {m : Type → Type} [Monad m]

def normalize (target : Target m) (path : Path) : m (Except RunError Unit) :=
  match target.normalize with
  | none => return .ok ()
  | some normalize => do
    match ← normalize path with
    | .error reason => return .error (.normalize path reason)
    | .ok () => return .ok ()

def perform (target : Target m) (job : Job) : m (Except RunError Unit) := do
  match ← target.write job.artifact.path job.text with
  | .error cause => return .error (.write job.artifact.path cause)
  | .ok () => normalize target job.artifact.path

def performAll (target : Target m) : List Job → m (Except RunError (List Written))
  | [] => return .ok []
  | job :: rest => do
    match ← perform target job with
    | .error e => return .error e
    | .ok () =>
      match ← performAll target rest with
      | .error e => return .error e
      | .ok written => return .ok (job.artifact :: written)

end

end Job

def run {m : Type → Type} [Monad m] (source : FileSource) (exclude : List String)
    (target : Target m) (o : RunOptions) (dir : Path) : m (Except RunError Report) := do
  match Package.load source exclude dir with
  | .error e => return .error (.load e)
  | .ok packages =>
    match ← Job.performAll target (Job.plan o dir packages) with
    | .error e => return .error e
    | .ok written => return .ok ⟨written⟩

end GoSpy
