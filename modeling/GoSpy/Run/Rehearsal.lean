import GoSpy.Run.Plan
/- Runs on files in memory, with a log of what was done and failures where they are asked
   for. The files are kept under the paths they were written with. -/
namespace GoSpy

structure Workspace where
  files : List (Path × String)
deriving DecidableEq, Repr

namespace Workspace

def has (w : Workspace) (path : Path) : Bool := w.files.any fun f => f.1.same path

def remove (w : Workspace) (path : Path) : Workspace :=
  ⟨w.files.filter fun f => !f.1.same path⟩

def put (w : Workspace) (path : Path) (text : String) : Workspace :=
  ⟨(w.remove path).files ++ [(path, text)]⟩

def ofFiles (files : List (Path × String)) : Workspace :=
  files.foldl (fun w f => w.put f.1 f.2) ⟨[]⟩

def source (w : Workspace) : FileSource := (Memory.ofFiles w.files).source

end Workspace

inductive Effect where
  | wrote (path : Path) (text : String)
  | normalized (path : Path)
deriving DecidableEq, Repr

structure Rehearsal where
  files : Workspace
  log : List Effect
deriving DecidableEq, Repr

/-- What a rehearsed run meets: the file name whose write fails, and what normalizing gives
    if it is tried at all. -/
structure Obstacles where
  fullAt : Option String := none
  normalizing : Option (Except String Unit) := none

namespace Rehearsal

def write (o : Obstacles) (path : Path) (text : String) :
    StateM Rehearsal (Except IoError Unit) := do
  if o.fullAt.isSome && path.fileName? == o.fullAt then return .error (.other "disk full")
  modify fun r => ⟨r.files.put path text, r.log ++ [.wrote path text]⟩
  return .ok ()

def normalize (outcome : Except String Unit) (path : Path) :
    StateM Rehearsal (Except String Unit) := do
  modify fun r => { r with log := r.log ++ [.normalized path] }
  return outcome

def target (o : Obstacles) : Target (StateM Rehearsal) :=
  ⟨write o, o.normalizing.map normalize⟩

end Rehearsal

def Workspace.rehearse (w : Workspace) (exclude : List String) (obstacles : Obstacles)
    (o : RunOptions) (dir : Path) : Except RunError Report × Rehearsal :=
  (run w.source exclude (Rehearsal.target obstacles) o dir).run ⟨w, []⟩

end GoSpy
