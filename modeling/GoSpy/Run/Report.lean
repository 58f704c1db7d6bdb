import GoSpy.Store.Package
import GoSpy.Spy.Generation
import GoSpy.Artifact.File
/- What a run tells: the artifacts it wrote, or the failure that ended it. -/
namespace GoSpy

structure Written where
  package : String
  path : Path
  spies : List String
  skipped : List Skipped
deriving DecidableEq, Repr

structure Report where
  artifacts : List Written
deriving DecidableEq, Repr

def Report.spyCount (r : Report) : Nat := (r.artifacts.flatMap Written.spies).length

inductive RunError where
  | load (error : LoadError)
  | write (path : Path) (cause : IoError)
  | normalize (path : Path) (reason : String)
deriving DecidableEq, Repr

namespace RunError

def message : RunError → String
  | load error => error.message
  | write path cause => "cannot write " ++ path.text ++ ": " ++ cause.message
  | normalize path reason => "import normalization failed for " ++ path.text ++ ": " ++ reason

def kind : RunError → String
  | load (.source _) => "parse"
  | load (.unreadable ..) => "read"
  | write .. => "write"
  | normalize .. => "import_normalization"

end RunError

end GoSpy
