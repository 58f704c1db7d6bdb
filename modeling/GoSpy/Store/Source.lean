import GoSpy.Store.Path
/- Where source files come from. A source lists the files of a directory and reads a file;
   `Memory` serves a fixed set of files. -/
namespace GoSpy

inductive IoError where
  | notInMemory (kind : String) (path : String)
  | noEntry
  | notDirectory
  | isDirectory
  | denied
  | notExecutable
  | nameTooLong
  | notText
  | other (text : String)
deriving DecidableEq, Repr

def IoError.message : IoError → String
  | notInMemory kind path => kind ++ " not found in memory: " ++ path
  | noEntry => "No such file or directory (os error 2)"
  | notDirectory => "Not a directory (os error 20)"
  | isDirectory => "Is a directory (os error 21)"
  | denied => "Permission denied (os error 13)"
  | notExecutable => "Exec format error (os error 8)"
  | nameTooLong => "File name too long (os error 36)"
  | notText => "stream did not contain valid UTF-8"
  | other text => text

structure FileSource where
  list : Path → Except IoError (List Path)
  read : Path → Except IoError String

structure Memory where
  files : List (List Step × String)

namespace Memory

/-- Of several files at one place the last counts. -/
def put (m : Memory) (place : List Step) (text : String) : Memory :=
  ⟨m.files.filter (fun f => f.1 != place) ++ [(place, text)]⟩

def ofFiles (files : List (Path × String)) : Memory :=
  files.foldl (fun m f => m.put f.1.lexical f.2) ⟨[]⟩

/-- A directory is there as long as some file lies at or below it. -/
def list (m : Memory) (dir : Path) : Except IoError (List Path) :=
  if m.files.any fun f => dir.lexical.isPrefixOf f.1 then
    .ok ((m.files.filter fun f => Path.parent? f.1 == some dir.lexical).map fun f =>
      .ofSteps f.1)
  else .error (.notInMemory "directory" (Step.runText dir.lexical))

def read (m : Memory) (path : Path) : Except IoError String :=
  match m.files.find? fun f => f.1 == path.lexical with
  | some f => .ok f.2
  | none => .error (.notInMemory "file" (Step.runText path.lexical))

def source (m : Memory) : FileSource := ⟨m.list, m.read⟩

end Memory

end GoSpy
