import GoSpy.Console.Session
/- The command on the real file system. Other programs are not started from here: a call that
   asks for an import normalizer writes its artifact and then reports that. -/
namespace GoSpy.Console

def ofSystemError : IO.Error → IoError
  | .noFileOrDirectory .. => .noEntry
  | .permissionDenied .. => .denied
  | e => .other (toString e)

def attempt {α : Type} (action : IO α) : IO (Except IoError α) := do
  match ← action.toBaseIO with
  | .ok value => return .ok value
  | .error e => return .error (ofSystemError e)

def isRegular (path : Path) : IO Bool := do
  let place := (← IO.currentDir) / path.text
  match ← place.metadata.toBaseIO with
  | .ok data => return data.type == .file
  | .error _ => return false

def listDirectory (dir : Path) : IO (List Path) := do
  let place := (← IO.currentDir) / dir.text
  let names := (← place.readDir).toList.map fun entry => entry.fileName
  (names.map dir.join).filterM isRegular

def readText (path : Path) : IO (Except IoError String) := do
  match ← attempt (IO.FS.readBinFile path.text) with
  | .error e => return .error e
  | .ok bytes =>
    match String.fromUTF8? bytes with
    | some text => return .ok text
    | none => return .error .notText

def realSystem : System IO :=
  { isFile := isRegular
    list := fun dir => attempt (listDirectory dir)
    read := readText
    write := fun path text => attempt (IO.FS.writeFile path.text text)
    execute := fun _ _ => return .error (.other "other programs cannot be started") }

end GoSpy.Console

def main (args : List String) : IO UInt32 := do
  let outcome ← GoSpy.Console.call GoSpy.Console.realSystem args
  IO.print outcome.stdout
  IO.eprint outcome.stderr
  return outcome.code.toUInt32
