import GoSpy.Disk.Script
/- The command on a directory tree held as data. Programs are found like on a bare system:
   by name only `true`, `false` and `echo` are there, by path also the scripts of the tree. -/
namespace GoSpy

open Console (Ending System Outcome)

namespace Disk

def endWith (code : Nat) : Ending := ⟨.code code, ""⟩

def builtinProgram : String → Option Ending
  | "true" | "echo" => some (endWith 0)
  | "false" => some (endWith 1)
  | _ => none

def systemProgram (path : Path) : Option Ending :=
  match path.lexical with
  | [.root, .name "bin", .name name] => builtinProgram name
  | [.root, .name "usr", .name "bin", .name name] => builtinProgram name
  | _ => none

def interpreter? (text : String) : Option (List String) :=
  match text.toList with
  | '#' :: '!' :: rest =>
    some (((Text.cutAt ' ' (rest.takeWhile (· ≠ '\n'))).map String.ofList).filter (· ≠ ""))
  | _ => none

def isShell (path : String) : Bool :=
  ["/bin/sh", "/usr/bin/sh", "/bin/bash", "/usr/bin/bash", "/bin/dash", "/usr/bin/dash"].contains
    path

def interpret (d : Disk) (program text : String) (args : List String) :
    Except IoError (Disk × Ending) :=
  match interpreter? text with
  | some (path :: more) =>
    if isShell path || (path = "/usr/bin/env" && ["sh", "bash", "dash"].contains (more.headD ""))
    then .ok (Script.run text (program :: args) d)
    else match systemProgram ⟨path⟩ with
      | some ending => .ok (d, ending)
      | none => .error .noEntry
  | _ => .error .notExecutable

def execute (d : Disk) (program : String) (args : List String) :
    Except IoError (Disk × Ending) :=
  if !program.toList.contains '/' then
    match builtinProgram program with
    | some ending => .ok (d, ending)
    | none => .error .noEntry
  else match systemProgram ⟨program⟩ with
    | some ending => .ok (d, ending)
    | none =>
      match d.locate ⟨program⟩ with
      | .error e => .error e
      | .ok (.file _ bytes true) =>
        interpret d program ((String.fromUTF8? bytes).getD "") args
      | .ok (.file ..) | .ok (.directory _) | .ok .null => .error .denied
      | .ok (.free _) | .ok .freeDirectory => .error .noEntry

def system : System (StateM Disk) :=
  { isFile := fun path => return (← get).isFile path
    list := fun path => return (← get).list path
    read := fun path => return (← get).read path
    write := fun path text => do
      match (← get).write path text with
      | .error e => return .error e
      | .ok d => do
        set d
        return .ok ()
    execute := fun program args => do
      match (← get).execute program args with
      | .error e => return .error e
      | .ok (d, ending) => do
        set d
        return .ok ending }

def call (d : Disk) (args : List String) : Outcome × Disk := (Console.call system args).run d

def changedSince (d before : Disk) : List (String × ByteArray) :=
  d.entries.filterMap fun e =>
    match e.2 with
    | .directory => none
    | .file bytes _ =>
      match before.entry? e.1 with
      | some (.file old _) => if old.data == bytes.data then none else some (joined "/" e.1, bytes)
      | _ => some (joined "/" e.1, bytes)

end Disk

end GoSpy
