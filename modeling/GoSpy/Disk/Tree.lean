import GoSpy.Store.Source
/- A directory tree as data, with the working directory at its root. Nothing lies above the
   root or at an absolute path, apart from the null device. -/
namespace GoSpy

inductive DiskEntry where
  | file (bytes : ByteArray) (executable : Bool)
  | directory

structure Disk where
  entries : List (List String × DiskEntry)

/-- Where a path leads. A file that is not there yet may be made at a `free` place, unless the
    path asks for a directory. -/
inductive Spot where
  | directory (place : List String)
  | file (place : List String) (bytes : ByteArray) (executable : Bool)
  | free (place : List String)
  | freeDirectory
  | null

namespace Disk

def entry? (d : Disk) (place : List String) : Option DiskEntry :=
  if place = [] then some .directory
  else (d.entries.find? fun e => e.1 == place).map Prod.snd

def put (d : Disk) (place : List String) (entry : DiskEntry) : Disk :=
  if d.entries.any fun e => e.1 == place then
    ⟨d.entries.map fun e => if e.1 == place then (place, entry) else e⟩
  else ⟨d.entries ++ [(place, entry)]⟩

def longestName : Nat := 255

def walk (d : Disk) : List String → List String → Except IoError Spot
  | here, [] => .ok (.directory here)
  | here, part :: rest =>
    if part = "" || part = "." then walk d here rest
    else if part = ".." then
      if here = [] then .error .noEntry else walk d here.dropLast rest
    else if longestName < part.utf8ByteSize then .error .nameTooLong
    else
      let place := here ++ [part]
      match d.entry? place with
      | some .directory => walk d place rest
      | some (.file bytes executable) =>
        if rest = [] then .ok (.file place bytes executable) else .error .notDirectory
      | none =>
        if rest = [] then .ok (.free place)
        else if rest.all (· == "") then .ok .freeDirectory
        else .error .noEntry

def locate (d : Disk) (path : Path) : Except IoError Spot :=
  if path.text = "" then .error .noEntry
  else if path.isAbsolute then
    if path.lexical = [.root, .name "dev", .name "null"] then .ok .null else .error .noEntry
  else d.walk [] ((Text.cutAt '/' path.text.toList).map String.ofList)

def isFile (d : Disk) (path : Path) : Bool :=
  match d.locate path with
  | .ok (.file ..) => true
  | _ => false

def readBytes (d : Disk) (path : Path) : Except IoError ByteArray := do
  match ← d.locate path with
  | .file _ bytes _ => .ok bytes
  | .directory _ => .error .isDirectory
  | .free _ | .freeDirectory => .error .noEntry
  | .null => .ok .empty

def read (d : Disk) (path : Path) : Except IoError String := do
  match String.fromUTF8? (← d.readBytes path) with
  | some text => .ok text
  | none => .error .notText

/-- A file that is there keeps its mode. -/
def write (d : Disk) (path : Path) (text : String) : Except IoError Disk := do
  match ← d.locate path with
  | .file place _ executable => .ok (d.put place (.file text.toUTF8 executable))
  | .free place => .ok (d.put place (.file text.toUTF8 false))
  | .directory _ | .freeDirectory => .error .isDirectory
  | .null => .ok d

def fileName? (dir : List String) (e : List String × DiskEntry) : Option String :=
  match e.2 with
  | .file .. => if e.1.dropLast = dir then e.1.getLast? else none
  | .directory => none

def list (d : Disk) (dir : Path) : Except IoError (List Path) := do
  match ← d.locate dir with
  | .directory place => .ok ((d.entries.filterMap (fileName? place)).map dir.join)
  | .file .. | .null => .error .notDirectory
  | .free _ | .freeDirectory => .error .noEntry

/- Setting up -/

def namesOf (path : Path) : List String :=
  path.lexical.filterMap fun
    | .name name => some name
    | _ => none

def makeDirectory (d : Disk) (place : List String) : Disk :=
  ((List.range (place.length + 1)).map place.take).foldl (fun d place =>
    if (d.entry? place).isNone then d.put place .directory else d) d

def addDirectory (d : Disk) (path : Path) : Disk := d.makeDirectory (namesOf path)

def addFile (d : Disk) (path : Path) (bytes : ByteArray) (executable : Bool) : Disk :=
  (d.makeDirectory (namesOf path).dropLast).put (namesOf path) (.file bytes executable)

def remove (d : Disk) (place : List String) : Disk :=
  ⟨d.entries.filter fun e => e.1 != place⟩

end Disk

end GoSpy
