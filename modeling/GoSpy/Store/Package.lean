import GoSpy.Store.Source
import GoSpy.Grammar.Declarations
/- The packages of a directory: its Go files without tests and earlier artifacts, grouped by
   the package they name, files in the order of their paths. -/
namespace GoSpy

inductive LoadError where
  | unreadable (path : Path) (cause : IoError)
  | source (error : SourceError)
deriving DecidableEq, Repr

def LoadError.message : LoadError → String
  | unreadable path cause => "cannot read " ++ path.text ++ ": " ++ cause.message
  | source error => error.message

structure ParsedFile where
  path : Path
  file : SourceFile

structure Package where
  name : String
  files : List ParsedFile

namespace Package

def decls (p : Package) : List Decl := p.files.flatMap fun f => f.file.decls

def isSource (path : Path) : Bool :=
  path.fileName?.any fun name =>
    ".go".toList.isSuffixOf name.toList && !"_test.go".toList.isSuffixOf name.toList

def wanted (exclude : List String) (path : Path) : Bool :=
  isSource path && !path.fileName?.any exclude.contains

/-- Whether a name is `x_` in front of `suffix`, with one character or more for `x`. -/
def isPrefixed (suffix name : List Char) : Bool :=
  suffix.isSuffixOf name &&
    (let stem := name.take (name.length - suffix.length)
     decide (1 < stem.length) && stem.getLast? == some '_')

def isPrefixedArtifact (exclude : List String) (path : Path) : Bool :=
  path.fileName?.any fun name => exclude.any fun e => isPrefixed e.toList name.toList

def isMark (line : List Char) : Bool :=
  "// Code generated ".toList.isPrefixOf line &&
    " DO NOT EDIT.".toList.isSuffixOf (line.drop "// Code generated ".length)

def textLines (text : String) : List (List Char) :=
  (Text.cutAt '\n' (text.toList.dropWhile (· == '\ufeff'))).map
    (Text.dropEndWhile (· == '\r'))

/-- Whether a line before the first that begins with `package` is the mark of generated
    code. -/
def isGenerated (text : String) : Bool :=
  ((textLines text).takeWhile fun line => !"package".toList.isPrefixOf line).any isMark

/-- The file at a path, unless it is an artifact of an earlier run. -/
def loadFile (source : FileSource) (exclude : List String) (path : Path) :
    Except LoadError (Option ParsedFile) := do
  let text ← (source.read path).mapError (.unreadable path)
  if isPrefixedArtifact exclude path && isGenerated text then .ok none
  else
    let file ← (SourceFile.ofText path.text text).mapError .source
    .ok (some ⟨path, file⟩)

def loadFiles (source : FileSource) (exclude : List String) :
    List Path → Except LoadError (List ParsedFile)
  | [] => .ok []
  | path :: rest => do
    let first ← loadFile source exclude path
    let files ← loadFiles source exclude rest
    .ok (first.toList ++ files)

def group (files : List ParsedFile) : List Package :=
  (Text.ascending (files.map fun f => f.file.package)).map fun name =>
    ⟨name, files.filter fun f => f.file.package == name⟩

def load (source : FileSource) (exclude : List String) (dir : Path) :
    Except LoadError (List Package) := do
  let listed ← (source.list dir).mapError (.unreadable dir)
  let files ← loadFiles source exclude (Text.inOrder Path.le (listed.filter (wanted exclude)))
  .ok (group files)

end Package

end GoSpy
