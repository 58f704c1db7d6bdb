import GoSpy.Text.Class
import GoSpy.Text.Order
import GoSpy.Spy.Naming
import GoSpy.Syntax.Declaration
/- Imports of a generated file. `bindings` gives every path in use one local name, the first
   qualifier it is used under if that is still free, and `resolve` writes these names into
   the declarations. Qualifiers that nothing binds stay as they are. -/
namespace GoSpy

/-- A line of the import block; a name is written only where it differs from the one that
    the path suggests. -/
structure Import where
  name : Option String
  path : String
deriving DecidableEq, Repr

namespace Import

def isMajorVersion : List Char → Bool
  | 'v' :: digits => !digits.isEmpty && digits.all Char.isDigit
  | _ => false

/-- The last element of a path, or the one before it if the last is a major version. -/
def mainElement (path : List Char) : List Char :=
  let back := path.reverse
  let last := (back.takeWhile (· ≠ '/')).reverse
  match back.dropWhile (· ≠ '/') with
  | _ :: parents =>
    if isMajorVersion last then (parents.takeWhile (· ≠ '/')).reverse else last
  | [] => last

def dropGoMark : List Char → List Char
  | 'g' :: 'o' :: '-' :: rest => rest
  | element => element

def assumedName (path : String) : String :=
  String.ofList ((dropGoMark (mainElement path.toList)).takeWhile Text.continuesName)

end Import

def ImportSpec.binds (spec : ImportSpec) (qualifier : String) : Bool :=
  match spec.name with
  | some name => name != "." && name != "_" && name == qualifier
  | none => Import.assumedName spec.path == qualifier

structure Scope where
  files : List (String × List ImportSpec)

namespace Scope

def boundIn (imports : List ImportSpec) (qualifier : String) : Option String :=
  (imports.find? (·.binds qualifier)).map ImportSpec.path

/-- What is bound without an import: the lock of a spy needs `sync`. -/
def builtin (qualifier : String) : Option String :=
  if qualifier = "sync" then some "sync" else none

def ownBinding (scope : Scope) (file qualifier : String) : Option String :=
  (scope.files.find? (·.1 == file)).bind fun f => boundIn f.2 qualifier

def anyBinding (scope : Scope) (qualifier : String) : Option String :=
  scope.files.findSome? fun f => boundIn f.2 qualifier

/-- The path of a qualifier in a file: by an import of the file, else of any file. -/
def lookup (scope : Scope) (file qualifier : String) : Option String :=
  scope.ownBinding file qualifier <|> scope.anyBinding qualifier <|> builtin qualifier

end Scope

structure Binding where
  localName : String
  path : String
deriving DecidableEq, Repr

namespace Binding

def candidate (wanted : String) : Nat → String
  | 0 => wanted
  | n + 1 => wanted ++ toString (n + 2)

def freeName (bindings : List Binding) (wanted : String) : String :=
  firstFree (bindings.map localName) (candidate wanted)

/-- A path that has a local name keeps it. -/
def add (bindings : List Binding) (qualifier path : String) : List Binding :=
  if bindings.any (·.path == path) then bindings
  else bindings ++ [⟨freeName bindings qualifier, path⟩]

def localName? (bindings : List Binding) (path : String) : Option String :=
  (bindings.find? (·.path == path)).map localName

def toImport (b : Binding) : Import :=
  ⟨if b.localName = Import.assumedName b.path then none else some b.localName, b.path⟩

end Binding

namespace Scope

def uses (scope : Scope) (d : Decl) : List (String × String) :=
  (Text.ascending d.qualifiers).filterMap fun q =>
    (scope.lookup d.place.file q).map fun path => (q, path)

def bindings (scope : Scope) (decls : List Decl) : List Binding :=
  (decls.flatMap scope.uses).foldl (fun table use => Binding.add table use.1 use.2) []

def rename (scope : Scope) (table : List Binding) (file qualifier : String) : String :=
  ((scope.lookup file qualifier).bind (Binding.localName? table)).getD qualifier

end Scope

structure Resolution where
  imports : List Import
  decls : List Decl

namespace Scope

def importLines (table : List Binding) : List Import :=
  (Text.ascending (table.map Binding.path)).filterMap fun path =>
    (table.find? (·.path == path)).map Binding.toImport

def resolve (scope : Scope) (decls : List Decl) : Resolution :=
  let table := scope.bindings decls
  { imports := importLines table
    decls := decls.map fun d => d.requalify (scope.rename table d.place.file) }

end Scope

end GoSpy
