import GoSpy.Artifact.Import
import GoSpy.Artifact.Layout
/- A generated file: the mark of generated code, the package clause, the imports and the
   declarations, each part set off by an empty line. -/
namespace GoSpy

structure Artifact where
  package : String
  imports : List Import
  decls : List Decl

namespace Artifact

def mark : String := "// Code generated by fm. DO NOT EDIT."

def importText (i : Import) : String :=
  match i.name with
  | some name => name ++ " \"" ++ i.path ++ "\""
  | none => "\"" ++ i.path ++ "\""

def importLines : List Import → List String
  | [] => []
  | [only] => ["", "import " ++ importText only]
  | imports => "" :: "import (" :: imports.map (fun i => "\t" ++ importText i) ++ [")"]

def headLines (a : Artifact) : List String :=
  [mark, "", "package " ++ a.package] ++ importLines a.imports

def text (a : Artifact) : String :=
  Layout.unlines (headLines a) ++ String.join (a.decls.map fun d => "\n" ++ d.text)

end Artifact

end GoSpy
