import GoSpy.Text.Cut
import GoSpy.Text.Order
/- Paths. A path keeps the text it was put together from, and is compared by its steps:
   repeated slashes, slashes at the end and inner dots do not count. Nothing here looks at
   files, so `..` is only undone by `lexical`. -/
namespace GoSpy

inductive Step where
  | root
  | here
  | up
  | name (name : String)
deriving DecidableEq, Repr

structure Path where
  text : String
deriving DecidableEq, Repr

namespace Step

def rank : Step → Nat
  | root => 0
  | here => 1
  | up => 2
  | name _ => 3

/-- The root comes first, then `.`, `..` and the names in their order as texts. -/
def lt : Step → Step → Bool
  | name a, name b => decide (a < b)
  | a, b => decide (a.rank < b.rank)

def ofText (text : String) : Step := if text = ".." then up else name text

def text : Step → String
  | root => "/"
  | here => "."
  | up => ".."
  | name text => text

def runLe : List Step → List Step → Bool
  | [], _ => true
  | _ :: _, [] => false
  | a :: as, b :: bs => if a = b then runLe as bs else a.lt b

def runText : List Step → String
  | [] => ""
  | [step] => step.text
  | root :: rest => "/" ++ runText rest
  | step :: rest => step.text ++ "/" ++ runText rest

end Step

namespace Path

/-- A dot counts only in front of a relative path. -/
def steps (p : Path) : List Step :=
  let parts := (Text.cutAt '/' p.text.toList).map String.ofList
  let inner := (parts.filter fun part => part != "" && part != ".").map Step.ofText
  match parts with
  | "." :: _ => .here :: inner
  | "" :: _ :: _ => .root :: inner
  | _ => inner

def same (p q : Path) : Bool := p.steps == q.steps

def le (p q : Path) : Bool := Step.runLe p.steps q.steps

def fileName? (p : Path) : Option String :=
  match p.steps.getLast? with
  | some (.name name) => some name
  | _ => none

def isAbsolute (p : Path) : Bool := p.text.toList.head? == some '/'

/-- `name` in the directory `p`; an absolute name stands for itself. -/
def join (p : Path) (name : String) : Path :=
  if isAbsolute ⟨name⟩ then ⟨name⟩
  else if p.text = "" || p.text.toList.getLast? == some '/' then ⟨p.text ++ name⟩
  else ⟨p.text ++ "/" ++ name⟩

/-- The steps with each `.` left out and each `..` undoing the step before it. The root too
    is undone that way. -/
def settle : List Step → List Step → List Step
  | done, [] => done
  | done, .here :: rest => settle done rest
  | done, .up :: rest => settle done.dropLast rest
  | done, step :: rest => settle (done ++ [step]) rest

def lexical (p : Path) : List Step := settle [] p.steps

def ofSteps (steps : List Step) : Path := ⟨Step.runText steps⟩

def parent? (steps : List Step) : Option (List Step) :=
  match steps.getLast? with
  | none | some .root => none
  | some _ => some steps.dropLast

end Path

end GoSpy
