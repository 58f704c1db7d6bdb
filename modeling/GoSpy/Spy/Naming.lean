import GoSpy.Spy.Slot
/- Names for generated code. A search for a free name looks at one candidate more than there
   are names in the way, which is enough as long as the candidates differ. -/
namespace GoSpy

/-- The least number up to `bound` with the property, or 0. -/
def leastWhere (bound : Nat) (p : Nat → Bool) : Nat :=
  ((List.range (bound + 1)).find? p).getD 0

def firstFree (taken : List String) (candidate : Nat → String) : String :=
  candidate (leastWhere taken.length fun n => !taken.contains (candidate n))

structure SpyOptions where
  namePrefix : String := "Fake"
  threadSafe : Bool := false
deriving DecidableEq, Repr

def SpyOptions.spyName (o : SpyOptions) (contract : String) : String := o.namePrefix ++ contract

namespace Naming

def lockField : String := "mu"

def calledField (method : String) : String := method ++ "_Called"

def inputField (method : String) : String := method ++ "_Input"

def outputField (method : String) : String := method ++ "_Output"

def argField (index : Nat) : String := "Arg" ++ toString index

def retField (index : Nat) : String := "Ret" ++ toString index

def receiverCandidate : Nat → String
  | 0 => "f"
  | 1 => "fake"
  | 2 => "spy"
  | n + 3 => "f" ++ toString n

def paramStem (underscores : Nat) : String :=
  "arg" ++ String.ofList (List.replicate underscores '_')

def paramName (stem : String) (index : Nat) : String := stem ++ toString index

/-- The shortest stem that keeps all of `count` parameter names clear of `reserved`. -/
def freeStem (reserved : List String) (count : Nat) : String :=
  paramStem (leastWhere reserved.length fun underscores =>
    (List.range count).all fun i => !reserved.contains (paramName (paramStem underscores) i))

def renumber (stem : String) : Nat → List Field → List Field
  | _, [] => []
  | start, field :: rest =>
    ⟨(List.range field.arity).map fun i => paramName stem (start + i), field.type⟩
      :: renumber stem (start + field.arity) rest

/-- Parameters that a body can refer to: as declared, or all renamed if one has no name. -/
def callable (reserved : List String) (params : List Field) : List Field :=
  let slots := slots params
  if slots.any Slot.isUnnamed then renumber (freeStem reserved slots.length) 0 params else params

end Naming

end GoSpy
