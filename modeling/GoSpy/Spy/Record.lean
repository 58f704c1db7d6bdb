import GoSpy.Spy.Contract
import GoSpy.Spy.Naming
/- The struct of a spy: for each method a flag, the arguments of the last call and the results
   to give back. A thread-safe spy starts with a lock. -/
namespace GoSpy

def Member.single (name : String) (type : TypeExpr) : Member := ⟨[name], type, none⟩

namespace Contract

def captureStruct (fieldName : Nat → String) (fields : List Field) : TypeExpr :=
  .struct ((slots fields).map fun slot => .single (fieldName slot.index) slot.type.captured)

def inputMembers (m : Method) : List Member :=
  if m.signature.params.isEmpty then []
  else [.single (Naming.inputField m.name) (captureStruct Naming.argField m.signature.params)]

def outputMembers (m : Method) : List Member :=
  if m.signature.results.isEmpty then []
  else [.single (Naming.outputField m.name) (captureStruct Naming.retField m.signature.results)]

def methodMembers (m : Method) : List Member :=
  .single (Naming.calledField m.name) (.name "bool") :: (inputMembers m ++ outputMembers m)

def lockMembers (o : SpyOptions) : List Member :=
  if o.threadSafe then [.single Naming.lockField (.qualified "sync" "Mutex")] else []

def members (o : SpyOptions) (c : Contract) : List Member :=
  lockMembers o ++ c.methods.flatMap methodMembers

/-- The record of a generic contract has the contract's type parameters. -/
def record (o : SpyOptions) (c : Contract) : TypeSpec :=
  ⟨o.spyName c.name, c.typeParams, false, .struct (c.members o), c.place.line⟩

end Contract

end GoSpy
