import GoSpy.Spy.Record
/- The methods of a spy: each notes the call and its arguments and gives back what the test
   has put into the record. A thread-safe one holds the lock from its first statement on. -/
namespace GoSpy

structure Receiver where
  name : String
  type : TypeExpr
  typeParams : List String

namespace Contract

def fieldNames (fields : List Field) : List String := fields.flatMap Field.names

def scopeNames (c : Contract) : List String :=
  fieldNames (c.methods.flatMap (fun m => m.signature.params ++ m.signature.results)
    ++ c.typeParams)

def receiverName (c : Contract) : String := firstFree c.scopeNames Naming.receiverCandidate

def typeParamNames (c : Contract) : List String := (slots c.typeParams).filterMap Slot.name

def spyType (o : SpyOptions) (c : Contract) : TypeExpr :=
  let base := .name (o.spyName c.name)
  if c.typeParamNames.isEmpty then base else .generic base (c.typeParamNames.map .name)

def receiver (o : SpyOptions) (c : Contract) : Receiver :=
  ⟨c.receiverName, .pointer (c.spyType o), c.typeParamNames⟩

end Contract

namespace Receiver

def reserved (r : Receiver) (m : Method) : List String :=
  Contract.fieldNames m.signature.results ++ r.typeParams ++ [r.name]

def field (r : Receiver) (name : String) : Expr := .select (.ident r.name) name

def lockCalls (r : Receiver) (o : SpyOptions) : List Statement :=
  if o.threadSafe then
    [.run (.call (.select (r.field Naming.lockField) "Lock") []),
     .defer (.call (.select (r.field Naming.lockField) "Unlock") [])]
  else []

def captures (r : Receiver) (m : Method) (params : List Field) : List Statement :=
  (slots params).filterMap fun slot => slot.name.map fun name =>
    .assign (.select (r.field (Naming.inputField m.name)) (Naming.argField slot.index))
      (.ident name)

def answers (r : Receiver) (m : Method) : List Statement :=
  if m.signature.results.isEmpty then []
  else [.give ((slots m.signature.results).map fun slot =>
    .select (r.field (Naming.outputField m.name)) (Naming.retField slot.index))]

def body (r : Receiver) (o : SpyOptions) (m : Method) (params : List Field) : List Statement :=
  r.lockCalls o
    ++ .assign (r.field (Naming.calledField m.name)) (.ident "true") :: r.captures m params
    ++ r.answers m

def method (r : Receiver) (o : SpyOptions) (file : String) (m : Method) : FuncDecl :=
  let params := Naming.callable (r.reserved m) m.signature.params
  { receiver := some ⟨[r.name], r.type⟩
    name := m.name
    typeParams := []
    signature := ⟨params, m.signature.results⟩
    body := some (r.body o m params)
    place := ⟨file, m.line⟩ }

end Receiver

end GoSpy
