import GoSpy.Spy.Recording
/- All spies of a list of declarations: for each contract in order its record and then its
   methods. An embedded element gives no method, since its own are not spelled out. -/
namespace GoSpy

inductive SkipReason where
  | embedded
deriving DecidableEq, Repr

def SkipReason.text : SkipReason → String
  | embedded => "embedded"

structure Skipped where
  contract : String
  element : String
  reason : SkipReason
deriving DecidableEq, Repr

namespace Contract

def spyDecls (o : SpyOptions) (c : Contract) : List Decl :=
  .type ⟨[c.record o], false, c.place⟩
    :: c.methods.map fun m => .func ((c.receiver o).method o c.place.file m)

def skipped (c : Contract) : List Skipped :=
  (c.elements.filterMap Element.embedded?).map fun type => ⟨c.name, type.spelling, .embedded⟩

end Contract

structure Generation where
  decls : List Decl
  skipped : List Skipped
  spies : List String

def Generation.of (o : SpyOptions) (decls : List Decl) : Generation :=
  let contracts := decls.flatMap Decl.contracts
  { decls := contracts.flatMap (Contract.spyDecls o)
    skipped := contracts.flatMap Contract.skipped
    spies := contracts.map fun c => o.spyName c.name }

end GoSpy
