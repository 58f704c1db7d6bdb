import GoSpy.Grammar.Cursor
/- Repetition. The fuel of each loop bounds its rounds; `Cursor.fuel` is always enough,
   because every item takes at least one token. -/
namespace GoSpy.Reader

/-- Items parted by commas in front of `close`; a comma may follow the last one. -/
def commaItems {α : Type} (close : Token) (item : Reader α) : Nat → Reader (List α)
  | 0, s => s.fail .tooDeep
  | fuel + 1, s =>
    if s.peek = some close then .ok ([], s)
    else do
      let (x, s) ← item s
      match s.eat? .comma with
      | none => .ok ([x], s)
      | some s =>
        let (xs, s) ← commaItems close item fuel s
        .ok (x :: xs, s)

def separated {α : Type} (mark : Token) (item : Reader α) : Nat → Reader (List α)
  | 0, s => s.fail .tooDeep
  | fuel + 1, s => do
    let (x, s) ← item s
    match s.eat? mark with
    | none => .ok ([x], s)
    | some s =>
      let (xs, s) ← separated mark item fuel s
      .ok (x :: xs, s)

/-- Entries on lines of their own in front of `close`. An entry is read in view of the
    entries before it, the last of them first. -/
def entries {α : Type} (close : Token) (item : List α → Reader α) :
    Nat → List α → Reader (List α)
  | 0, _, s => s.fail .tooDeep
  | fuel + 1, before, s =>
    let s := s.skipSemicolons
    if s.peek = some close then .ok ([], s)
    else do
      let (x, s) ← item before s
      let s ← s.endEntry
      let (xs, s) ← entries close item fuel (x :: before) s
      .ok (x :: xs, s)

def group {α : Type} (item : Reader α) : Reader (List α × Bool) := fun s =>
  match s.eat? .openParen with
  | none => do
    let (x, s) ← item s
    .ok (([x], false), s)
  | some s => do
    let (xs, s) ← entries .closeParen (fun _ => item) s.fuel [] s
    let s ← s.expect .closeParen
    .ok ((xs, true), s)

def names : Reader (List String) := fun s => separated .comma Cursor.name s.fuel s

end GoSpy.Reader
