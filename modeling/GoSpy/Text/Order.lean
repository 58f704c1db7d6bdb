/- Sorting by insertion. Texts are ordered by code point, which is also the order of their
   UTF-8 bytes. -/
namespace GoSpy.Text

def insertInOrder {α : Type} (le : α → α → Bool) (x : α) : List α → List α
  | [] => [x]
  | y :: rest => if le x y then x :: y :: rest else y :: insertInOrder le x rest

/-- The list in ascending order; equal elements keep their order. -/
def inOrder {α : Type} (le : α → α → Bool) : List α → List α
  | [] => []
  | x :: rest => insertInOrder le x (inOrder le rest)

def insertOnce (x : String) : List String → List String
  | [] => [x]
  | y :: rest =>
    if x < y then x :: y :: rest
    else if x = y then y :: rest
    else y :: insertOnce x rest

def ascending : List String → List String
  | [] => []
  | x :: rest => insertOnce x (ascending rest)

end GoSpy.Text
