/- Texts cut at a mark. There is always one part more than there are marks. -/
namespace GoSpy.Text

def cutAt (mark : Char) : List Char → List (List Char)
  | [] => [[]]
  | c :: rest =>
    if c = mark then [] :: cutAt mark rest
    else match cutAt mark rest with
      | part :: parts => (c :: part) :: parts
      | [] => [[c]]

def dropEndWhile (p : Char → Bool) (text : List Char) : List Char :=
  (text.reverse.dropWhile p).reverse

end GoSpy.Text
