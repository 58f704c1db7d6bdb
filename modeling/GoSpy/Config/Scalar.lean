/- Numbers, dates and times of TOML. No setting takes one, so a reader tells only whether one
   stands at the front of a text, and what is behind it. -/
namespace GoSpy.Toml

/- Integers -/

def hexDigit (c : Char) : Option Nat :=
  if c.isDigit then some (c.toNat - '0'.toNat)
  else if 'a' ≤ c ∧ c ≤ 'f' then some (c.toNat - 'a'.toNat + 10)
  else if 'A' ≤ c ∧ c ≤ 'F' then some (c.toNat - 'A'.toNat + 10)
  else none

def isDigitOf (base : Nat) (c : Char) : Bool := (hexDigit c).any fun d => decide (d < base)

def valueOf (base : Nat) (digits : List Char) : Nat :=
  digits.foldl (fun n c => n * base + (hexDigit c).getD 0) 0

/-- The digits at the front of a text, and the rest. An underscore may part two digits. -/
def digitRun (base : Nat) : List Char → List Char × List Char
  | '_' :: c :: rest =>
    if isDigitOf base c then
      let r := digitRun base rest
      (c :: r.1, r.2)
    else ([], '_' :: c :: rest)
  | c :: rest =>
    if isDigitOf base c then
      let r := digitRun base rest
      (c :: r.1, r.2)
    else ([], c :: rest)
  | [] => ([], [])

/-- One digit or more; an underscore does not come first. -/
def digits (base : Nat) : List Char → Option (List Char × List Char)
  | c :: rest => if isDigitOf base c then some (digitRun base (c :: rest)) else none
  | [] => none

def sign : List Char → Bool × List Char
  | '-' :: rest => (true, rest)
  | '+' :: rest => (false, rest)
  | text => (false, text)

/-- The whole part of a decimal number has no zero in front of other digits. -/
def wholePart : List Char → Option (List Char × List Char)
  | '0' :: rest => some (['0'], rest)
  | text => digits 10 text

def upTo (greatest base : Nat) (reading : Option (List Char × List Char)) :
    Option (List Char) :=
  (reading.filter fun r => decide (valueOf base r.1 ≤ greatest)).map Prod.snd

def greatestInteger : Nat := Nat.pow 2 63 - 1

/-- Integers have 64 bits. Only decimal ones have a sign. -/
def integer (text : List Char) : Option (List Char) :=
  match text with
  | '0' :: 'x' :: rest => upTo greatestInteger 16 (digits 16 rest)
  | '0' :: 'o' :: rest => upTo greatestInteger 8 (digits 8 rest)
  | '0' :: 'b' :: rest => upTo greatestInteger 2 (digits 2 rest)
  | text =>
    match sign text with
    | (negative, text) =>
      upTo (if negative then greatestInteger + 1 else greatestInteger) 10 (wholePart text)

/- Floating point numbers -/

def fraction? : List Char → Option (List Char × List Char)
  | '.' :: rest => digits 10 rest
  | _ => none

def exponentBody (text : List Char) : Option (Int × List Char) :=
  match sign text with
  | (negative, text) => (digits 10 text).map fun r =>
    let n : Int := valueOf 10 r.1
    (if negative then -n else n, r.2)

def exponent? : List Char → Option (Int × List Char)
  | 'e' :: rest => exponentBody rest
  | 'E' :: rest => exponentBody rest
  | _ => none

/-- The least number that is rounded to infinity: half a unit above the greatest of 64 bits. -/
def overflow : Nat := Nat.pow 2 1024 - Nat.pow 2 970

def overflows (digits : List Char) (exponent : Int) : Bool :=
  let n := valueOf 10 digits
  if 0 ≤ exponent then
    n != 0 && (decide (308 < exponent) || decide (overflow ≤ n * Nat.pow 10 exponent.toNat))
  else if digits.length ≤ exponent.natAbs then false
  else decide (overflow * Nat.pow 10 exponent.natAbs ≤ n)

/-- A fraction, an exponent or both stand behind the whole part. A number too great is
    refused; one too far below zero counts as minus infinity. -/
def decimal (text : List Char) : Option (List Char) := do
  let (negative, text) := sign text
  let (whole, text) ← wholePart text
  let (places, behind) := (fraction? text).getD ([], text)
  let (exponent, rest) := (exponent? behind).getD (0, behind)
  if rest.length = text.length then none
  else if !negative && overflows (whole ++ places) (exponent - places.length) then none
  else some rest

def special (text : List Char) : Option (List Char) :=
  match (sign text).2 with
  | 'i' :: 'n' :: 'f' :: rest => some rest
  | 'n' :: 'a' :: 'n' :: rest => some rest
  | _ => none

/- Dates and times -/

def twoDigits (least greatest : Nat) : List Char → Option (Nat × List Char)
  | a :: b :: rest =>
    let n := valueOf 10 [a, b]
    if a.isDigit && b.isDigit && decide (least ≤ n) && decide (n ≤ greatest) then
      some (n, rest)
    else none
  | _ => none

def mark (c : Char) : List Char → Option (List Char)
  | d :: rest => if d = c then some rest else none
  | [] => none

def year : List Char → Option (Nat × List Char)
  | a :: b :: c :: d :: rest =>
    if [a, b, c, d].all Char.isDigit then some (valueOf 10 [a, b, c, d], rest) else none
  | _ => none

def isLeap (year : Nat) : Bool :=
  year % 4 == 0 && (year % 100 != 0 || year % 400 == 0)

def daysIn (year month : Nat) : Nat :=
  if month = 2 then if isLeap year then 29 else 28
  else if [4, 6, 9, 11].contains month then 30
  else 31

def date (text : List Char) : Option (List Char) := do
  let (year, text) ← year text
  let text ← mark '-' text
  let (month, text) ← twoDigits 1 12 text
  let text ← mark '-' text
  let (_, rest) ← twoDigits 1 (daysIn year month) text
  some rest

def hourAndMinute (text : List Char) : Option (List Char) := do
  let (_, text) ← twoDigits 0 23 text
  let text ← mark ':' text
  let (_, rest) ← twoDigits 0 59 text
  some rest

/-- The text behind parts of a second; without a digit the point does not belong to it. -/
def behindSecond : List Char → List Char
  | '.' :: c :: rest => if c.isDigit then rest.dropWhile Char.isDigit else '.' :: c :: rest
  | text => text

/-- A minute may have a leap second. -/
def time (text : List Char) : Option (List Char) := do
  let text ← hourAndMinute text
  let text ← mark ':' text
  let (_, rest) ← twoDigits 0 60 text
  some (behindSecond rest)

def behindOffset (text : List Char) : List Char :=
  match text with
  | 'Z' :: rest => rest
  | 'z' :: rest => rest
  | '+' :: rest => (hourAndMinute rest).getD text
  | '-' :: rest => (hourAndMinute rest).getD text
  | text => text

def behindDate : List Char → List Char
  | c :: rest =>
    if c = 'T' ∨ c = 't' ∨ c = ' ' then ((time rest).map behindOffset).getD (c :: rest)
    else c :: rest
  | [] => []

def moment (text : List Char) : Option (List Char) := (date text).map behindDate <|> time text

def scalar (text : List Char) : Option (List Char) :=
  moment text <|> decimal text <|> special text <|> integer text

end GoSpy.Toml
