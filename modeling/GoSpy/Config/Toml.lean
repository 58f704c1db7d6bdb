import GoSpy.Config.Scalar
/- The part of TOML that settings are written in: section headers and entries with values of
   all kinds. Numbers, dates and times are no setting's value and are not told apart. -/
namespace GoSpy.Toml

inductive Value where
  | text (text : String)
  | switch (on : Bool)
  | scalar
  | list (values : List Value)
  | table (entries : List (List String × Value))

inductive Line where
  | header (keys : List String)
  | entry (keys : List String) (value : Value)

def dropBlanks (text : List Char) : List Char := text.dropWhile fun c => c == ' ' || c == '\t'

def lineBreak : List Char → Option (List Char)
  | '\n' :: rest => some rest
  | '\r' :: '\n' :: rest => some rest
  | _ => none

/-- Control characters other than the tab stand nowhere in a file. -/
def isPlain (c : Char) : Bool := c == '\t' || (decide (32 ≤ c.toNat) && c.toNat != 127)

def dropComment : List Char → List Char
  | '#' :: rest => rest.dropWhile isPlain
  | text => text

def lineEnd (text : List Char) : Option (List Char) :=
  match dropComment (dropBlanks text) with
  | [] => some []
  | rest => lineBreak rest

/- Texts -/

def hexChar (digits : List Char) : Option Char := do
  let values ← digits.mapM hexDigit
  let code := values.foldl (fun code d => code * 16 + d) 0
  if code.isValidChar then some (Char.ofNat code) else none

def escaped : List Char → Option (Char × List Char)
  | 'b' :: rest => some ('\x08', rest)
  | 't' :: rest => some ('\t', rest)
  | 'n' :: rest => some ('\n', rest)
  | 'f' :: rest => some ('\x0c', rest)
  | 'r' :: rest => some ('\r', rest)
  | '"' :: rest => some ('"', rest)
  | '\\' :: rest => some ('\\', rest)
  | 'u' :: rest =>
    if rest.length < 4 then none else (hexChar (rest.take 4)).map fun c => (c, rest.drop 4)
  | 'U' :: rest =>
    if rest.length < 8 then none else (hexChar (rest.take 8)).map fun c => (c, rest.drop 8)
  | _ => none

def hiddenBreak (text : List Char) : Option (List Char) :=
  (lineBreak (dropBlanks text)).map fun rest =>
    rest.dropWhile fun c => c == ' ' || c == '\t' || c == '\n' || c == '\r'

def quoteRun (quote : Char) (text : List Char) : Nat := (text.takeWhile (· == quote)).length

/-- The body of a text on one line and the rest behind its closing quote. Only double quotes
    know escapes. -/
def lineText (quote : Char) : Nat → List Char → Option (List Char × List Char)
  | 0, _ => none
  | _, [] => none
  | fuel + 1, c :: rest =>
    if c = quote then some ([], rest)
    else if c = '\\' && quote == '"' then do
      let (c, rest) ← escaped rest
      let (body, rest) ← lineText quote fuel rest
      some (c :: body, rest)
    else if isPlain c then do
      let (body, rest) ← lineText quote fuel rest
      some (c :: body, rest)
    else none

/-- The body of a text between triple quotes. Up to two quotes in front of the closing three
    belong to the text. -/
def blockText (quote : Char) : Nat → List Char → Option (List Char × List Char)
  | 0, _ => none
  | _, [] => none
  | fuel + 1, c :: rest =>
    if c = quote then
      let run := quoteRun quote (c :: rest)
      if 3 ≤ run then
        some (List.replicate (min run 5 - 3) quote, (c :: rest).drop (min run 5))
      else do
        let (body, rest) ← blockText quote fuel rest
        some (c :: body, rest)
    else if c = '\\' && quote == '"' then
      match hiddenBreak rest with
      | some rest => blockText quote fuel rest
      | none => do
        let (c, rest) ← escaped rest
        let (body, rest) ← blockText quote fuel rest
        some (c :: body, rest)
    else
      match lineBreak (c :: rest) with
      | some rest => do
        let (body, rest) ← blockText quote fuel rest
        some ('\n' :: body, rest)
      | none =>
        if isPlain c then do
          let (body, rest) ← blockText quote fuel rest
          some (c :: body, rest)
        else none

def asText (reading : Option (List Char × List Char)) : Option (String × List Char) :=
  reading.map fun r => (String.ofList r.1, r.2)

/-- A line break directly behind the opening quotes is no part of a text. -/
def afterOpening (text : List Char) : List Char := (lineBreak text).getD text

def quotedText (quote : Char) (text : List Char) : Option (String × List Char) :=
  asText (lineText quote (text.length + 1) text)

def anyText (quote : Char) (text : List Char) : Option (String × List Char) :=
  match text with
  | a :: b :: rest =>
    if a = quote && b = quote then
      asText (blockText quote (rest.length + 1) (afterOpening rest))
    else quotedText quote text
  | _ => quotedText quote text

/- Keys -/

def isBareKey (c : Char) : Bool := c.isAlphanum || c == '-' || c == '_'

def key : List Char → Option (String × List Char)
  | '"' :: rest => quotedText '"' rest
  | '\x27' :: rest => quotedText '\x27' rest
  | text =>
    let word := text.takeWhile isBareKey
    if word.isEmpty then none else some (String.ofList word, text.dropWhile isBareKey)

def keys : Nat → List Char → Option (List String × List Char)
  | 0, _ => none
  | fuel + 1, text => do
    let (first, rest) ← key (dropBlanks text)
    match dropBlanks rest with
    | '.' :: rest => do
      let (others, rest) ← keys fuel rest
      some (first :: others, rest)
    | rest => some ([first], rest)

/-- How deep lists and tables nest at most, and how long a dotted key is at most. -/
def deepest : Nat := 79

def keysOf (text : List Char) : Option (List String × List Char) :=
  (keys (text.length + 1) text).filter fun r => decide (r.1.length ≤ deepest)

/- Values -/

def dropSpace : Nat → List Char → List Char
  | 0, text => text
  | fuel + 1, text =>
    match dropComment (dropBlanks text) with
    | [] => []
    | rest =>
      match lineBreak rest with
      | some rest => dropSpace fuel rest
      | none => rest

def space (text : List Char) : List Char := dropSpace (text.length + 1) text

section

variable (value : List Char → Option (Value × List Char))

def listBody : Nat → List Char → Option (List Value × List Char)
  | 0, _ => none
  | fuel + 1, text =>
    match space text with
    | ']' :: rest => some ([], rest)
    | text => do
      let (first, rest) ← value text
      match space rest with
      | ',' :: rest => do
        let (others, rest) ← listBody fuel rest
        some (first :: others, rest)
      | ']' :: rest => some ([first], rest)
      | _ => none

def entry (text : List Char) : Option ((List String × Value) × List Char) := do
  let (keys, rest) ← keysOf text
  match rest with
  | '=' :: rest => do
    let (value, rest) ← value (dropBlanks rest)
    some ((keys, value), rest)
  | _ => none

/-- Entries with commas between them up to the closing brace, all on one line. -/
def tableBody : Nat → List Char → Option (List (List String × Value) × List Char)
  | 0, _ => none
  | fuel + 1, text => do
    let (first, rest) ← entry value text
    match dropBlanks rest with
    | ',' :: rest => do
      let (others, rest) ← tableBody fuel rest
      some (first :: others, rest)
    | '}' :: rest => some ([first], rest)
    | _ => none

def clash (a b : List String) : Bool := a.isPrefixOf b || b.isPrefixOf a

/-- No key is defined twice: a dotted key makes tables on its way, and only dotted keys can
    add to these. -/
def areDistinct : List (List String) → Bool
  | [] => true
  | keys :: rest => !rest.any (clash keys) && areDistinct rest

def inlineTable (text : List Char) : Option (List (List String × Value) × List Char) :=
  match dropBlanks text with
  | '}' :: rest => some ([], rest)
  | text =>
    (tableBody value (text.length + 1) text).filter fun r => areDistinct (r.1.map Prod.fst)

end

def flatValue : List Char → Option (Value × List Char)
  | '"' :: rest => (anyText '"' rest).map fun r => (.text r.1, r.2)
  | '\x27' :: rest => (anyText '\x27' rest).map fun r => (.text r.1, r.2)
  | 't' :: 'r' :: 'u' :: 'e' :: rest => some (.switch true, rest)
  | 'f' :: 'a' :: 'l' :: 's' :: 'e' :: rest => some (.switch false, rest)
  | text => (scalar text).map fun rest => (.scalar, rest)

def valueWithin : Nat → List Char → Option (Value × List Char)
  | depth + 1, '[' :: rest =>
    (listBody (valueWithin depth) (rest.length + 1) rest).map fun r => (.list r.1, r.2)
  | depth + 1, '{' :: rest => (inlineTable (valueWithin depth) rest).map fun r => (.table r.1, r.2)
  | _, text => flatValue text

def value (text : List Char) : Option (Value × List Char) := valueWithin deepest text

/- Documents -/

def header (text : List Char) : Option (Line × List Char) := do
  let (keys, rest) ← keysOf text
  match rest with
  | ']' :: rest => some (.header keys, rest)
  | _ => none

/-- One line with something on it; a section of a list of sections is refused. -/
def line : List Char → Option (Line × List Char)
  | '[' :: rest => header rest
  | text => (entry value text).map fun r => (.entry r.1.1 r.1.2, r.2)

def lines : Nat → List Char → Option (List Line)
  | 0, _ => none
  | fuel + 1, text =>
    match space text with
    | [] => some []
    | text => do
      let (first, rest) ← line text
      let rest ← lineEnd rest
      let others ← lines fuel rest
      some (first :: others)

def skipMark : List Char → List Char
  | '\ufeff' :: rest => rest
  | text => text

def read (text : String) : Option (List Line) :=
  lines (text.length + 1) (skipMark text.toList)

end GoSpy.Toml
