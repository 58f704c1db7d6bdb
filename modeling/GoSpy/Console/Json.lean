/- JSON as the reports need it, in one line or indented by two spaces. -/
namespace GoSpy.Console

inductive Json where
  | text (text : String)
  | number (value : Nat)
  | list (items : List Json)
  | object (fields : List (String × Json))

namespace Json

def hexByte (n : Nat) : String :=
  let digits := Nat.toDigits 16 n
  String.ofList (List.replicate (2 - digits.length) '0' ++ digits)

def escapedChar (c : Char) : String :=
  match c with
  | '"' => "\\\""
  | '\\' => "\\\\"
  | '\x08' => "\\b"
  | '\x0c' => "\\f"
  | '\n' => "\\n"
  | '\r' => "\\r"
  | '\t' => "\\t"
  | c => if c.toNat < 32 then "\\u00" ++ hexByte c.toNat else c.toString

def quotedText (s : String) : String :=
  "\"" ++ String.join (s.toList.map escapedChar) ++ "\""

def commas (between : String) : List String → String
  | [] => ""
  | [part] => part
  | part :: rest => part ++ "," ++ between ++ commas between rest

mutual

def compact : Json → String
  | .text s => quotedText s
  | .number value => toString value
  | .list items => "[" ++ commas "" (compactItems items) ++ "]"
  | .object fields => "\x7b" ++ commas "" (compactFields fields) ++ "\x7d"

def compactItems : List Json → List String
  | [] => []
  | item :: rest => item.compact :: compactItems rest

def compactFields : List (String × Json) → List String
  | [] => []
  | (key, value) :: rest => (quotedText key ++ ":" ++ value.compact) :: compactFields rest

end

def newLine (level : Nat) : String := "\n" ++ String.ofList (List.replicate (2 * level) ' ')

def bracketed (opening closing : String) (level : Nat) (items : List String) : String :=
  if items.isEmpty then opening ++ closing
  else
    opening ++ newLine (level + 1) ++ commas (newLine (level + 1)) items
      ++ newLine level ++ closing

mutual

def indented (level : Nat) : Json → String
  | .text s => quotedText s
  | .number value => toString value
  | .list items => bracketed "[" "]" level (indentedItems (level + 1) items)
  | .object fields => bracketed "\x7b" "\x7d" level (indentedFields (level + 1) fields)

def indentedItems (level : Nat) : List Json → List String
  | [] => []
  | item :: rest => item.indented level :: indentedItems level rest

def indentedFields (level : Nat) : List (String × Json) → List String
  | [] => []
  | (key, value) :: rest =>
    (quotedText key ++ ": " ++ value.indented level) :: indentedFields level rest

end

def pretty (j : Json) : String := j.indented 0

end Json

end GoSpy.Console
