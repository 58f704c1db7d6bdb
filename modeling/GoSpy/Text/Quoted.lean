import GoSpy.Text.Class
/- Quoted text for messages: a quote, a backslash and every character without a shape of
   its own are escaped, all else stands as it is. -/
namespace GoSpy.Text

def lowerHex (n : Nat) : String := String.ofList (Nat.toDigits 16 n)

def quotedChar (c : Char) : String :=
  match c with
  | '"' => "\\\""
  | '\\' => "\\\\"
  | '\n' => "\\n"
  | '\r' => "\\r"
  | '\t' => "\\t"
  | '\x00' => "\\0"
  | c => if isHidden c then "\\u\x7b" ++ lowerHex c.toNat ++ "\x7d" else c.toString

def quoted (text : String) : String :=
  "\"" ++ String.join (text.toList.map quotedChar) ++ "\""

end GoSpy.Text
