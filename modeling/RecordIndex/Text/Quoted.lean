import RecordIndex.Text.Unprinted

/-! # Quoted text

A text between double quotes. A quote and a backslash follow a backslash, the common controls have
short escapes, and every other character that is not printed as it is stands as its code point.
-/
namespace RecordIndex.Text

def codePoint (c : Char) : String :=
  "\\u\x7b" ++ String.ofList (Nat.toDigits 16 c.toNat) ++ "\x7d"

def escaped (c : Char) : String :=
  match c with
  | '"' => "\\\""
  | '\\' => "\\\\"
  | '\n' => "\\n"
  | '\r' => "\\r"
  | '\t' => "\\t"
  | '\x00' => "\\0"
  | c => if isPrinted c then c.toString else codePoint c

def quoted (text : String) : String :=
  "\"" ++ String.join (text.toList.map escaped) ++ "\""

end RecordIndex.Text
