import SlicePolicy.Text.Combining
import SlicePolicy.Text.Unprintable

namespace SlicePolicy.Text

/-!
# Quoted text in messages

A name that comes from outside is shown between double quotes, with everything escaped that would
be invisible, would combine with its neighbour or would end the quotation.
-/

/-- A character as its hexadecimal code point, without padding. -/
def codePoint (c : Char) : String :=
  "\\u\x7b" ++ String.ofList (Nat.toDigits 16 c.toNat) ++ "\x7d"

/-- One character between the quotes. -/
def quotedChar (c : Char) : String :=
  match c with
  | '\x00' => "\\0"
  | '\t' => "\\t"
  | '\n' => "\\n"
  | '\r' => "\\r"
  | '"' => "\\\""
  | '\\' => "\\\\"
  | c => if isCombining c || isUnprintable c then codePoint c else c.toString

/-- The text between double quotes. -/
def quoted (s : String) : String := "\"" ++ String.join (s.toList.map quotedChar) ++ "\""

end SlicePolicy.Text
