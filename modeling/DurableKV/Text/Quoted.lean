import DurableKV.Bytes
import DurableKV.Text.Glyphless

/-!
# Quoted text

Text as messages show it: in double quotes, with a backslash before a quote and a backslash, letters
for tab, line feed, carriage return and the zero character, and by number every other character
without a glyph of its own.
-/

namespace DurableKV.Text

/-- A number in lower-case hexadecimal digits. -/
def hex (n : Nat) : List Char := Nat.toDigits 16 n

/-- A character inside quoted text. -/
def quotedChar (c : Char) : List Char :=
  match c with
  | '"' => ['\\', '"']
  | '\\' => ['\\', '\\']
  | '\t' => ['\\', 't']
  | '\n' => ['\\', 'n']
  | '\r' => ['\\', 'r']
  | '\x00' => ['\\', '0']
  | c =>
    if c.toNat < 0x20 || c.toNat == 0x7F || isGlyphless c then
      ['\\', 'u', '\x7b'] ++ hex c.toNat ++ ['\x7d']
    else [c]

/-- A text in quotes. -/
def quoted (s : String) : String :=
  String.ofList ('"' :: s.toList.flatMap quotedChar ++ ['"'])

end DurableKV.Text
