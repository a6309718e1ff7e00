import DurableKV.Bytes
import DurableKV.Json.Value

/-!
# Writing JSON

The one written form of a value: no blanks, fields in the order in which the value has them, and
escapes only where JSON demands one. Control characters have a letter after the backslash where JSON
has one and four lower-case hexadecimal digits otherwise. `Value.chars` is that form as characters,
`Value.text` as text and `Value.bytes` in UTF-8.
-/

namespace DurableKV.Json

/-- Numbers from `1e-5` up to, not including, `1e16` are written positionally, and an exponent
always has a sign. -/
def numberStyle : Decimal.Style := ⟨-5, 15, "+"⟩

/-- A character inside a written text. -/
def escaped (c : Char) : List Char :=
  match c with
  | '"' => ['\\', '"']
  | '\\' => ['\\', '\\']
  | '\x08' => ['\\', 'b']
  | '\x0c' => ['\\', 'f']
  | '\n' => ['\\', 'n']
  | '\r' => ['\\', 'r']
  | '\t' => ['\\', 't']
  | c =>
    if c.toNat < 0x20 then
      ['\\', 'u', '0', '0', Bytes.hexDigit (c.toNat / 16), Bytes.hexDigit (c.toNat % 16)]
    else [c]

/-- A text in quotes. -/
def quotedChars (s : String) : List Char := '"' :: s.toList.flatMap escaped ++ ['"']

/-- The decimal digits of an integer after its sign. -/
def intChars (i : Int) : List Char :=
  if i < 0 then '-' :: Nat.toDigits 10 i.natAbs else Nat.toDigits 10 i.natAbs

/-- A number in text. -/
def Number.text : Number → String
  | .int i => String.ofList (intChars i)
  | .float x => x.text numberStyle

/-- A number in characters. -/
def Number.chars (n : Number) : List Char := n.text.toList

namespace Value

mutual

/-- The written form of a value. -/
def chars : Value → List Char
  | .null => ['n', 'u', 'l', 'l']
  | .bool true => ['t', 'r', 'u', 'e']
  | .bool false => ['f', 'a', 'l', 's', 'e']
  | .number n => n.chars
  | .string s => quotedChars s
  | .array items => '[' :: itemChars items ++ [']']
  | .object fields => '\x7b' :: fieldChars fields ++ ['\x7d']

/-- The items of an array, with commas between them. -/
def itemChars : List Value → List Char
  | [] => []
  | [v] => v.chars
  | v :: w :: vs => v.chars ++ ',' :: itemChars (w :: vs)

/-- The fields of an object, with commas between them. -/
def fieldChars : List (String × Value) → List Char
  | [] => []
  | [(k, v)] => quotedChars k ++ ':' :: v.chars
  | (k, v) :: f :: fs => quotedChars k ++ ':' :: v.chars ++ ',' :: fieldChars (f :: fs)

end

/-- The written form of a value as text. -/
def text (v : Value) : String := String.ofList v.chars

/-- The written form of a value in UTF-8. -/
def bytes (v : Value) : Bytes := Bytes.ofText v.text

end Value

end DurableKV.Json
