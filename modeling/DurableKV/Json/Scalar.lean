import DurableKV.Json.ReadError

/-!
# Reading words, texts and numbers

The parts of JSON without nesting. Every reader takes the rest of the input and gives what it read
together with the rest after it, or the first cause of failure.

* `readWord` reads the letters of `null`, `true` and `false`.
* `readText` reads a text after its opening quote. Escapes are turned into UTF-8 as they come, and
  the whole is checked for UTF-8 at the closing quote.
* `readNumber` reads a number after its sign. Digits are collected while they fit into 64 bits;
  further digits before the point only raise the exponent, further ones after it are dropped.

Where a reader goes on with what another one has left, its recursion is on a list of its own, the
`bound`. At first that is the input itself. Every step takes one element off the bound and at least
one byte off the input, so the bound never ends before the input does.
-/

namespace DurableKV.Json

/-! ## Bytes with a meaning -/

/-- The byte `"`. -/
@[match_pattern] abbrev quote : UInt8 := 0x22
/-- The byte of a comma. -/
@[match_pattern] abbrev comma : UInt8 := 0x2C
/-- The byte of a colon. -/
@[match_pattern] abbrev colon : UInt8 := 0x3A
/-- The byte of a minus sign. -/
@[match_pattern] abbrev minus : UInt8 := 0x2D
/-- The byte of a plus sign. -/
@[match_pattern] abbrev plus : UInt8 := 0x2B
/-- The byte of a decimal point. -/
@[match_pattern] abbrev point : UInt8 := 0x2E
/-- The byte of a backslash. -/
@[match_pattern] abbrev backslash : UInt8 := 0x5C
/-- The byte that opens an array. -/
@[match_pattern] abbrev openBracket : UInt8 := 0x5B
/-- The byte that closes an array. -/
@[match_pattern] abbrev closeBracket : UInt8 := 0x5D
/-- The byte that opens an object. -/
@[match_pattern] abbrev openBrace : UInt8 := 0x7B
/-- The byte that closes an object. -/
@[match_pattern] abbrev closeBrace : UInt8 := 0x7D

/-- Space, tab, line feed and carriage return stand between values. -/
def isSpace (b : UInt8) : Bool := b == 0x20 || b == 0x09 || b == 0x0A || b == 0x0D

/-- The input after the blanks at its start. -/
def skipSpace (input : Bytes) : Bytes := input.dropWhile isSpace

/-- Is this a decimal digit? -/
def isDigit (b : UInt8) : Bool := 0x30 ≤ b && b ≤ 0x39

/-- The value of a decimal digit. -/
def digitValue (b : UInt8) : Nat := b.toNat - 0x30

/-- The value of a hexadecimal digit of either case. -/
def hexValue? (b : UInt8) : Option Nat :=
  if 0x30 ≤ b && b ≤ 0x39 then some (b.toNat - 0x30)
  else if 0x41 ≤ b && b ≤ 0x46 then some (b.toNat - 0x37)
  else if 0x61 ≤ b && b ≤ 0x66 then some (b.toNat - 0x57)
  else none

/-! ## Words -/

/-- Read the given letters. -/
def readWord : (letters input : Bytes) → Except ReadError Bytes
  | [], input => .ok input
  | _ :: _, [] => .error .endInValue
  | a :: letters, b :: input => if b = a then readWord letters input else .error .expectedWord

/-- The letters of `null` after the first. -/
def nullTail : Bytes := [0x75, 0x6C, 0x6C]
/-- The letters of `true` after the first. -/
def trueTail : Bytes := [0x72, 0x75, 0x65]
/-- The letters of `false` after the first. -/
def falseTail : Bytes := [0x61, 0x6C, 0x73, 0x65]

/-! ## Texts -/

/-- Four hexadecimal digits as a number. -/
def readHex : Bytes → Except ReadError (Nat × Bytes)
  | a :: b :: c :: d :: rest =>
    match hexValue? a, hexValue? b, hexValue? c, hexValue? d with
    | some a, some b, some c, some d => .ok (((a * 16 + b) * 16 + c) * 16 + d, rest)
    | _, _, _, _ => .error .invalidEscape
  | _ => .error .endInText

/-- The UTF-8 of a code point. -/
def utf8OfCode (n : Nat) : Bytes := String.utf8EncodeChar (Char.ofNat n)

/-- The escape `\uXXXX`, after the `u`. A leading surrogate takes the escape of the trailing one
with it. -/
def readUnicode (input : Bytes) : Except ReadError (Bytes × Bytes) := do
  let (n, rest) ← readHex input
  if 0xDC00 ≤ n ∧ n ≤ 0xDFFF then .error .loneSurrogate
  else if n < 0xD800 ∨ 0xDFFF < n then .ok (utf8OfCode n, rest)
  else
    match rest with
    | [] => .error .endInText
    | [b] => .error (if b = backslash then .endInText else .missingSurrogate)
    | b :: u :: rest =>
      if b = backslash ∧ u = 0x75 then do
        let (m, rest) ← readHex rest
        if m < 0xDC00 ∨ 0xDFFF < m then .error .loneSurrogate
        else .ok (utf8OfCode (0x10000 + (n - 0xD800) * 0x400 + (m - 0xDC00)), rest)
      else .error .missingSurrogate

/-- The byte that a one-letter escape stands for. -/
def simpleEscape? (b : UInt8) : Option UInt8 :=
  if b = quote ∨ b = backslash ∨ b = 0x2F then some b
  else if b = 0x62 then some 0x08
  else if b = 0x66 then some 0x0C
  else if b = 0x6E then some 0x0A
  else if b = 0x72 then some 0x0D
  else if b = 0x74 then some 0x09
  else none

/-- An escape, after its backslash: the bytes that it stands for. -/
def readEscape : Bytes → Except ReadError (Bytes × Bytes)
  | [] => .error .endInText
  | b :: rest =>
    if b = 0x75 then readUnicode rest
    else
      match simpleEscape? b with
      | some c => .ok ([c], rest)
      | none => .error .invalidEscape

/-- The bytes of a text up to its closing quote. -/
def readTextBytes : (bound input : Bytes) → Except ReadError (Bytes × Bytes)
  | [], _ => .error .endInText
  | _ :: _, [] => .error .endInText
  | _ :: bound, b :: rest =>
    if b = quote then .ok ([], rest)
    else if b = backslash then do
      let (bs, rest) ← readEscape rest
      let (tail, rest) ← readTextBytes bound rest
      .ok (bs ++ tail, rest)
    else if b < 0x20 then .error .controlCharacter
    else do
      let (tail, rest) ← readTextBytes bound rest
      .ok (b :: tail, rest)

/-- A text, after its opening quote. -/
def readText (input : Bytes) : Except ReadError (String × Bytes) := do
  let (bs, rest) ← readTextBytes input input
  match Bytes.toText? bs with
  | some s => .ok (s, rest)
  | none => .error .invalidUtf8

/-! ## Numbers -/

/-- Digits taken into a 64-bit significand: it and the number of digits that it could not take. The
first digit that does not fit keeps all digits after it out. -/
def gather (significand : Nat) : Bytes → Nat × Nat
  | [] => (significand, 0)
  | d :: ds =>
    let next := significand * 10 + digitValue d
    if next < UInt64.size then gather next ds else (significand, ds.length + 1)

/-- The digits of an integer part. -/
def readIntegerDigits : Bytes → Except ReadError (Bytes × Bytes)
  | [] => .error .endInValue
  | d :: rest =>
    if ¬ isDigit d then .error .invalidNumber
    else if d = 0x30 then
      match rest with
      | e :: _ => if isDigit e then .error .invalidNumber else .ok ([d], rest)
      | [] => .ok ([d], rest)
    else .ok (d :: rest.takeWhile isDigit, rest.dropWhile isDigit)

/-- The digits after a point or an exponent mark, at least one. -/
def readSomeDigits (input : Bytes) : Except ReadError (Bytes × Bytes) :=
  match input with
  | [] => .error .endInValue
  | d :: _ =>
    if isDigit d then .ok (input.takeWhile isDigit, input.dropWhile isDigit)
    else .error .invalidNumber

/-- The fraction of a number, if it has one. -/
def readFraction : Bytes → Except ReadError (Option Bytes × Bytes)
  | point :: rest => do
    let (ds, rest) ← readSomeDigits rest
    .ok (some ds, rest)
  | input => .ok (none, input)

/-- Exponents from here on count as this one. They take every number but zero out of range, or to
zero if they are negative. -/
def exponentLimit : Nat := Nat.pow 2 31

/-- The exponent of a number, if it has one. -/
def readExponent : Bytes → Except ReadError (Option Int × Bytes)
  | [] => .ok (none, [])
  | e :: rest =>
    if e = 0x65 ∨ e = 0x45 then do
      let (negative, rest) := match rest with
        | plus :: rest => (false, rest)
        | minus :: rest => (true, rest)
        | rest => (false, rest)
      let (ds, rest) ← readSomeDigits rest
      let n := ds.foldl (fun n d => min (n * 10 + digitValue d) exponentLimit) 0
      .ok (some (if negative then -(n : Int) else n), rest)
    else .ok (none, e :: rest)

/-- The number made of the digits before the point, those after it and the exponent. Without
fraction and exponent it is an integer if it fits: up to `2 ^ 64 - 1`, and below zero down to
`-2 ^ 63`. -/
def makeNumber (negative : Bool) (digits : Bytes) (fraction : Option Bytes)
    (exponent : Option Int) : Except ReadError Number :=
  let (whole, dropped) := gather 0 digits
  let float (significand : Nat) (e : Int) : Except ReadError Number :=
    match Magnitude.ofDecimal? significand e with
    | some x => .ok (.float ⟨negative, x⟩)
    | none => .error .numberOutOfRange
  match fraction, exponent with
  | none, none =>
    if dropped ≠ 0 then float whole dropped
    else if ¬ negative then .ok (.int whole)
    else if whole = 0 ∨ Nat.pow 2 63 < whole then float whole 0
    else .ok (.int (-(whole : Int)))
  | none, some e => float whole (dropped + e)
  | some ds, e =>
    let (significand, lost) := gather whole ds
    float significand (dropped - ((ds.length - lost : Nat) : Int) + e.getD 0)

/-- A number, after its sign. -/
def readUnsigned (negative : Bool) (input : Bytes) : Except ReadError (Number × Bytes) := do
  let (digits, rest) ← readIntegerDigits input
  let (fraction, rest) ← readFraction rest
  let (exponent, rest) ← readExponent rest
  let n ← makeNumber negative digits fraction exponent
  .ok (n, rest)

/-- A number, from its sign or first digit on. -/
def readNumber : Bytes → Except ReadError (Number × Bytes)
  | minus :: rest => readUnsigned true rest
  | input => readUnsigned false input

end DurableKV.Json
