import DurableKV.Json.Reader

/-!
# Passing over values

Values of fields that a record does not know are passed over without being read. That asks less than
reading: numbers may be too large, texts need not be UTF-8 and may hold lone surrogates, and nesting
is unlimited. It also names some faults differently, since it does not look behind a comma before
the next value is due.

`skipValue` keeps the brackets and braces that are open in a list, innermost first. Its bound is the
input, as it is for the readers.
-/

namespace DurableKV.Json

/-- What encloses the place that has been reached. -/
inductive Bracket where
  /-- An array. -/
  | array
  /-- An object. -/
  | object
  deriving DecidableEq, Repr

/-- Pass over a text, after its opening quote. -/
def skipText : (bound input : Bytes) → Except ReadError Bytes
  | [], _ => .error .endInText
  | _ :: _, [] => .error .endInText
  | _ :: bound, b :: rest =>
    if b = quote then .ok rest
    else if b = backslash then
      match rest with
      | [] => .error .endInText
      | c :: rest =>
        if c = 0x75 then do
          let (_, rest) ← readHex rest
          skipText bound rest
        else if (simpleEscape? c).isSome then skipText bound rest
        else .error .invalidEscape
    else if b < 0x20 then .error .controlCharacter
    else skipText bound rest

/-- Pass over digits, at least one. -/
def skipSomeDigits : Bytes → Except ReadError Bytes
  | [] => .error .invalidNumber
  | d :: rest => if isDigit d then .ok (rest.dropWhile isDigit) else .error .invalidNumber

/-- Pass over the exponent of a number, if it has one. -/
def skipExponent : Bytes → Except ReadError Bytes
  | [] => .ok []
  | e :: rest =>
    if e = 0x65 ∨ e = 0x45 then
      match rest with
      | plus :: rest => skipSomeDigits rest
      | minus :: rest => skipSomeDigits rest
      | rest => skipSomeDigits rest
    else .ok (e :: rest)

/-- Pass over a number, after its sign. -/
def skipNumber : Bytes → Except ReadError Bytes
  | [] => .error .invalidNumber
  | d :: rest => do
    let rest ←
      if ¬ isDigit d then .error .invalidNumber
      else if d = 0x30 then
        match rest with
        | e :: _ => if isDigit e then .error .invalidNumber else .ok rest
        | [] => .ok []
      else .ok (rest.dropWhile isDigit)
    match rest with
    | point :: rest => do
      let rest ← skipSomeDigits rest
      skipExponent rest
    | rest => skipExponent rest

/-- Pass over a word, text or number; none if the input starts otherwise. -/
def skipScalar? : Bytes → Option (Except ReadError Bytes)
  | [] => some (.error .endInValue)
  | b :: rest =>
    if b = quote then some (skipText rest rest)
    else if b = minus then some (skipNumber rest)
    else if isDigit b then some (skipNumber (b :: rest))
    else if b = 0x6E then some (readWord nullTail rest)
    else if b = 0x74 then some (readWord trueTail rest)
    else if b = 0x66 then some (readWord falseTail rest)
    else none

/-- Pass over the name of a field and its colon. -/
def skipName (input : Bytes) : Except ReadError Bytes :=
  match skipSpace input with
  | [] => .error .endInObject
  | b :: rest =>
    if b = quote then do
      let rest ← skipText rest rest
      readColon rest
    else .error .nameNotText

mutual

/-- Pass over a value and whatever closes the brackets that are open around it. -/
def skipFrom : (bound : Bytes) → List Bracket → Bytes → Except ReadError Bytes
  | [], _, _ => .error .endInValue
  | _ :: bound, stack, input =>
    match skipSpace input with
    | [] => .error .endInValue
    | b :: rest =>
      if b = openBracket then
        match skipSpace rest with
        | [] => .error .endInArray
        | c :: inner =>
          if c = closeBracket then skipAfter bound stack inner
          else skipFrom bound (.array :: stack) (c :: inner)
      else if b = openBrace then
        match skipSpace rest with
        | [] => .error .endInObject
        | c :: inner =>
          if c = closeBrace then skipAfter bound stack inner
          else do
            let rest ← skipName (c :: inner)
            skipFrom bound (.object :: stack) rest
      else
        match skipScalar? (b :: rest) with
        | some (.ok rest) => skipAfter bound stack rest
        | some (.error e) => .error e
        | none => .error .expectedValue

/-- Go on after a value. -/
def skipAfter : (bound : Bytes) → List Bracket → Bytes → Except ReadError Bytes
  | _, [], input => .ok input
  | [], .array :: _, _ => .error .endInArray
  | [], .object :: _, _ => .error .endInObject
  | _ :: bound, .array :: stack, input =>
    match skipSpace input with
    | [] => .error .endInArray
    | b :: rest =>
      if b = comma then skipFrom bound (.array :: stack) rest
      else if b = closeBracket then skipAfter bound stack rest
      else .error .expectedArrayEnd
  | _ :: bound, .object :: stack, input =>
    match skipSpace input with
    | [] => .error .endInObject
    | b :: rest =>
      if b = comma then do
        let rest ← skipName rest
        skipFrom bound (.object :: stack) rest
      else if b = closeBrace then skipAfter bound stack rest
      else .error .expectedObjectEnd

end

/-- Pass over the value at the start of an input. -/
def skipValue (input : Bytes) : Except ReadError Bytes := skipFrom input [] input

end DurableKV.Json
