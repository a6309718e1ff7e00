import DurableKV.Json.Scalar

/-!
# Reading values

`Value.read` reads a whole input as one value. The reader is a recursive descent over the rest of
the input, with the input as its bound; `room` is the number of arrays and objects that may still be
opened. `nextItem` and `nextField` decide what stands where an item or a field may begin; every
reader of arrays and objects goes through them.
-/

namespace DurableKV.Json

/-- How many arrays and objects may be open at once. -/
def nestingLimit : Nat := 127

/-- What stands where an item or a field may begin. -/
inductive Upcoming where
  /-- Another one, which begins here. -/
  | more (input : Bytes)
  /-- The closing bracket or brace; the rest follows it. -/
  | done (rest : Bytes)
  deriving DecidableEq, Repr

/-- Where the next item of an array begins. -/
def nextItem (first : Bool) (input : Bytes) : Except ReadError Upcoming :=
  match skipSpace input with
  | [] => .error .endInArray
  | b :: rest =>
    if b = closeBracket then .ok (.done rest)
    else if first then .ok (.more (b :: rest))
    else if b = comma then
      match skipSpace rest with
      | [] => .error .endInValue
      | c :: rest => if c = closeBracket then .error .trailingComma else .ok (.more (c :: rest))
    else .error .expectedArrayEnd

/-- Where the name of the next field of an object begins, after its opening quote. -/
def nextField (first : Bool) (input : Bytes) : Except ReadError Upcoming :=
  match skipSpace input with
  | [] => .error .endInObject
  | b :: rest =>
    if b = closeBrace then .ok (.done rest)
    else if first then
      if b = quote then .ok (.more rest) else .error .nameNotText
    else if b = comma then
      match skipSpace rest with
      | [] => .error .endInValue
      | c :: rest =>
        if c = quote then .ok (.more rest)
        else if c = closeBrace then .error .trailingComma
        else .error .nameNotText
    else .error .expectedObjectEnd

/-- The colon between a name and its value. -/
def readColon (input : Bytes) : Except ReadError Bytes :=
  match skipSpace input with
  | [] => .error .endInObject
  | b :: rest => if b = colon then .ok rest else .error .expectedColon

/-- One array or object more, if there is room. -/
def openNested (room : Nat) : Except ReadError Nat :=
  match room with
  | 0 => .error .nestingLimit
  | room + 1 => .ok room

mutual

/-- A value at the start of the input. -/
def readValue : (bound : Bytes) → Nat → Bytes → Except ReadError (Value × Bytes)
  | [], _, _ => .error .endInValue
  | _ :: bound, room, input =>
    match skipSpace input with
    | [] => .error .endInValue
    | b :: rest =>
      if b = quote then do
        let (s, rest) ← readText rest
        .ok (.string s, rest)
      else if b = openBracket then do
        let room ← openNested room
        match ← nextItem true rest with
        | .done rest => .ok (.array [], rest)
        | .more input => do
          let (v, rest) ← readValue bound room input
          let (vs, rest) ← readItems bound room rest
          .ok (.array (v :: vs), rest)
      else if b = openBrace then do
        let room ← openNested room
        match ← nextField true rest with
        | .done rest => .ok (.object [], rest)
        | .more input => do
          let (name, rest) ← readText input
          let rest ← readColon rest
          let (v, rest) ← readValue bound room rest
          let (fs, rest) ← readFields bound room rest
          .ok (.object ((name, v) :: fs), rest)
      else if b = minus ∨ isDigit b then do
        let (n, rest) ← readNumber (b :: rest)
        .ok (.number n, rest)
      else if b = 0x6E then do
        let rest ← readWord nullTail rest
        .ok (.null, rest)
      else if b = 0x74 then do
        let rest ← readWord trueTail rest
        .ok (.bool true, rest)
      else if b = 0x66 then do
        let rest ← readWord falseTail rest
        .ok (.bool false, rest)
      else .error .expectedValue

/-- The items of an array after an item, up to its closing bracket. -/
def readItems : (bound : Bytes) → Nat → Bytes → Except ReadError (List Value × Bytes)
  | [], _, _ => .error .endInArray
  | _ :: bound, room, input => do
    match ← nextItem false input with
    | .done rest => .ok ([], rest)
    | .more input => do
      let (v, rest) ← readValue bound room input
      let (vs, rest) ← readItems bound room rest
      .ok (v :: vs, rest)

/-- The fields of an object after a field, up to its closing brace. -/
def readFields : (bound : Bytes) → Nat → Bytes → Except ReadError (List (String × Value) × Bytes)
  | [], _, _ => .error .endInObject
  | _ :: bound, room, input => do
    match ← nextField false input with
    | .done rest => .ok ([], rest)
    | .more input => do
      let (name, rest) ← readText input
      let rest ← readColon rest
      let (v, rest) ← readValue bound room rest
      let (fs, rest) ← readFields bound room rest
      .ok ((name, v) :: fs, rest)

end

/-- The value at the start of an input, with the rest after it. -/
def Value.readPrefix (room : Nat) (input : Bytes) : Except ReadError (Value × Bytes) :=
  readValue input room input

/-- Nothing but blanks is left of the input. -/
def atEnd (rest : Bytes) : Except ReadError Unit :=
  if skipSpace rest = [] then .ok () else .error .trailingCharacters

/-- A whole input as one value. -/
def Value.read (input : Bytes) : Except ReadError Value := do
  let (v, rest) ← Value.readPrefix nestingLimit input
  atEnd rest
  .ok v

end DurableKV.Json
