import DurableKV.Json.Skip

/-!
# Reading records

A `Reading` says how one kind of thing is read, in two ways: while a text is being read, and from a
value that has been read before. The two differ in what they can complain about. From text the first
fault from left to right counts, whether it is one of JSON or of kind; from a value only the kind
can be wrong.

A record is described by its `Fields`: a name, a reading and perhaps a default for every field, in
the order in which the record declares them. A record is written as an object, whose unknown fields
are passed over, or as an array of its fields in the declared order, where fields with a default may
be left off at the end.
-/

namespace DurableKV.Json

/-- How one kind of thing is read. -/
structure Reading (α : Type) where
  /-- From the start of an input, with room for so many open arrays and objects. -/
  fromText : Nat → Bytes → Except ReadError (α × Bytes)
  /-- From a value. -/
  fromValue : Value → Except ReadError α

namespace Reading

/-- Why the input, which does not start with what is wanted, is refused: for what stands there, if
that can be read. -/
def wrongKindAt (wanted : String) : Bytes → ReadError
  | [] => .endInValue
  | b :: rest =>
    let found (word : Bytes) (f : Found) : ReadError :=
      match readWord word rest with
      | .ok _ => .wrongKind f wanted
      | .error e => e
    if b = quote then
      match readText rest with
      | .ok (s, _) => .wrongKind (.string s) wanted
      | .error e => e
    else if b = openBracket then .wrongKind .sequence wanted
    else if b = openBrace then .wrongKind .map wanted
    else if b = minus ∨ isDigit b then
      match readNumber (b :: rest) with
      | .ok (n, _) => .wrongKind (.number n) wanted
      | .error e => e
    else if b = 0x6E then found nullTail .null
    else if b = 0x74 then found trueTail (.bool true)
    else if b = 0x66 then found falseTail (.bool false)
    else .expectedValue

/-- Any value. Its fields are in the order of their names. -/
def value : Reading Value where
  fromText room input := do
    let (v, rest) ← Value.readPrefix room input
    .ok (v.canonical, rest)
  fromValue v := .ok v.canonical

/-- A text. -/
def textNamed (wanted : String) : Reading String where
  fromText _ input :=
    match skipSpace input with
    | quote :: rest => readText rest
    | input => .error (wrongKindAt wanted input)
  fromValue
    | .string s => .ok s
    | v => .error (.wrongKind v.found wanted)

/-- A text. -/
def text : Reading String := textNamed "a string"

/-- The word for numbers of so many bits. -/
def wordName (bits : Nat) : String := "u" ++ Nat.repr bits

/-- A number as one of so many bits. -/
def natOfNumber (bits : Nat) (n : Number) : Except ReadError Nat :=
  match n with
  | .int i =>
    if 0 ≤ i ∧ i < Nat.pow 2 bits then .ok i.toNat
    else .error (.wrongRange (.number n) (wordName bits))
  | .float _ => .error (.wrongKind (.number n) (wordName bits))

/-- A natural number of so many bits. -/
def nat (bits : Nat) : Reading Nat where
  fromText _ input :=
    match skipSpace input with
    | [] => .error .endInValue
    | b :: rest =>
      if b = minus ∨ isDigit b then do
        let (n, rest) ← readNumber (b :: rest)
        let k ← natOfNumber bits n
        .ok (k, rest)
      else .error (wrongKindAt (wordName bits) (b :: rest))
  fromValue
    | .number n => natOfNumber bits n
    | v => .error (.wrongKind v.found (wordName bits))

/-- What is read, changed by a function. -/
def map {α β : Type} (f : α → β) (r : Reading α) : Reading β where
  fromText room input := do
    let (x, rest) ← r.fromText room input
    .ok (f x, rest)
  fromValue v := (r.fromValue v).map f

/-- What is read, or the reason for which it is refused. -/
def refine {α β : Type} (f : α → Except ReadError β) (r : Reading α) : Reading β where
  fromText room input := do
    let (x, rest) ← r.fromText room input
    let y ← f x
    .ok (y, rest)
  fromValue v := r.fromValue v >>= f

/-- A number of 64 bits. -/
def word64 : Reading UInt64 := (nat 64).map UInt64.ofNat

/-- A number of 32 bits. -/
def word32 : Reading UInt32 := (nat 32).map UInt32.ofNat

/-- A number of 16 bits. -/
def word16 : Reading UInt16 := (nat 16).map UInt16.ofNat

/-- A thing, or `null` for none. -/
def optional {α : Type} (r : Reading α) : Reading (Option α) where
  fromText room input :=
    match skipSpace input with
    | 0x6E :: rest => do
      let rest ← readWord nullTail rest
      .ok (none, rest)
    | input => do
      let (x, rest) ← r.fromText room input
      .ok (some x, rest)
  fromValue
    | .null => .ok none
    | v => (r.fromValue v).map some

/-- The items of a list up to its closing bracket. -/
def itemsFromText {α : Type} (r : Reading α) (room : Nat) :
    (bound : Bytes) → Bool → Bytes → Except ReadError (List α × Bytes)
  | [], _, _ => .error .endInArray
  | _ :: bound, first, input => do
    match ← nextItem first input with
    | .done rest => .ok ([], rest)
    | .more input => do
      let (x, rest) ← r.fromText room input
      let (xs, rest) ← itemsFromText r room bound false rest
      .ok (x :: xs, rest)

/-- A list of things of one kind. -/
def list {α : Type} (r : Reading α) : Reading (List α) where
  fromText room input :=
    match skipSpace input with
    | openBracket :: rest => do
      let room ← openNested room
      itemsFromText r room rest true rest
    | input => .error (wrongKindAt "a sequence" input)
  fromValue
    | .array items => items.mapM r.fromValue
    | v => .error (.wrongKind v.found "a sequence")

/-- A whole input as one thing. -/
def run {α : Type} (r : Reading α) (input : Bytes) : Except ReadError α := do
  let (x, rest) ← r.fromText nestingLimit input
  atEnd rest
  .ok x

end Reading

/-! ## Records -/

/-- The fields of a record in their declared order, by the types of what they hold. -/
inductive Fields : List Type → Type 1 where
  /-- No field. -/
  | nil : Fields []
  /-- A field, then others. A field without a default must be present. -/
  | cons {α : Type} {αs : List Type} (name : String) (reading : Reading α) (default : Option α)
      (others : Fields αs) : Fields (α :: αs)

/-- What has been read of the fields so far. -/
def Draft : List Type → Type
  | [] => Unit
  | α :: αs => Option α × Draft αs

/-- What all fields hold. -/
def Contents : List Type → Type
  | [] => Unit
  | α :: αs => α × Contents αs

namespace Fields

/-- The number of fields. -/
def count : {αs : List Type} → Fields αs → Nat
  | _, nil => 0
  | _, cons _ _ _ others => others.count + 1

/-- Nothing has been read yet. -/
def blank : {αs : List Type} → Fields αs → Draft αs
  | _, nil => ()
  | _, cons _ _ _ others => (none, others.blank)

/-- Read the value of the field with this name; none if there is no such field. `get` says how the
value is reached and read; a field that has been read before is refused without it. -/
def readNamed? {ι ο : Type} (get : {α : Type} → Reading α → ι → Except ReadError (α × ο))
    (name : String) (input : ι) :
    {αs : List Type} → Fields αs → Draft αs → Option (Except ReadError (Draft αs × ο))
  | _, nil, _ => none
  | _, cons fieldName reading _ others, (held, draft) =>
    if fieldName = name then
      some <|
        if held.isSome then .error (.duplicateField name)
        else do
          let (x, rest) ← get reading input
          .ok ((some x, draft), rest)
    else
      (others.readNamed? get name input draft).map fun result => do
        let (draft, rest) ← result
        .ok ((held, draft), rest)

/-- What the fields hold once the record has ended: what was read, or the default. The first field
in the declared order that has neither is missing. -/
def finish : {αs : List Type} → Fields αs → Draft αs → Except ReadError (Contents αs)
  | _, nil, _ => .ok ()
  | _, cons name _ default others, (held, draft) => do
    let x ← match held, default with
      | some x, _ => .ok x
      | none, some x => .ok x
      | none, none => .error (.missingField name)
    let xs ← others.finish draft
    .ok (x, xs)

/-- How the length of a record is described: `1 element`, `2 elements`. -/
def elements (n : Nat) : String := Nat.repr n ++ (if n = 1 then " element" else " elements")

/-! ### From text -/

/-- The fields of an object up to its closing brace. -/
def objectFromText {αs : List Type} (fields : Fields αs) (room : Nat) :
    (bound : Bytes) → Bool → Draft αs → Bytes → Except ReadError (Draft αs × Bytes)
  | [], _, _, _ => .error .endInObject
  | _ :: bound, first, draft, input => do
    match ← nextField first input with
    | .done rest => .ok (draft, rest)
    | .more input => do
      let (name, rest) ← readText input
      let get {α : Type} (r : Reading α) (input : Bytes) : Except ReadError (α × Bytes) := do
        let input ← readColon input
        r.fromText room input
      match fields.readNamed? get name rest draft with
      | some result => do
        let (draft, rest) ← result
        objectFromText fields room bound false draft rest
      | none => do
        let rest ← readColon rest
        let rest ← skipValue rest
        objectFromText fields room bound false draft rest

/-- The defaults of all fields, from the given position in an array on. -/
def defaults (wanted : String) : {αs : List Type} → Fields αs → Nat → Except ReadError (Contents αs)
  | _, nil, _ => .ok ()
  | _, cons _ _ default others, position => do
    let x ← match default with
      | some x => .ok x
      | none => .error (.wrongLength position wanted)
    let xs ← others.defaults wanted (position + 1)
    .ok (x, xs)

/-- The closing bracket after the last field of a record. -/
def closeArray (input : Bytes) : Except ReadError Bytes :=
  match skipSpace input with
  | [] => .error .endInArray
  | b :: rest =>
    if b = closeBracket then .ok rest
    else if b = comma then
      match skipSpace rest with
      | c :: _ => .error (if c = closeBracket then .trailingComma else .trailingCharacters)
      | [] => .error .trailingCharacters
    else .error .trailingCharacters

/-- The elements of a record that is written as an array, up to its closing bracket. -/
def arrayFromText (wanted : String) (room : Nat) :
    {αs : List Type} → Fields αs → Nat → Bytes → Except ReadError (Contents αs × Bytes)
  | _, nil, _, input => do
    let rest ← closeArray input
    .ok ((), rest)
  | _, cons name reading default others, position, input => do
    match ← nextItem (position == 0) input with
    | .done rest => do
      let xs ← (cons name reading default others).defaults wanted position
      .ok (xs, rest)
    | .more input => do
      let (x, rest) ← reading.fromText room input
      let (xs, rest) ← others.arrayFromText wanted room (position + 1) rest
      .ok ((x, xs), rest)

/-! ### From a value -/

/-- The fields of an object that has been read. -/
def objectFromValue {αs : List Type} (fields : Fields αs) :
    Draft αs → List (String × Value) → Except ReadError (Draft αs)
  | draft, [] => .ok draft
  | draft, (name, v) :: rest =>
    let get {α : Type} (r : Reading α) (v : Value) : Except ReadError (α × Unit) := do
      let x ← r.fromValue v
      .ok (x, ())
    match fields.readNamed? get name v draft with
    | some result => do
      let (draft, _) ← result
      objectFromValue fields draft rest
    | none => objectFromValue fields draft rest

/-- The elements of a record that is written as an array and has been read; what is left over comes
with them. -/
def arrayFromValue (wanted : String) :
    {αs : List Type} → Fields αs → Nat → List Value → Except ReadError (Contents αs × List Value)
  | _, nil, _, items => .ok ((), items)
  | _, cons name reading default others, position, items =>
    match items with
    | [] => do
      let xs ← (cons name reading default others).defaults wanted position
      .ok (xs, [])
    | v :: items => do
      let x ← reading.fromValue v
      let (xs, items) ← others.arrayFromValue wanted (position + 1) items
      .ok ((x, xs), items)

/-- A record that has been read; `surplus` describes the elements that an array may have at most. -/
def recordFromValue {αs : List Type} (title surplus : String) (fields : Fields αs) :
    Value → Except ReadError (Contents αs)
  | .object members => do
    let draft ← fields.objectFromValue fields.blank members
    fields.finish draft
  | .array items => do
    let (xs, left) ← fields.arrayFromValue (title ++ " with " ++ elements fields.count) 0 items
    if left.isEmpty then .ok xs else .error (.wrongLength items.length surplus)
  | v => .error (.wrongKind v.found title)

/-- The reading of a record with these fields. -/
def record {αs : List Type} (title : String) (fields : Fields αs) : Reading (Contents αs) where
  fromText room input :=
    match skipSpace input with
    | openBracket :: rest => do
      let room ← openNested room
      fields.arrayFromText (title ++ " with " ++ elements fields.count) room 0 rest
    | openBrace :: rest => do
      let room ← openNested room
      let (draft, rest) ← fields.objectFromText room rest true fields.blank rest
      let xs ← fields.finish draft
      .ok (xs, rest)
    | input => .error (Reading.wrongKindAt title input)
  fromValue := recordFromValue title "fewer elements in array" fields

end Fields

end DurableKV.Json
