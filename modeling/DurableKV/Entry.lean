import DurableKV.Command

/-!
# Log entries

An entry is what is handed to the log: a command, or an object with an operation that this version
of the program does not know. Such a foreign entry is kept as it is, so that every position of the
log has its entry, and is passed over when entries are applied.

`Entry.decode` reads an entry from bytes and `Entry.bytes` is its one written form. Whether an entry
can be read depends on its `op` first: an entry without one is refused, one with an unknown one is
foreign whatever else it holds, and one with a known one must have all fields of commands in the
right kind, including those that its operation does not use.
-/

namespace DurableKV

open Json

/-- An entry of the log. -/
inductive Entry where
  /-- A command. -/
  | command (c : Command)
  /-- An object with an unknown operation, with its fields in the order of their names. -/
  | foreign (op : String) (raw : Value)
  deriving Repr

/-- Why bytes are no entry. -/
inductive EntryError where
  /-- They are no JSON, or a field is of the wrong kind. -/
  | malformed (cause : ReadError)
  /-- There is no operation name. -/
  | missingOp
  /-- A field that the operation needs is missing. -/
  | missingField (op field : String)
  /-- The operation is unknown where only commands may stand. -/
  | unknownOp (op : String)
  deriving DecidableEq, Repr

namespace EntryError

/-- The wording of a failure. -/
def message : EntryError → String
  | malformed cause => "malformed command: " ++ cause.message
  | missingOp => "command has no op"
  | missingField op field => op ++ " command is missing required field '" ++ field ++ "'"
  | unknownOp op => "unrecognized command op '" ++ op ++ "'"

end EntryError

/-- The fields that commands are written with. -/
structure CommandForm where
  /-- The operation name. -/
  op : String
  /-- The key of a set or a delete. -/
  key : Option String
  /-- The value of a set. -/
  value : Option String
  /-- The assignments of a commit. -/
  writes : List Assignment
  /-- The observations of a commit. -/
  reads : List Observation
  deriving DecidableEq, Repr

namespace CommandForm

/-- The fields in their declared order. All but the operation name may be missing. -/
def fields : Fields
    [String, Option String, Option String, List Assignment, List Observation] :=
  .cons "op" .text none <|
  .cons "key" (.optional .text) (some none) <|
  .cons "value" (.optional .text) (some none) <|
  .cons "write_set" (.list Assignment.reading) (some []) <|
  .cons "read_set" (.list Observation.reading) (some []) .nil

/-- How the fields of a command are read. -/
def reading : Reading CommandForm :=
  fields.record "struct WireCommand"
    |>.map fun (op, key, value, writes, reads, ()) => ⟨op, key, value, writes, reads⟩

/-- A field that the operation cannot do without. -/
def need (op field : String) : Option String → Except EntryError String
  | some s => .ok s
  | none => .error (.missingField op field)

/-- The command that the fields describe. A set without a value sets the empty one. -/
def toCommand (f : CommandForm) : Except EntryError Command :=
  if f.op = Command.setName then do
    let key ← need f.op "key" f.key
    .ok (.set key (f.value.getD ""))
  else if f.op = Command.deleteName then do
    let key ← need f.op "key" f.key
    .ok (.delete key)
  else if f.op = Command.commitName then .ok (.commit f.reads f.writes)
  else .error (.unknownOp f.op)

end CommandForm

namespace Command

/-- Is this the operation name of a command? -/
def isKnownOp (op : String) : Bool :=
  op == Command.setName || op == Command.deleteName || op == Command.commitName

/-- How a command is read where only commands may stand. -/
def reading : Reading Command :=
  CommandForm.reading.refine fun f => f.toCommand.mapError fun e => .refused e.message

end Command

namespace Entry

/-- The entry that a value with sorted fields describes. -/
def ofValue (raw : Value) : Except EntryError Entry :=
  match (raw.get? "op").bind Value.text? with
  | none => .error .missingOp
  | some op =>
    if Command.isKnownOp op then do
      let form ← (CommandForm.reading.fromValue raw).mapError .malformed
      let c ← form.toCommand
      .ok (.command c)
    else .ok (.foreign op raw)

/-- The entry that bytes describe. -/
def decode (input : Bytes) : Except EntryError Entry := do
  let raw ← (Value.read input).mapError .malformed
  ofValue raw.canonical

/-- The JSON form of an entry. -/
def toValue : Entry → Value
  | command c => c.toValue
  | foreign _ raw => raw

/-- The one written form of an entry. -/
def bytes (e : Entry) : Bytes := e.toValue.bytes

/-- The operation name of an entry. -/
def opName : Entry → String
  | command c => c.opName
  | foreign op _ => op

/-- The command, if the entry is one. -/
def command? : Entry → Option Command
  | command c => some c
  | foreign .. => none

/-- How an entry is read inside a record: the whole value first, then what it describes. -/
def reading : Reading Entry :=
  Reading.value.refine fun raw => (ofValue raw).mapError fun e => .refused e.message

end Entry

/-- The written form of a command as an entry. -/
def Command.encode (c : Command) : Bytes := (Entry.command c).bytes

end DurableKV
