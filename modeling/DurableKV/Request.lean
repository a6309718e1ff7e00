import DurableKV.Json.Reading

/-!
# Requests

What a client asks of a node: one JSON value per line, an object whose field `op` names the request
and whose other fields are its arguments, or an array of the name and the arguments in order.

An object is read to its end before its arguments are looked at, but its name is judged as soon as
it is met. A request with a known name passes over fields that it does not know.
-/

namespace DurableKV

open Json

/-- What a client asks of a node. -/
inductive Request where
  /-- The value of a key. -/
  | get (key : String)
  /-- Set a key. -/
  | set (key value : String)
  /-- Delete a key. -/
  | delete (key : String)
  /-- Begin a transaction. -/
  | begin
  /-- Read a key in a transaction. -/
  | txRead (id key : String)
  /-- Write a key in a transaction. -/
  | txWrite (id key value : String)
  /-- Commit a transaction. -/
  | txCommit (id : String)
  /-- Drop a transaction. -/
  | txAbort (id : String)
  /-- Add a voter. -/
  | join (nodeId address : String)
  /-- The state of the node. -/
  | status
  deriving DecidableEq, Repr

namespace Request

/-- The kinds of requests. -/
inductive Kind where
  /-- The kind of `Request.get`. -/
  | get
  /-- The kind of `Request.set`. -/
  | set
  /-- The kind of `Request.delete`. -/
  | delete
  /-- The kind of `Request.begin`. -/
  | begin
  /-- The kind of `Request.txRead`. -/
  | txRead
  /-- The kind of `Request.txWrite`. -/
  | txWrite
  /-- The kind of `Request.txCommit`. -/
  | txCommit
  /-- The kind of `Request.txAbort`. -/
  | txAbort
  /-- The kind of `Request.join`. -/
  | join
  /-- The kind of `Request.status`. -/
  | status
  deriving DecidableEq, Repr

namespace Kind

/-- All kinds, in the order in which they are listed to clients. -/
def all : List Kind :=
  [get, set, delete, begin, txRead, txWrite, txCommit, txAbort, join, status]

/-- The name by which clients ask for a kind. -/
def tag : Kind → String
  | get => "get"
  | set => "set"
  | delete => "delete"
  | begin => "begin"
  | txRead => "tx_read"
  | txWrite => "tx_write"
  | txCommit => "tx_commit"
  | txAbort => "tx_abort"
  | join => "join"
  | status => "status"

/-- The kind with a name. -/
def ofTag? (tag : String) : Option Kind := all.find? (·.tag == tag)

/-- The kind with a name, or the failure of an unknown one. -/
def ofTag (tag : String) : Except ReadError Kind :=
  match ofTag? tag with
  | some k => .ok k
  | none => .error (.unknownTag tag (all.map Kind.tag))

/-- How the name of a request is read. -/
def reading : Reading Kind := (Reading.textNamed "variant identifier").refine ofTag

/-- The names of the arguments of a kind. -/
def arguments : Kind → List String
  | get | delete => ["key"]
  | set => ["key", "value"]
  | begin | status => []
  | txRead => ["tx_id", "key"]
  | txWrite => ["tx_id", "key", "value"]
  | txCommit | txAbort => ["tx_id"]
  | join => ["node_id", "addr"]

/-- How failures call the arguments of a kind. -/
def title : Kind → String
  | get => "struct variant Request::Get"
  | set => "struct variant Request::Set"
  | delete => "struct variant Request::Delete"
  | begin => "unit variant Request::Begin"
  | txRead => "struct variant Request::TxRead"
  | txWrite => "struct variant Request::TxWrite"
  | txCommit => "struct variant Request::TxCommit"
  | txAbort => "struct variant Request::TxAbort"
  | join => "struct variant Request::Join"
  | status => "unit variant Request::Status"

/-- The field of a text that must be present. -/
def textField {αs : List Type} (name : String) (others : Fields αs) : Fields (String :: αs) :=
  .cons name .text none others

/-- The arguments of a request, read from what stands beside its name. -/
def argumentsFrom {αs : List Type} (k : Kind) (fields : Fields αs) (v : Value) :
    Except ReadError (Contents αs) :=
  fields.recordFromValue k.title (Fields.elements fields.count ++ " in sequence") v

/-- The request of a kind, with its arguments in what stands beside its name. -/
def request (k : Kind) (v : Value) : Except ReadError Request :=
  match k with
  | get => do
    let (key, ()) ← k.argumentsFrom (textField "key" .nil) v
    .ok (.get key)
  | set => do
    let (key, value, ()) ← k.argumentsFrom (textField "key" (textField "value" .nil)) v
    .ok (.set key value)
  | delete => do
    let (key, ()) ← k.argumentsFrom (textField "key" .nil) v
    .ok (.delete key)
  | begin => do
    let () ← k.argumentsFrom .nil v
    .ok .begin
  | txRead => do
    let (id, key, ()) ← k.argumentsFrom (textField "tx_id" (textField "key" .nil)) v
    .ok (.txRead id key)
  | txWrite => do
    let (id, key, value, ()) ←
      k.argumentsFrom (textField "tx_id" (textField "key" (textField "value" .nil))) v
    .ok (.txWrite id key value)
  | txCommit => do
    let (id, ()) ← k.argumentsFrom (textField "tx_id" .nil) v
    .ok (.txCommit id)
  | txAbort => do
    let (id, ()) ← k.argumentsFrom (textField "tx_id" .nil) v
    .ok (.txAbort id)
  | join => do
    let (nodeId, address, ()) ← k.argumentsFrom (textField "node_id" (textField "addr" .nil)) v
    .ok (.join nodeId address)
  | status => do
    let () ← k.argumentsFrom .nil v
    .ok .status

end Kind

/-! ## Reading requests -/

/-- The fields of a request up to its closing brace: the kind, once its name has been met, and the
fields beside it. -/
def readMembers (room : Nat) : (bound : Bytes) → Bool → Option Kind → Bytes →
    Except ReadError ((Option Kind × List (String × Value)) × Bytes)
  | [], _, _, _ => .error .endInObject
  | _ :: bound, first, kind, input => do
    match ← nextField first input with
    | .done rest => .ok ((kind, []), rest)
    | .more input => do
      let (name, rest) ← readText input
      if name = "op" then do
        if kind.isSome then .error (.duplicateField name)
        let rest ← readColon rest
        let (k, rest) ← Kind.reading.fromText room rest
        readMembers room bound false (some k) rest
      else do
        let rest ← readColon rest
        let (v, rest) ← Value.readPrefix room rest
        let ((kind, members), rest) ← readMembers room bound false kind rest
        .ok ((kind, (name, v) :: members), rest)

/-- The failure of a request without a name. -/
def untagged : ReadError := .missingField "op"

/-- A request at the start of an input: its kind and what stands beside its name. -/
def readTagged (room : Nat) (input : Bytes) : Except ReadError ((Kind × Value) × Bytes) :=
  match skipSpace input with
  | [] => .error .endInValue
  | openBrace :: rest => do
    let room ← openNested room
    let ((kind, members), rest) ← readMembers room rest true none rest
    match kind with
    | some k => .ok ((k, .object members), rest)
    | none => .error untagged
  | openBracket :: rest => do
    let room ← openNested room
    match ← nextItem true rest with
    | .done _ => .error untagged
    | .more rest => do
      let (k, rest) ← Kind.reading.fromText room rest
      let (items, rest) ← readItems rest room rest
      .ok ((k, .array items), rest)
  | input => .error (Reading.wrongKindAt "internally tagged enum Request" input)

/-- A whole line as a request. -/
def read (input : Bytes) : Except ReadError Request := do
  let ((k, v), rest) ← readTagged nestingLimit input
  let r ← k.request v
  atEnd rest
  .ok r

end Request

end DurableKV
