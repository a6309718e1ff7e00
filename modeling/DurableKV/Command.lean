import DurableKV.Json.Reading

/-!
# Commands

What a client can ask of the store: set a key, delete a key, or commit a transaction. A transaction
commits with what it observed and what it writes. This module also holds the JSON forms of the two
lists of a transaction.
-/

namespace DurableKV

open Json

/-- A key and the version at which a transaction saw it; version 0 stands for an absent key. -/
structure Observation where
  /-- The key that was read. -/
  key : String
  /-- Its version at that time. -/
  version : UInt64
  deriving DecidableEq, Repr

/-- A key and the value that a transaction gives it. -/
structure Assignment where
  /-- The key that is written. -/
  key : String
  /-- Its new value. -/
  value : String
  deriving DecidableEq, Repr

/-- A change that can be asked of the store. -/
inductive Command where
  /-- Give a key a value. -/
  | set (key value : String)
  /-- Forget a key. -/
  | delete (key : String)
  /-- Make all assignments if every observation still holds. -/
  | commit (reads : List Observation) (writes : List Assignment)
  deriving DecidableEq, Repr

namespace Observation

/-- The JSON form of an observation. -/
def toValue (o : Observation) : Value :=
  .object [("key", .string o.key), ("version", .ofWord o.version)]

/-- How an observation is read. -/
def reading : Reading Observation :=
  (Fields.cons "key" .text none <| .cons "version" .word64 none .nil).record "struct ReadOp"
    |>.map fun (key, version, ()) => ⟨key, version⟩

end Observation

namespace Assignment

/-- The JSON form of an assignment. -/
def toValue (a : Assignment) : Value := .object [("key", .string a.key), ("value", .string a.value)]

/-- How an assignment is read. -/
def reading : Reading Assignment :=
  (Fields.cons "key" .text none <| .cons "value" .text none .nil).record "struct WriteOp"
    |>.map fun (key, value, ()) => ⟨key, value⟩

end Assignment

namespace Command

/-- The operation name of setting a key. -/
def setName : String := "SET"

/-- The operation name of deleting a key. -/
def deleteName : String := "DELETE"

/-- The operation name of committing a transaction. -/
def commitName : String := "TX_COMMIT"

/-- The operation name of a command. -/
def opName : Command → String
  | set .. => setName
  | delete _ => deleteName
  | commit .. => commitName

/-- A list as a field, left out if it is empty. -/
def listField {α : Type} (name : String) (f : α → Value) (l : List α) : List (String × Value) :=
  if l.isEmpty then [] else [(name, .array (l.map f))]

/-- The JSON form of a command: its operation and the fields that belong to it. -/
def toValue : Command → Value
  | set key value =>
    .object [("op", .string setName), ("key", .string key), ("value", .string value)]
  | delete key => .object [("op", .string deleteName), ("key", .string key)]
  | commit reads writes =>
    .object (("op", .string commitName) ::
      (listField "write_set" Assignment.toValue writes ++
        listField "read_set" Observation.toValue reads))

end Command

end DurableKV
