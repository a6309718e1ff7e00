import DurableKV.Json.Reading

/-!
# Outcomes

What applying an entry came to, with the JSON and the message form of each outcome.
-/

namespace DurableKV

open Json

/-- A key and the version that a write gave it. -/
structure KeyVersion where
  /-- The key that was written. -/
  key : String
  /-- Its version after the write. -/
  version : UInt64
  deriving DecidableEq, Repr

/-- An observation that no longer holds. -/
structure Conflict where
  /-- The key that was observed. -/
  key : String
  /-- The version at which it was observed. -/
  expected : UInt64
  /-- The version that it has. -/
  actual : UInt64
  deriving DecidableEq, Repr

/-- What applying an entry came to. -/
inductive Outcome where
  /-- A key was set and has this version. -/
  | set (key : String) (version : UInt64)
  /-- A key was deleted. -/
  | deleted (key : String)
  /-- A transaction committed; its writes gave these versions, in order. -/
  | committed (versions : List KeyVersion)
  /-- A transaction was refused and changed nothing. -/
  | conflict (c : Conflict)
  /-- A foreign entry was passed over. -/
  | ignored (op : String)
  deriving DecidableEq, Repr

namespace KeyVersion

/-- The JSON form of a key and its version. -/
def toValue (k : KeyVersion) : Value :=
  .object [("key", .string k.key), ("version", .ofWord k.version)]

/-- How a key and its version are read. -/
def reading : Reading KeyVersion :=
  (Fields.cons "key" .text none <| .cons "version" .word64 none .nil).record "struct KeyVersion"
    |>.map fun (key, version, ()) => ⟨key, version⟩

/-- A key and its version as messages show them. -/
def shown (k : KeyVersion) : String :=
  "KeyVersion \x7b key: " ++ Text.quoted k.key ++ ", version: " ++ Nat.repr k.version.toNat ++
    " \x7d"

end KeyVersion

namespace Conflict

/-- The fields of a conflict. -/
def fields (c : Conflict) : List (String × Value) :=
  [("key", .string c.key), ("expected", .ofWord c.expected), ("actual", .ofWord c.actual)]

/-- The JSON form of a conflict. -/
def toValue (c : Conflict) : Value := .object c.fields

/-- How a conflict is read. -/
def reading : Reading Conflict :=
  (Fields.cons "key" .text none <| .cons "expected" .word64 none <|
      .cons "actual" .word64 none .nil).record "struct VersionConflict"
    |>.map fun (key, expected, actual, ()) => ⟨key, expected, actual⟩

/-- The wording of a conflict. -/
def message (c : Conflict) : String :=
  "key '" ++ c.key ++ "' changed since it was read: observed version " ++
    Nat.repr c.expected.toNat ++ ", current version " ++ Nat.repr c.actual.toNat

/-- A conflict as messages show it. -/
def shown (c : Conflict) : String :=
  "VersionConflict \x7b key: " ++ Text.quoted c.key ++ ", expected: " ++
    Nat.repr c.expected.toNat ++ ", actual: " ++ Nat.repr c.actual.toNat ++ " \x7d"

end Conflict

namespace Outcome

/-- Did the entry leave the store as it was? -/
def isNoop : Outcome → Bool
  | conflict _ | ignored _ => true
  | _ => false

/-- The JSON form of an outcome: its kind, then what belongs to it. -/
def toValue : Outcome → Value
  | set key version =>
    .object [("outcome", .string "set"), ("key", .string key), ("version", .ofWord version)]
  | deleted key => .object [("outcome", .string "deleted"), ("key", .string key)]
  | committed versions =>
    .object [("outcome", .string "committed"),
      ("versions", .array (versions.map KeyVersion.toValue))]
  | conflict c => .object (("outcome", .string "conflict") :: c.fields)
  | ignored op => .object [("outcome", .string "ignored"), ("op", .string op)]

/-- An outcome as messages show it. -/
def shown : Outcome → String
  | set key version =>
    "Set \x7b key: " ++ Text.quoted key ++ ", version: " ++ Nat.repr version.toNat ++ " \x7d"
  | deleted key => "Deleted \x7b key: " ++ Text.quoted key ++ " \x7d"
  | committed versions =>
    "Committed \x7b versions: [" ++ String.intercalate ", " (versions.map KeyVersion.shown) ++
      "] \x7d"
  | conflict c => "Conflict(" ++ c.shown ++ ")"
  | ignored op => "Ignored \x7b op: " ++ Text.quoted op ++ " \x7d"

end Outcome

end DurableKV
