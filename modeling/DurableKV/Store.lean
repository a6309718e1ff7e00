import DurableKV.Command
import DurableKV.Outcome

/-!
# The versioned store

Every key that is present has a value and a version. Setting a key raises its version by one, a key
that is absent counting as version 0, so a present key has a version of at least 1 until the 64-bit
counter wraps. Deleting a key forgets its version too.

A transaction commits in two passes: `Store.conflict?` checks all observations against the store as
it is, and only if all hold `Store.writeAll` makes the assignments in order. `Store.dispatch`
applies a command and says what it came to. It is the only way in which commands change a store,
live or in recovery.
-/

namespace DurableKV

open Json

/-- A value with the version of its key. -/
structure Versioned where
  /-- The value. -/
  value : String
  /-- How often the key has been written since it was last absent. -/
  version : UInt64
  deriving DecidableEq, Repr

namespace Versioned

/-- The JSON form of a value and its version. -/
def toValue (v : Versioned) : Value :=
  .object [("value", .string v.value), ("version", .ofWord v.version)]

/-- How a value and its version are read. -/
def reading : Reading Versioned :=
  (Fields.cons "value" .text none <| .cons "version" .word64 none .nil).record
      "struct VersionedValue"
    |>.map fun (value, version, ()) => ⟨value, version⟩

end Versioned

/-- The keys that are present, with their values and versions. -/
abbrev Store := Table Versioned

namespace Store

/-- The version of a key, 0 if it is absent. -/
def version (s : Store) (k : String) : UInt64 :=
  match s.get? k with
  | some v => v.version
  | none => 0

/-- Set a key; the new version comes with the store. -/
def set (s : Store) (k v : String) : Store × UInt64 :=
  let n := s.version k + 1
  (s.insert k ⟨v, n⟩, n)

/-- The first observation that does not hold. -/
def conflict? (s : Store) : List Observation → Option Conflict
  | [] => none
  | o :: os =>
    if s.version o.key = o.version then s.conflict? os
    else some ⟨o.key, o.version, s.version o.key⟩

/-- Make assignments in order; the versions that they gave come with the store. -/
def writeAll (s : Store) : List Assignment → Store × List KeyVersion
  | [] => (s, [])
  | a :: as =>
    let (s, n) := s.set a.key a.value
    let (s, versions) := s.writeAll as
    (s, ⟨a.key, n⟩ :: versions)

/-- Make all assignments if every observation holds. -/
def commit (s : Store) (reads : List Observation) (writes : List Assignment) :
    Except Conflict (Store × List KeyVersion) :=
  match s.conflict? reads with
  | some c => .error c
  | none => .ok (s.writeAll writes)

/-- Apply a command. -/
def dispatch (s : Store) : Command → Store × Outcome
  | .set k v =>
    let (s, n) := s.set k v
    (s, .set k n)
  | .delete k => (s.erase k, .deleted k)
  | .commit reads writes =>
    match s.commit reads writes with
    | .ok (s, versions) => (s, .committed versions)
    | .error c => (s, .conflict c)

/-- The JSON form of a store: its keys in order. -/
def toValue (s : Store) : Value := .ofTable Versioned.toValue s

end Store

end DurableKV
