import DurableKV.Decimal.Shortest
import DurableKV.Table

/-!
# JSON values

A `Value` is a JSON text as it was written: the fields of an object stand in the order of the text,
and a name may occur twice. `Value.canonical` is the value with the fields of every object in the
order of their names, of two fields of one name the later one. Numbers are integers or finite
binary64 numbers; the two kinds never stand for each other.
-/

namespace DurableKV.Json

/-- A JSON number. -/
inductive Number where
  /-- A number without fraction and exponent; the reader makes only those from `-2 ^ 63` to
  `2 ^ 64 - 1`. -/
  | int (i : Int)
  /-- Any other number. -/
  | float (x : Binary64)
  deriving DecidableEq, Repr

/-- A JSON value. -/
inductive Value where
  /-- The value `null`. -/
  | null
  /-- A truth value. -/
  | bool (b : Bool)
  /-- A number. -/
  | number (n : Number)
  /-- A text. -/
  | string (s : String)
  /-- A list of values. -/
  | array (items : List Value)
  /-- Named values, in the order in which they were written. -/
  | object (fields : List (String × Value))
  deriving Repr, BEq, Inhabited

namespace Value

/-- A natural number as a value. -/
def ofNat (n : Nat) : Value := .number (.int n)

/-- A 64-bit number as a value. -/
def ofWord (n : UInt64) : Value := .ofNat n.toNat

/-- A text or `null`. -/
def ofText? : Option String → Value
  | none => .null
  | some s => .string s

/-- The fields of a table, in the order of their names. -/
def ofTable {β : Type} (f : β → Value) (t : Table β) : Value :=
  .object (t.entries.map fun p => (p.1, f p.2))

/-- The text, if the value is one. -/
def text? : Value → Option String
  | .string s => some s
  | _ => none

/-- The first field of a name, if the value is an object that has one. -/
def get? (name : String) : Value → Option Value
  | .object fields => Table.lookupIn name fields
  | _ => none

mutual

/-- The value with the fields of every object in the order of their names, each name once; of two
fields of one name the later one stays. -/
def canonical : Value → Value
  | .null => .null
  | .bool b => .bool b
  | .number n => .number n
  | .string s => .string s
  | .array items => .array (canonicalItems items)
  | .object fields => .object (Table.ofList (canonicalFields fields)).entries

/-- `canonical` on every item. -/
def canonicalItems : List Value → List Value
  | [] => []
  | v :: vs => v.canonical :: canonicalItems vs

/-- `canonical` on the value of every field. -/
def canonicalFields : List (String × Value) → List (String × Value)
  | [] => []
  | (k, v) :: fs => (k, v.canonical) :: canonicalFields fs

end

end Value

end DurableKV.Json
