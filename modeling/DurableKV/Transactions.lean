import DurableKV.Command

/-!
# Open transactions

A transaction is open from the moment it begins until it is cleared. Meanwhile it stages what it
observes and what it will write, in order; nothing of it is visible elsewhere. Operations on an id
that is not open are refused, except clearing, which does nothing then.
-/

namespace DurableKV

/-- What an open transaction has staged. -/
structure Transaction where
  /-- What it observed, first observation first. -/
  reads : List Observation := []
  /-- What it will write, first assignment first. -/
  writes : List Assignment := []
  deriving DecidableEq, Repr

/-- The command that commits a transaction. -/
def Transaction.toCommand (t : Transaction) : Command := .commit t.reads t.writes

/-- A transaction id that is not open. -/
structure UnknownTransaction where
  /-- The id. -/
  id : String
  deriving DecidableEq, Repr

/-- The wording of the failure. -/
def UnknownTransaction.message (e : UnknownTransaction) : String :=
  "Transaction not found: " ++ e.id

/-- The code of the failure. -/
def UnknownTransaction.code (_ : UnknownTransaction) : String := "HELIOS_TX_NOT_FOUND"

/-- The open transactions, by their ids. -/
abbrev Transactions := Table Transaction

namespace Transactions

/-- Open a transaction under a fresh id. -/
def begin (t : Transactions) (id : String) : Transactions := t.insert id {}

/-- Change what an open transaction has staged. -/
def stage (t : Transactions) (id : String) (f : Transaction → Transaction) :
    Except UnknownTransaction Transactions :=
  match t.get? id with
  | some x => .ok (t.insert id (f x))
  | none => .error ⟨id⟩

/-- Stage an observation. -/
def stageRead (t : Transactions) (id key : String) (version : UInt64) :
    Except UnknownTransaction Transactions :=
  t.stage id fun x => { x with reads := x.reads ++ [⟨key, version⟩] }

/-- Stage an assignment. -/
def stageWrite (t : Transactions) (id key value : String) :
    Except UnknownTransaction Transactions :=
  t.stage id fun x => { x with writes := x.writes ++ [⟨key, value⟩] }

/-- Close a transaction, if it is open. -/
def clear (t : Transactions) (id : String) : Transactions := t.erase id

end Transactions

end DurableKV
