import DurableKV.Json.Printer

/-!
# Replies

The answer to one request, written as one line: an object with a status and either data or a code
and a message, the fields of every object in the order of their names.
-/

namespace DurableKV

open Json

/-- The answer to one request. -/
inductive Reply where
  /-- The request was done, and this is its result. -/
  | ok (data : Value)
  /-- The request was not done. -/
  | error (code message : String)
  deriving Repr

namespace Reply

/-- The JSON form of a reply. -/
def toValue : Reply → Value
  | ok data => .object [("status", .string "ok"), ("data", data)]
  | error code message =>
    .object [("status", .string "error"), ("code", .string code), ("message", .string message)]

/-- A reply as a line, without its newline. -/
def text (r : Reply) : String := r.toValue.canonical.text

/-- A reply as a line. -/
def line (r : Reply) : String := r.text ++ "\n"

end Reply

end DurableKV
