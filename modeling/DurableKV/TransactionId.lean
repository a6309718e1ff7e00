import DurableKV.Bytes

/-!
# Transaction ids

Ids have the form of random UUIDs: 122 bits in groups of hexadecimal digits, with the version and
variant bits set. A node draws its ids from a random start and counts up.
-/

namespace DurableKV.TransactionId

/-- The `width` lowest hexadecimal digits of a number. -/
def digits (n : Nat) : Nat → List Char
  | 0 => []
  | width + 1 => digits (n / 16) width ++ [Bytes.hexDigit (n % 16)]

/-- A number of 122 bits as the text of a UUID of version 4. -/
def ofNat (n : Nat) : String :=
  let low := n % Nat.pow 2 62
  let middle := n / Nat.pow 2 62 % Nat.pow 2 12
  let high := n / Nat.pow 2 74
  String.ofList <|
    digits (high / Nat.pow 2 16) 8 ++ '-' :: digits high 4 ++ '-' :: '4' :: digits middle 3 ++
      '-' :: digits (0x8000 + low / Nat.pow 2 48) 4 ++ '-' :: digits low 12

/-- The ids from a start on. -/
def supply (start : Nat) (n : Nat) : String := ofNat ((start + n) % Nat.pow 2 122)

end DurableKV.TransactionId
