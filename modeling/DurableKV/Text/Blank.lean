/-!
# Blank characters

The characters with the Unicode property White_Space, and texts that hold no others. Blank lines of
client input are passed over, and names that are blank count as missing. The class is wider than
that of core, which knows four of them.
-/

namespace DurableKV.Text

/-- Has this character the property White_Space? -/
def isBlank (c : Char) : Bool :=
  let n := c.toNat
  (0x09 ≤ n && n ≤ 0x0D) || n == 0x20 || n == 0x85 || n == 0xA0 || n == 0x1680 ||
    (0x2000 ≤ n && n ≤ 0x200A) || n == 0x2028 || n == 0x2029 || n == 0x202F || n == 0x205F ||
    n == 0x3000

/-- Has the text no character that is not blank? The empty text has none. -/
def isAllBlank (s : String) : Bool := s.toList.all isBlank

end DurableKV.Text
