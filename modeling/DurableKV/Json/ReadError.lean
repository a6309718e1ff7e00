import DurableKV.Json.Printer
import DurableKV.Text.Quoted

/-!
# Why reading fails

The reader goes through its input once, from left to right, and stops at the first cause. A
`ReadError` is that cause; `ReadError.message` is its wording and `ReadError.category` says whether
the input ended, was no JSON, or was JSON of the wrong kind. The wording names no line and column:
where the reader stood is no part of the cause.
-/

namespace DurableKV.Json

/-- What stood where something else was wanted. -/
inductive Found where
  /-- The value `null`. -/
  | null
  /-- A truth value. -/
  | bool (b : Bool)
  /-- A number. -/
  | number (n : Number)
  /-- A text. -/
  | string (s : String)
  /-- An array. -/
  | sequence
  /-- An object. -/
  | map
  deriving DecidableEq, Repr

/-- Why reading fails. -/
inductive ReadError where
  /-- A value was due and something else stood there. -/
  | expectedValue
  /-- A letter of `null`, `true` or `false` was wrong. -/
  | expectedWord
  /-- An element of an array was followed by neither a comma nor the closing bracket. -/
  | expectedArrayEnd
  /-- A field of an object was followed by neither a comma nor the closing brace. -/
  | expectedObjectEnd
  /-- A name was not followed by a colon. -/
  | expectedColon
  /-- A name was due and no text stood there. -/
  | nameNotText
  /-- A comma was followed by the closing bracket or brace. -/
  | trailingComma
  /-- Something followed the whole value. -/
  | trailingCharacters
  /-- A text held a raw control character. -/
  | controlCharacter
  /-- A backslash was followed by no known escape. -/
  | invalidEscape
  /-- A surrogate escape stood without its partner. -/
  | loneSurrogate
  /-- A leading surrogate escape was followed by no escape. -/
  | missingSurrogate
  /-- A text was not well-formed UTF-8. -/
  | invalidUtf8
  /-- A number was malformed. -/
  | invalidNumber
  /-- A number was too large for binary64. -/
  | numberOutOfRange
  /-- Too many arrays and objects were open at once. -/
  | nestingLimit
  /-- The input ended inside an array. -/
  | endInArray
  /-- The input ended inside an object. -/
  | endInObject
  /-- The input ended inside a text. -/
  | endInText
  /-- The input ended where a value was due or going on. -/
  | endInValue
  /-- A value was of the wrong kind. -/
  | wrongKind (found : Found) (wanted : String)
  /-- An integer was out of the wanted range. -/
  | wrongRange (found : Found) (wanted : String)
  /-- An array had the wrong number of elements. -/
  | wrongLength (count : Nat) (wanted : String)
  /-- A required field was missing. -/
  | missingField (name : String)
  /-- A known field occurred twice. -/
  | duplicateField (name : String)
  /-- The tag of a tagged object was none of the known ones. -/
  | unknownTag (tag : String) (known : List String)
  /-- The value was read and then refused, with this text. -/
  | refused (text : String)
  deriving DecidableEq, Repr

/-- What kind of failure it was. -/
inductive ErrorCategory where
  /-- The input ended too early. -/
  | endOfInput
  /-- The input was no JSON text. -/
  | malformed
  /-- The input was JSON, but not of the wanted kind. -/
  | unfitting
  deriving DecidableEq, Repr

/-- The text of what was found. -/
def Found.text : Found → String
  | .null => "null"
  | .bool true => "boolean `true`"
  | .bool false => "boolean `false`"
  | .number (.int i) => "integer `" ++ (Number.int i).text ++ "`"
  | .number (.float x) => "floating point `" ++ (Number.float x).text ++ "`"
  | .string s => "string " ++ Text.quoted s
  | .sequence => "sequence"
  | .map => "map"

/-- How a value counts as something found. -/
def Value.found : Value → Found
  | .null => .null
  | .bool b => .bool b
  | .number n => .number n
  | .string s => .string s
  | .array _ => .sequence
  | .object _ => .map

namespace ReadError

/-- The wording of a failure, without the place in the input. -/
def message : ReadError → String
  | expectedValue => "expected value"
  | expectedWord => "expected ident"
  | expectedArrayEnd => "expected `,` or `]`"
  | expectedObjectEnd => "expected `,` or `\x7d`"
  | expectedColon => "expected `:`"
  | nameNotText => "key must be a string"
  | trailingComma => "trailing comma"
  | trailingCharacters => "trailing characters"
  | controlCharacter => "control character (\\u0000-\\u001F) found while parsing a string"
  | invalidEscape => "invalid escape"
  | loneSurrogate => "lone leading surrogate in hex escape"
  | missingSurrogate => "unexpected end of hex escape"
  | invalidUtf8 => "invalid unicode code point"
  | invalidNumber => "invalid number"
  | numberOutOfRange => "number out of range"
  | nestingLimit => "recursion limit exceeded"
  | endInArray => "EOF while parsing a list"
  | endInObject => "EOF while parsing an object"
  | endInText => "EOF while parsing a string"
  | endInValue => "EOF while parsing a value"
  | wrongKind found wanted => "invalid type: " ++ found.text ++ ", expected " ++ wanted
  | wrongRange found wanted => "invalid value: " ++ found.text ++ ", expected " ++ wanted
  | wrongLength count wanted => "invalid length " ++ Nat.repr count ++ ", expected " ++ wanted
  | missingField name => "missing field `" ++ name ++ "`"
  | duplicateField name => "duplicate field `" ++ name ++ "`"
  | unknownTag tag known =>
    "unknown variant `" ++ tag ++ "`, expected one of " ++
      String.intercalate ", " (known.map fun k => "`" ++ k ++ "`")
  | refused text => text

/-- The kind of a failure. -/
def category : ReadError → ErrorCategory
  | endInArray | endInObject | endInText | endInValue => .endOfInput
  | wrongKind .. | wrongRange .. | wrongLength .. | missingField _ | duplicateField _
  | unknownTag .. | refused _ => .unfitting
  | _ => .malformed

end ReadError

end DurableKV.Json
