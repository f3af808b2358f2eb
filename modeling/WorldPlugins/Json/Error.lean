import WorldPlugins.Decimal.Shortest
import WorldPlugins.Json.Basic
import WorldPlugins.Text.Integer
import WorldPlugins.Text.Quoted

/-! # Why reading fails

Text can fail to be JSON (`Fault`), or be JSON of another shape than the one wanted (`Mismatch`).  Both are
causes; `ReadError.message` gives their words.
-/

namespace WorldPlugins.Json

/-- What makes a text not JSON. -/
inductive Fault
  | endInValue
  | endInList
  | endInObject
  | endInString
  | expectedColon
  | expectedCommaOrBracket
  | expectedCommaOrBrace
  | expectedWord
  | expectedValue
  | trailingComma
  | trailingCharacters
  | keyNotString
  | invalidNumber
  | numberOutOfRange
  | invalidEscape
  | invalidCodePoint
  | loneSurrogate
  | unfinishedSurrogate
  | controlCharacter
  | tooDeep
  deriving DecidableEq, Repr

/-- What was found where another shape was wanted. -/
inductive Found
  | null
  | bool (value : Bool)
  | number (value : Number)
  | string (value : String)
  | sequence
  | map
  deriving DecidableEq, Repr

/-- What makes a value not of the shape wanted. -/
inductive Mismatch
  | invalidType (found : Found) (expected : String)
  | invalidValue (found : Found) (expected : String)
  | invalidLength (length : Nat) (expected : String)
  | unknownVariant (name : String) (known : List String)
  | missingField (name : String)
  | duplicateField (name : String)
  | noVariant (type : String)
  deriving DecidableEq, Repr

/-- Why a text could not be read as a value of the type wanted. -/
inductive ReadError
  | fault (cause : Fault)
  | mismatch (cause : Mismatch)
  deriving DecidableEq, Repr

/-- What a reader gives, or the first thing that is wrong. -/
abbrev Read := Except ReadError

/-- The three kinds of reading errors: not JSON, of another shape, cut short. -/
inductive Category
  | malformed
  | misshapen
  | truncated
  deriving DecidableEq, Repr

def Fault.message : Fault → String
  | .endInValue => "EOF while parsing a value"
  | .endInList => "EOF while parsing a list"
  | .endInObject => "EOF while parsing an object"
  | .endInString => "EOF while parsing a string"
  | .expectedColon => "expected `:`"
  | .expectedCommaOrBracket => "expected `,` or `]`"
  | .expectedCommaOrBrace => "expected `,` or `\x7d`"
  | .expectedWord => "expected ident"
  | .expectedValue => "expected value"
  | .trailingComma => "trailing comma"
  | .trailingCharacters => "trailing characters"
  | .keyNotString => "key must be a string"
  | .invalidNumber => "invalid number"
  | .numberOutOfRange => "number out of range"
  | .invalidEscape => "invalid escape"
  | .invalidCodePoint => "invalid unicode code point"
  | .loneSurrogate => "lone leading surrogate in hex escape"
  | .unfinishedSurrogate => "unexpected end of hex escape"
  | .controlCharacter => "control character (\\u0000-\\u001F) found while parsing a string"
  | .tooDeep => "recursion limit exceeded"

/-- Whether a fault is that the text ends too early. -/
def Fault.isTruncation : Fault → Bool
  | .endInValue | .endInList | .endInObject | .endInString => true
  | _ => false

def Found.message : Found → String
  | .null => "null"
  | .bool value => "boolean `" ++ (if value then "true" else "false") ++ "`"
  | .number (.int i) => "integer `" ++ Text.showInteger i ++ "`"
  | .number (.float bits) => "floating point `" ++ String.ofList (Decimal.ofBits bits) ++ "`"
  | .string s => "string " ++ Text.quoted s
  | .sequence => "sequence"
  | .map => "map"

def alternatives (names : List String) : String :=
  "one of " ++ String.intercalate ", " (names.map fun name => "`" ++ name ++ "`")

def Mismatch.message : Mismatch → String
  | .invalidType found expected => "invalid type: " ++ found.message ++ ", expected " ++ expected
  | .invalidValue found expected => "invalid value: " ++ found.message ++ ", expected " ++ expected
  | .invalidLength length expected =>
    "invalid length " ++ Text.showNatural length ++ ", expected " ++ expected
  | .unknownVariant name known => "unknown variant `" ++ name ++ "`, expected " ++ alternatives known
  | .missingField name => "missing field `" ++ name ++ "`"
  | .duplicateField name => "duplicate field `" ++ name ++ "`"
  | .noVariant type => "data did not match any variant of untagged enum " ++ type

def ReadError.message : ReadError → String
  | .fault cause => cause.message
  | .mismatch cause => cause.message

def ReadError.category : ReadError → Category
  | .fault cause => if cause.isTruncation then .truncated else .malformed
  | .mismatch _ => .misshapen

def found : Json → Found
  | .null => .null
  | .bool value => .bool value
  | .number value => .number value
  | .string value => .string value
  | .array _ => .sequence
  | .object _ => .map

end WorldPlugins.Json
