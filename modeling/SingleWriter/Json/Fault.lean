import SingleWriter.Text.Quoted
import SingleWriter.Text.Shortest

/-! What can be wrong with a JSON text: it breaks the grammar, it ends too early, or a value does
not fit the place it stands in.  `Fault.message` is the wording and `Fault.category` the kind. -/

namespace SingleWriter.Json

/-- A number as it is written: a whole number that fits 64 bits, or anything else. -/
inductive Number where
  | natural (n : Nat)
  | negative (n : Nat)
  | real (x : Signed64)
deriving DecidableEq

inductive Place where
  | value
  | string
  | list
  | object
deriving DecidableEq

inductive Breach where
  | expectedValue
  | expectedIdent
  | invalidNumber
  | numberOutOfRange
  | trailingCharacters
  | trailingComma
  | keyNotString
  | expectedColon
  | expectedCommaOrBrace
  | expectedCommaOrBracket
  | invalidEscape
  | unfinishedSurrogate
  | loneSurrogate
  | controlCharacter
  | tooDeep
deriving DecidableEq

/-- What stands where another kind of value is wanted. -/
inductive Found where
  | null
  | boolean (b : Bool)
  | number (n : Number)
  | text (s : String)
  | sequence
  | map
deriving DecidableEq

/-- The first thing that is wrong with a text, in reading order. -/
inductive Fault where
  | breach (b : Breach)
  | ended (p : Place)
  | mistyped (found : Found) (expected : String)
  | misfit (found : Found) (expected : String)
  | duplicate (field : String)
  | unknownVariant (found : String) (known : List String)
deriving DecidableEq

inductive Category where
  | grammar
  | data
  | ended
deriving DecidableEq

def Place.message : Place → String
  | .value => "EOF while parsing a value"
  | .string => "EOF while parsing a string"
  | .list => "EOF while parsing a list"
  | .object => "EOF while parsing an object"

def Breach.message : Breach → String
  | .expectedValue => "expected value"
  | .expectedIdent => "expected ident"
  | .invalidNumber => "invalid number"
  | .numberOutOfRange => "number out of range"
  | .trailingCharacters => "trailing characters"
  | .trailingComma => "trailing comma"
  | .keyNotString => "key must be a string"
  | .expectedColon => "expected `:`"
  | .expectedCommaOrBrace => "expected `,` or `\x7d`"
  | .expectedCommaOrBracket => "expected `,` or `]`"
  | .invalidEscape => "invalid escape"
  | .unfinishedSurrogate => "unexpected end of hex escape"
  | .loneSurrogate => "lone leading surrogate in hex escape"
  | .controlCharacter => "control character (\\u0000-\\u001F) found while parsing a string"
  | .tooDeep => "recursion limit exceeded"

def Found.message : Found → String
  | .null => "null"
  | .boolean b => "boolean `" ++ (if b then "true" else "false") ++ "`"
  | .number (.natural n) => "integer `" ++ toString n ++ "`"
  | .number (.negative n) => "integer `-" ++ toString n ++ "`"
  | .number (.real x) => "floating point `" ++ Text.signedText x ++ "`"
  | .text s => "string " ++ Text.quoted s
  | .sequence => "sequence"
  | .map => "map"

/-- The known spellings: one alone, two with `or`, more after `one of`. -/
def choices (known : List String) : String :=
  match known.map fun k => "`" ++ k ++ "`" with
  | [] => "there are no variants"
  | [a] => "expected " ++ a
  | [a, b] => "expected " ++ a ++ " or " ++ b
  | all => "expected one of " ++ ", ".intercalate all

def Fault.message : Fault → String
  | .breach b => b.message
  | .ended p => p.message
  | .mistyped found expected => "invalid type: " ++ found.message ++ ", expected " ++ expected
  | .misfit found expected => "invalid value: " ++ found.message ++ ", expected " ++ expected
  | .duplicate field => "duplicate field `" ++ field ++ "`"
  | .unknownVariant found known => "unknown variant `" ++ found ++ "`, " ++ choices known

def Fault.category : Fault → Category
  | .breach _ => .grammar
  | .ended _ => .ended
  | _ => .data

end SingleWriter.Json
