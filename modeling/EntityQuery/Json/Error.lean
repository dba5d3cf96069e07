/-! # Faults in JSON text

Why a text is not JSON. The first fault from the left is the one that is reported.
-/

namespace EntityQuery

inductive JsonFault where
  | endInValue
  | endInArray
  | endInObject
  | endInString
  | colonExpected
  | arrayEndExpected
  | objectEndExpected
  | wordExpected
  | valueExpected
  | invalidEscape
  | invalidNumber
  | numberOutOfRange
  | controlCharacter
  | keyNotString
  | unpairedSurrogate
  | endOfEscape
  | trailingComma
  | trailingCharacters
  | tooDeep
  deriving Repr, DecidableEq

namespace JsonFault

/-- Whether the text ends too early, while all of it might be the start of a JSON text. -/
def isEnd : JsonFault → Bool
  | .endInValue | .endInArray | .endInObject | .endInString => true
  | _ => false

def message : JsonFault → String
  | .endInValue => "EOF while parsing a value"
  | .endInArray => "EOF while parsing a list"
  | .endInObject => "EOF while parsing an object"
  | .endInString => "EOF while parsing a string"
  | .colonExpected => "expected `:`"
  | .arrayEndExpected => "expected `,` or `]`"
  | .objectEndExpected => "expected `,` or `\x7d`"
  | .wordExpected => "expected ident"
  | .valueExpected => "expected value"
  | .invalidEscape => "invalid escape"
  | .invalidNumber => "invalid number"
  | .numberOutOfRange => "number out of range"
  | .controlCharacter => "control character (\\u0000-\\u001F) found while parsing a string"
  | .keyNotString => "key must be a string"
  | .unpairedSurrogate => "lone leading surrogate in hex escape"
  | .endOfEscape => "unexpected end of hex escape"
  | .trailingComma => "trailing comma"
  | .trailingCharacters => "trailing characters"
  | .tooDeep => "recursion limit exceeded"

end JsonFault

end EntityQuery
