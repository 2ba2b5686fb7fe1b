import FailurePipeline.Text.Digits
import FailurePipeline.Text.Utf8

/-!
# Why a text is no JSON

A `Fault` is a cause and the place where reading stopped, given as the number of octets that are left.
`Fault.message` words it with the line and the column, which counts octets after the last line feed before the
place.
-/

namespace FailurePipeline

namespace Json

inductive Cause where
  | endInValue
  | endInString
  | endInArray
  | endInObject
  | expectedColon
  | expectedCommaOrBracket
  | expectedCommaOrBrace
  | expectedWord
  | expectedValue
  | invalidEscape
  | invalidNumber
  | numberOutOfRange
  | invalidCodePoint
  | controlCharacter
  | keyNotString
  | loneSurrogate
  | trailingComma
  | trailingCharacters
  | endInSurrogatePair
  | tooDeep
  /-- The text is JSON, but not of the shape that was asked for. -/
  | shape (reason : String)
  deriving Repr, DecidableEq, Inhabited

def Cause.message : Cause → String
  | .endInValue => "EOF while parsing a value"
  | .endInString => "EOF while parsing a string"
  | .endInArray => "EOF while parsing a list"
  | .endInObject => "EOF while parsing an object"
  | .expectedColon => "expected \x60:\x60"
  | .expectedCommaOrBracket => "expected \x60,\x60 or \x60]\x60"
  | .expectedCommaOrBrace => "expected \x60,\x60 or \x60\x7d\x60"
  | .expectedWord => "expected ident"
  | .expectedValue => "expected value"
  | .invalidEscape => "invalid escape"
  | .invalidNumber => "invalid number"
  | .numberOutOfRange => "number out of range"
  | .invalidCodePoint => "invalid unicode code point"
  | .controlCharacter => "control character (\\u0000-\\u001F) found while parsing a string"
  | .keyNotString => "key must be a string"
  | .loneSurrogate => "lone leading surrogate in hex escape"
  | .trailingComma => "trailing comma"
  | .trailingCharacters => "trailing characters"
  | .endInSurrogatePair => "unexpected end of hex escape"
  | .tooDeep => "recursion limit exceeded"
  | .shape reason => reason

structure Fault where
  cause : Cause
  /-- How many octets of the text lie after the place of the fault. -/
  left : Nat
  deriving Repr, DecidableEq, Inhabited

/-- The place before the octets of `rest`. -/
def faultAt (cause : Cause) (rest : Bytes) : Fault := ⟨cause, rest.length⟩

/-- The place after the first octet of `rest`, which is the one found wanting; at the end of the text, the
end. -/
def faultOn (cause : Cause) (rest : Bytes) : Fault := ⟨cause, rest.length - 1⟩

/-- Line and column of the place that comes after the octets of `before`. -/
def position (before : Bytes) : Nat × Nat :=
  (before.count 0x0A + 1, (before.reverse.takeWhile (· != 0x0A)).length)

def Fault.message (text : Bytes) (f : Fault) : String :=
  let (line, column) := position (text.take (text.length - f.left))
  s!"{f.cause.message} at line {line} column {column}"

end Json

end FailurePipeline
