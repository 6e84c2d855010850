/-!
Why a text is not a YAML document.
-/
namespace Rollup.Yaml

inductive Fault
  | invalidEncoding
  | controlCharacter
  | unexpectedCharacter (c : Char)
  | tabIndentation
  | documentMarker
  | unclosedQuote
  | unknownEscape
  | invalidCodePoint
  | unexpectedColon
  | blockScalarHeader
  /-- A text where a key is due has no colon after it. -/
  | missingColon
  | misplacedEntry
  | misplacedKey
  | misplacedValue
  | unexpectedToken (expected : String)
  | compositeKey
  | secondDocument
  deriving DecidableEq, Repr

def Fault.message : Fault → String
  | invalidEncoding => "invalid encoding"
  | controlCharacter => "control characters are not allowed"
  | unexpectedCharacter c =>
    "found character '" ++ String.singleton c ++ "' that cannot start any token"
  | tabIndentation => "found a tab character that violates indentation"
  | documentMarker => "found unexpected document indicator"
  | unclosedQuote => "found unexpected end of stream in a quoted scalar"
  | unknownEscape => "found unknown escape character"
  | invalidCodePoint => "found invalid Unicode character escape code"
  | unexpectedColon => "found unexpected ':'"
  | blockScalarHeader => "did not find expected comment or line break"
  | missingColon => "could not find expected ':'"
  | misplacedEntry => "block sequence entries are not allowed in this context"
  | misplacedKey => "mapping keys are not allowed in this context"
  | misplacedValue => "mapping values are not allowed in this context"
  | unexpectedToken expected => "did not find expected " ++ expected
  | compositeKey => "a key must be a scalar"
  | secondDocument => "more than one document is not supported"

end Rollup.Yaml
