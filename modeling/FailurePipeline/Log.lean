import FailurePipeline.Json.Value

/-!
# Log lines

A line of the log has a level, a message and named fields.
-/

namespace FailurePipeline

inductive LogLevel where
  | info
  | warning
  | error
  deriving Repr, DecidableEq, Inhabited

def LogLevel.name : LogLevel → String
  | .info => "INFO"
  | .warning => "WARN"
  | .error => "ERROR"

structure LogLine where
  level : LogLevel
  message : String
  fields : List (String × Json.Value) := []
  deriving Inhabited

namespace LogLine

/-- The line as an object, the message among its fields. -/
def value (l : LogLine) : Json.Value := .object (l.fields ++ [("message", .string l.message)])

/-- Level, message and fields in one line. -/
def render (l : LogLine) : String :=
  String.intercalate " " (l.level.name :: l.message :: l.fields.map fun (name, v) => name ++ "=" ++ v.render)

end LogLine

end FailurePipeline
