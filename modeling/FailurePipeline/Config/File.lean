import FailurePipeline.Config.Document

/-!
# Configuration files

A configuration file is told by the extension of its name, and holds UTF-8.
-/

namespace FailurePipeline

namespace Config

/-- The parts of a path between slashes; empty ones and those that stay in place are left out. -/
def pathParts (path : Bytes) : List Bytes :=
  (path.splitOnP (· == 0x2F)).filter fun part => !part.isEmpty && part != [0x2E]

/-- The part after the last dot of a file's name.  A dot in front of everything else starts no extension. -/
def extension? (path : Bytes) : Option Bytes :=
  match (pathParts path).getLast? with
  | none => none
  | some name =>
    let reversed := name.reverse
    let suffix := (reversed.takeWhile (· != 0x2E)).reverse
    let stem := reversed.drop (suffix.length + 1)
    if name == [0x2E, 0x2E] || stem.isEmpty || suffix.length == name.length then none else some suffix

def isYamlPath (path : Bytes) : Bool :=
  match extension? path with
  | some e => e == Utf8.encode "yaml" || e == Utf8.encode "yml"
  | none => false

/-- Reads a configuration file, given how to read files. -/
def ofFile (env : Environment) (readFile : String → Except String Bytes) (path : String) :
    Except ConfigError Config :=
  if isYamlPath (Utf8.encode path) then
    match readFile path with
    | .error reason => .error (.unreadable path reason)
    | .ok octets =>
      match Utf8.decode? octets with
      | some text => parse env text
      | none => .error (.unreadable path "stream did not contain valid UTF-8")
  else .error (.unsupportedFormat path)

end Config

end FailurePipeline
