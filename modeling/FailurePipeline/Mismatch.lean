import FailurePipeline.Text.Quoted

/-!
# Values of the wrong shape

A document can be well formed and still not be what a reader asked for.  `Found` is what stood there,
`Mismatch` why it was refused, and `Mismatch.message` the wording.
-/

namespace FailurePipeline

/-- What stood where something else was expected. -/
inductive Found where
  | nothing
  | null
  | boolean (b : Bool)
  | integer (n : Int)
  /-- An integer that needs more than 64 bits, with the name of the width that holds it. -/
  | wideInteger (n : Int) (width : String)
  | float (numeral : String)
  | text (s : String)
  | sequence
  | mapping
  deriving Repr, DecidableEq, Inhabited

def Found.describe : Found → String
  | .nothing => "unit value"
  | .null => "null"
  | .boolean b => s!"boolean {ticked (toString b)}"
  | .integer n => s!"integer {ticked (toString n)}"
  | .wideInteger n width => s!"integer {ticked (toString n)} as {width}"
  | .float numeral => s!"floating point {ticked numeral}"
  | .text s => s!"string {Quoted.render s}"
  | .sequence => "sequence"
  | .mapping => "map"

/-- The names to choose from, as a message lists them. -/
def alternatives : List String → String
  | [] => ""
  | [a] => ticked a
  | [a, b] => s!"{ticked a} or {ticked b}"
  | names => "one of " ++ String.intercalate ", " (names.map ticked)

inductive Mismatch where
  | unknownField (name : String) (known : List String)
  | unknownVariant (name : String) (known : List String)
  | missingField (name : String)
  | duplicateField (name : String)
  | invalidType (found : Found) (expected : String)
  | invalidValue (found : Found) (expected : String)
  deriving Repr, DecidableEq, Inhabited

def Mismatch.message : Mismatch → String
  | .unknownField name known => s!"unknown field {ticked name}, expected {alternatives known}"
  | .unknownVariant name known => s!"unknown variant {ticked name}, expected {alternatives known}"
  | .missingField name => s!"missing field {ticked name}"
  | .duplicateField name => s!"duplicate field {ticked name}"
  | .invalidType found expected => s!"invalid type: {found.describe}, expected {expected}"
  | .invalidValue found expected => s!"invalid value: {found.describe}, expected {expected}"

end FailurePipeline
