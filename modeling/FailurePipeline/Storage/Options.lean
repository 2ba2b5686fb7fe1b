/-!
# Options of a store

Options are texts under names.  Names are compared in small letters, and one option may have several names.
-/

namespace FailurePipeline

abbrev StoreOptions := List (String × String)

namespace StoreOptions

/-- The first option that is set under one of the given names. -/
def get? (options : StoreOptions) (names : List String) : Option String :=
  (options.find? fun (name, _) => names.contains (name.map Char.toLower)).map (·.2)

def isSet (options : StoreOptions) (names : List String) : Bool := (options.get? names).isSome

/-- Reads a flag in any of its spellings. -/
def readFlag? (text : String) : Option Bool :=
  let word := text.map Char.toLower
  if ["1", "true", "on", "yes", "y"].contains word then some true
  else if ["0", "false", "off", "no", "n"].contains word then some false
  else none

/-- A flag, which is off unless an option says otherwise; `none` if the option is no flag. -/
def flag? (options : StoreOptions) (names : List String) : Option Bool :=
  match options.get? names with
  | some text => readFlag? text
  | none => some false

/-- The flags that say how any store is reached. -/
def connectionFlags : List String := ["allow_http", "allow_invalid_certificates", "http1_only", "http2_only"]

/-- Whether each of these options is a flag where it is set. -/
def haveFlags (options : StoreOptions) (names : List String) : Bool :=
  names.all fun name => (options.flag? [name]).isSome

end StoreOptions

end FailurePipeline
