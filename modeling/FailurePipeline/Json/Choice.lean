import FailurePipeline.Binary64.Shortest
import FailurePipeline.Json.Reader
import FailurePipeline.Mismatch

/-!
# One of several names

An enumeration is written in JSON as one of its names, or as an object whose one member has that name and the
value `null`.  `readChoice` reads it from octets and reports the place of a fault; `Value.choice` takes it
from a value that has been read.
-/

namespace FailurePipeline

namespace Json

/-- The number nearest to a decimal, worked out from a 64-bit significand in two roundings. -/
def Number.toBinary64 (n : Number) : Binary64 :=
  let (m, dropped) := absorb 0 ((Digits.decimal n.mantissa).map fun c => c.toNat - 48)
  let e := n.exponent + dropped.length
  match Binary64.ofNat m with
  | .finite _ mantissa q =>
    if m = 0 then .finite n.negative mantissa q
    else if 0 ≤ e then
      match Binary64.mul (.ofNat m) (.ofDecimal false 1 e) with
      | .finite _ mantissa q => .finite n.negative mantissa q
      | x => x
    else
      match Binary64.ofDecimal false 1 (-e) with
      | .finite _ m' q' =>
        let (a, b) := Binary64.ratio mantissa q
        let (c, d) := Binary64.ratio m' q'
        Binary64.ofRatio n.negative (a * d) (b * c)
      | _ => .finite n.negative 0 Binary64.minExponent
  | x => x

/-- A numeral with a point up to 16 digits before it or 5 zeros after it, and with an exponent beyond that. -/
def floatText (x : Binary64) : String :=
  match x with
  | .finite negative m q =>
    let d := Binary64.shortest m q
    let sign := if negative then "-" else ""
    let ds := Digits.decimal d.digits
    let point : Int := d.exponent + ds.length
    if m = 0 then sign ++ "0.0"
    else if 0 ≤ d.exponent ∧ point ≤ 16 then sign ++ String.ofList d.positional ++ ".0"
    else if -5 < point ∧ point ≤ 16 then sign ++ String.ofList d.positional
    else
      let fraction := match ds.drop 1 with
        | [] => []
        | rest => '.' :: rest
      sign ++ String.ofList (ds.take 1 ++ fraction) ++ "e" ++ toString (point - 1)
  | _ => ""

/-- What a number is called when it stands in the wrong place. -/
def Number.found (n : Number) : Found :=
  if n.exponent = 0 ∧
      (if n.negative then 0 < n.mantissa ∧ n.mantissa ≤ 9223372036854775808 else n.mantissa ≤ maxWord)
  then .integer (if n.negative then -(n.mantissa : Int) else n.mantissa)
  else .float (floatText n.toBinary64)

def Value.found : Value → Found
  | .null => .null
  | .bool b => .boolean b
  | .number n => n.found
  | .string s => .text s
  | .array _ => .sequence
  | .object _ => .mapping

def chooseName (names : List String) (name : String) : Except Mismatch String :=
  if names.contains name then .ok name else .error (.unknownVariant name names)

/-- The name that a value chooses. -/
def Value.choice (names : List String) : Value → Except Mismatch String
  | .string s => chooseName names s
  | .object [(k, v)] => do
    let name ← chooseName names k
    match v with
    | .null => .ok name
    | v => .error (.invalidType v.found "unit")
  | .object _ => .error (.invalidValue .mapping "map with a single key")
  | v => .error (.invalidType v.found "string or map")

/-- The fault of something that is no `expected`; a scalar is read first, and may itself be faulty. -/
def wrongShape (expected : String) (s : Bytes) : Fault :=
  let refuse (found : Found) (rest : Bytes) : Fault :=
    faultAt (.shape (Mismatch.invalidType found expected).message) rest
  match s with
  | 0x5B :: _ => refuse .sequence s
  | 0x7B :: _ => refuse .mapping s
  | s =>
    match readValue maxDepth s with
    | .ok (v, rest) => refuse v.found rest
    | .error fault => fault

/-- Checks a name that has been read up to `rest`. -/
def acceptName (names : List String) (name : String) (rest : Bytes) : Except Fault (String × Bytes) :=
  match chooseName names name with
  | .ok name => .ok (name, rest)
  | .error m => .error (faultAt (.shape m.message) rest)

/-- The object form of a choice, after its opening brace. -/
def readChoiceObject (names : List String) (s : Bytes) : Except Fault (String × Bytes) :=
  match skipBlank s with
  | [] => .error (faultOn .endInValue [])
  | 0x22 :: r => do
    let (name, r) ← readString r
    let (name, r) ← acceptName names name r
    match skipBlank r with
    | [] => .error (faultOn .endInObject [])
    | 0x3A :: r =>
      match skipBlank r with
      | [] => .error (faultOn .endInValue [])
      | 0x6E :: r => do
        let (_, r) ← readWord .null [0x75, 0x6C, 0x6C] r
        match skipBlank r with
        | [] => .error (faultOn .endInObject [])
        | 0x7D :: r => .ok (name, r)
        | r => .error (faultOn .expectedValue r)
      | r => .error (wrongShape "unit" r)
    | r => .error (faultOn .expectedColon r)
  | r => .error (wrongShape "variant identifier" r)

/-- Reads a choice that fills the octets but for blanks. -/
def readChoice (names : List String) (s : Bytes) : Except Fault String := do
  let (name, r) ←
    match skipBlank s with
    | [] => Except.error (faultOn .endInValue [])
    | 0x22 :: r => do
      let (name, r) ← readString r
      acceptName names name r
    | 0x7B :: r => readChoiceObject names r
    | r => Except.error (faultOn .expectedValue r)
  match skipBlank r with
  | [] => .ok name
  | r => .error (faultOn .trailingCharacters r)

end Json

end FailurePipeline
