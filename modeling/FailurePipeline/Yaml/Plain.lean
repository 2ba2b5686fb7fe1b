import FailurePipeline.Binary64.Shortest
import FailurePipeline.Mismatch

/-!
# What plain scalars stand for

A plain scalar without a tag is nothing, a truth value, an integer, a floating-point number or else a text.
Integers may be written in base 16, 8 and 2; digits after a leading zero are a text.
-/

namespace FailurePipeline

namespace Yaml

namespace Plain

def isNull (s : String) : Bool := ["null", "Null", "NULL", "~"].contains s

def bool? (s : String) : Option Bool :=
  if ["true", "True", "TRUE"].contains s then some true
  else if ["false", "False", "FALSE"].contains s then some false
  else none

/-- The number that digits of a base spell, if it is at most `limit`. -/
def digits? (base limit : Nat) (cs : List Char) : Option Nat := do
  let ds ← cs.mapM fun c => (Digits.hexValue? c).filter (· < base)
  if ds.isEmpty then none else (some (Digits.ofDigits base ds)).filter (· ≤ limit)

/-- Several digits of which the first is zero. -/
def isPaddedNumber (cs : List Char) : Bool :=
  let ds := match cs with
    | '-' :: ds => ds
    | '+' :: ds => ds
    | ds => ds
  1 < ds.length && ds.head? == some '0' && ds.all Char.isDigit

def startsWithSign (cs : List Char) : Bool := cs.head? == some '+' || cs.head? == some '-'

/-- The base that the second character of a number names after a zero. -/
def base? (c : Char) : Option Nat :=
  if c == 'x' then some 16 else if c == 'o' then some 8 else if c == 'b' then some 2 else none

/-- A number without a minus sign. -/
def natural? (limit : Nat) (cs : List Char) : Option Nat :=
  let unsigned := match cs with
    | '+' :: rest => rest
    | rest => rest
  let decimal : Option Nat :=
    if startsWithSign unsigned || isPaddedNumber cs then none else digits? 10 limit unsigned
  match unsigned with
  | '0' :: c :: rest =>
    match base? c with
    | some base =>
      if startsWithSign rest then none
      else
        match digits? base limit rest with
        | some n => some n
        | none => decimal
    | none => decimal
  | _ => decimal

/-- The magnitude of a number with a minus sign. -/
def negative? (limit : Nat) (cs : List Char) : Option Nat :=
  match cs with
  | '-' :: rest =>
    let decimal : Option Nat := if isPaddedNumber cs then none else digits? 10 limit rest
    match rest with
    | '0' :: c :: digits =>
      match (base? c).bind fun base => digits? base limit digits with
      | some n => some n
      | none => decimal
    | _ => decimal
  | _ => none

def word : Nat := Nat.pow 2 64 - 1

/-- An integer with the name of its width if it needs more than 64 bits. -/
def integer? (cs : List Char) : Option Found :=
  match natural? word cs with
  | some n => some (.integer n)
  | none =>
    match negative? (Nat.pow 2 63) cs with
    | some n => some (.integer (-(n : Int)))
    | none =>
      match natural? (Nat.pow 2 128 - 1) cs with
      | some n => some (.wideInteger n "u128")
      | none => (negative? (Nat.pow 2 127) cs).map fun n => .wideInteger (-(n : Int)) "i128"

/-- Mantissa and exponent of a decimal numeral, which has a digit before or after its point. -/
def decimal? (cs : List Char) : Option (Nat × Int) := do
  let whole := cs.takeWhile Char.isDigit
  let rest := cs.drop whole.length
  let (fraction, rest) := match rest with
    | '.' :: rest =>
      let fraction := rest.takeWhile Char.isDigit
      (fraction, rest.drop fraction.length)
    | rest => ([], rest)
  let mantissa ← Digits.ofDecimal? (whole ++ fraction)
  let exponent : Int ← match rest with
    | [] => some 0
    | e :: rest =>
      if e == 'e' || e == 'E' then
        match rest with
        | '-' :: ds => (Digits.ofDecimal? ds).map fun n => -(n : Int)
        | '+' :: ds => (Digits.ofDecimal? ds).map fun n => (n : Int)
        | ds => (Digits.ofDecimal? ds).map fun n => (n : Int)
      else none
  some (mantissa, exponent - fraction.length)

/-- A floating-point number.  A decimal that is too large for one is none. -/
def float? (s : String) : Option Binary64 :=
  let cs := s.toList
  let unpositive := match cs with
    | '+' :: rest => rest
    | rest => rest
  if cs.head? == some '+' && startsWithSign unpositive then none
  else if [".inf", ".Inf", ".INF"].contains (String.ofList unpositive) then some (.infinite false)
  else if ["-.inf", "-.Inf", "-.INF"].contains s then some (.infinite true)
  else if [".nan", ".NaN", ".NAN"].contains s then some .nan
  else
    let (negative, digits) := match unpositive with
      | '-' :: rest => (true, rest)
      | rest => (false, rest)
    match decimal? digits with
    | some (mantissa, exponent) =>
      let x := Binary64.ofDecimal negative mantissa exponent
      if x.isFinite then some x else none
    | none => none

/-- A number with a point, or the name of what is no number. -/
def floatText (x : Binary64) : String :=
  let text := x.positional
  String.ofList (if x.isFinite && !text.contains '.' then text ++ ".0".toList else text)

/-- What an untagged plain scalar stands for. -/
def resolve (s : String) : Found :=
  if s.isEmpty || isNull s then .nothing
  else
    match bool? s with
    | some b => .boolean b
    | none =>
      match integer? s.toList with
      | some found => found
      | none =>
        if isPaddedNumber s.toList then .text s
        else
          match float? s with
          | some x => .float (floatText x)
          | none => .text s

end Plain

end Yaml

end FailurePipeline
