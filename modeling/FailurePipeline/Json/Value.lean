import FailurePipeline.Text.Digits

/-!
# JSON values

A number is kept as the exact decimal it spells.  An object keeps its members in the order of the text,
repeated names included.  `Value.render` writes a value without blanks: the control characters, the quote and
the backslash are escaped, everything else stands for itself.
-/

namespace FailurePipeline

namespace Json

/-- The decimal `± mantissa · 10 ^ exponent`. -/
structure Number where
  negative : Bool
  mantissa : Nat
  exponent : Int
  deriving Repr, DecidableEq, Inhabited

inductive Value where
  | null
  | bool (b : Bool)
  | number (n : Number)
  | string (s : String)
  | array (items : List Value)
  | object (members : List (String × Value))
  deriving Inhabited, BEq

namespace Number

def ofNat (n : Nat) : Number := ⟨false, n, 0⟩

def ofInt (n : Int) : Number := ⟨n < 0, n.natAbs, 0⟩

/-- The natural number that a number spells, if it was written as one. -/
def toNat? (n : Number) : Option Nat := if !n.negative && n.exponent == 0 then some n.mantissa else none

def toInt? (n : Number) : Option Int :=
  if n.exponent == 0 then some (if n.negative then -(n.mantissa : Int) else n.mantissa) else none

/-- A numeral: digits, with a point if the exponent is negative and an exponent part if it is positive. -/
def render (n : Number) : List Char :=
  let sign := if n.negative then ['-'] else []
  let ds := Digits.decimal n.mantissa
  sign ++
    if n.exponent = 0 then ds
    else if 0 < n.exponent then ds ++ 'e' :: Digits.decimal n.exponent.toNat
    else
      let places := (-n.exponent).toNat
      let ds := List.replicate (places + 1 - ds.length) '0' ++ ds
      ds.take (ds.length - places) ++ '.' :: ds.drop (ds.length - places)

end Number

/-- The spelling of one character inside a string. -/
def escapeChar (c : Char) : List Char :=
  if c = '\x22' then ['\\', '\x22']
  else if c = '\\' then ['\\', '\\']
  else if c = '\x08' then ['\\', 'b']
  else if c = '\t' then ['\\', 't']
  else if c = '\n' then ['\\', 'n']
  else if c = '\x0c' then ['\\', 'f']
  else if c = '\r' then ['\\', 'r']
  else if c.toNat < 32 then '\\' :: 'u' :: Digits.hexadecimal 4 c.toNat
  else [c]

/-- A string in quotes. -/
def quote (s : String) : List Char := '\x22' :: s.toList.flatMap escapeChar ++ ['\x22']

mutual

def Value.chars : Value → List Char
  | .null => "null".toList
  | .bool true => "true".toList
  | .bool false => "false".toList
  | .number n => n.render
  | .string s => quote s
  | .array [] => "[]".toList
  | .array (v :: vs) => '[' :: v.chars ++ restItems vs
  | .object [] => "\x7b\x7d".toList
  | .object ((k, v) :: ms) => '\x7b' :: quote k ++ ':' :: v.chars ++ restMembers ms

/-- The items after the first one, with the closing bracket. -/
def restItems : List Value → List Char
  | [] => [']']
  | v :: vs => ',' :: v.chars ++ restItems vs

/-- The members after the first one, with the closing brace. -/
def restMembers : List (String × Value) → List Char
  | [] => ['\x7d']
  | (k, v) :: ms => ',' :: quote k ++ ':' :: v.chars ++ restMembers ms

end

def Value.render (v : Value) : String := String.ofList v.chars

/-- The value of a member; of several with one name, the last. -/
def Value.member? (v : Value) (name : String) : Option Value :=
  match v with
  | .object members => (members.reverse.find? (·.1 == name)).map (·.2)
  | _ => none

end Json

end FailurePipeline
