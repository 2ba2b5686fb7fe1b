/-!
# Binary floating-point numbers of 64 bits

A finite number is `± mantissa · 2 ^ exponent` with a mantissa of at most 53 bits and an exponent of at least
`-1074`.  Every operation computes its exact rational result and rounds it once, to the nearest number, ties
to the even mantissa; what rounds beyond the largest finite number is infinite.
-/

namespace FailurePipeline

inductive Binary64 where
  | finite (negative : Bool) (mantissa : Nat) (exponent : Int)
  | infinite (negative : Bool)
  | nan
  deriving Repr, DecidableEq, Inhabited

namespace Binary64

/-- The exponent of the least positive number. -/
def minExponent : Int := -1074

def maxExponent : Int := 971

/-- `num / den` rounded to the nearest integer, ties to even. -/
def roundDiv (num den : Nat) : Nat :=
  let q := num / den
  let r := num % den
  if 2 * r < den then q
  else if den < 2 * r then q + 1
  else if q % 2 = 0 then q else q + 1

/-- `num / den · 2 ^ (-q)` rounded to the nearest integer. -/
def scaled (num den : Nat) (q : Int) : Nat :=
  if 0 ≤ q then roundDiv num (den * Nat.pow 2 q.toNat) else roundDiv (num * Nat.pow 2 (-q).toNat) den

/-- The exponent at which `num / den` has 53 bits, or the least one. -/
def exponentFor (num den : Nat) : Int :=
  let guess : Int := (num.log2 : Int) - den.log2 - 53
  let fits : Bool :=
    if 0 ≤ guess then num < den * Nat.pow 2 guess.toNat * Nat.pow 2 53
    else num * Nat.pow 2 (-guess).toNat < den * Nat.pow 2 53
  max (if fits then guess else guess + 1) minExponent

/-- The number nearest to the ratio of two naturals. -/
def ofRatio (negative : Bool) (num den : Nat) : Binary64 :=
  if num = 0 then .finite negative 0 minExponent
  else
    let q := exponentFor num den
    let m := scaled num den q
    let (m, q) := if m = Nat.pow 2 53 then (Nat.pow 2 52, q + 1) else (m, q)
    if maxExponent < q then .infinite negative else .finite negative m q

def ofNat (n : Nat) : Binary64 := ofRatio false n 1

/-- The number nearest to `mantissa · 10 ^ exponent`; exponents far out of range are not worked out. -/
def ofDecimal (negative : Bool) (mantissa : Nat) (exponent : Int) : Binary64 :=
  let digits : Int := (Nat.toDigits 10 mantissa).length
  if mantissa = 0 then .finite negative 0 minExponent
  else if 400 < digits + exponent then .infinite negative
  else if digits + exponent < -400 then .finite negative 0 minExponent
  else if 0 ≤ exponent then ofRatio negative (mantissa * Nat.pow 10 exponent.toNat) 1
  else ofRatio negative mantissa (Nat.pow 10 (-exponent).toNat)

/-- The value of a finite number's magnitude as a ratio. -/
def ratio (mantissa : Nat) (exponent : Int) : Nat × Nat :=
  if 0 ≤ exponent then (mantissa * Nat.pow 2 exponent.toNat, 1) else (mantissa, Nat.pow 2 (-exponent).toNat)

/-- The sum of two numbers that are not negative. -/
def add : Binary64 → Binary64 → Binary64
  | .finite _ m q, .finite _ m' q' =>
    let (n, d) := ratio m q
    let (n', d') := ratio m' q'
    ofRatio false (n * d' + n' * d) (d * d')
  | .nan, _ => .nan
  | _, .nan => .nan
  | _, _ => .infinite false

/-- The quotient of a number that is not negative and a positive natural. -/
def divNat (x : Binary64) (k : Nat) : Binary64 :=
  match x with
  | .finite s m q =>
    let (n, d) := ratio m q
    ofRatio s n (d * k)
  | x => x

/-- The product of two numbers that are not negative. -/
def mul : Binary64 → Binary64 → Binary64
  | .finite _ m q, .finite _ m' q' =>
    let (n, d) := ratio m q
    let (n', d') := ratio m' q'
    ofRatio false (n * n') (d * d')
  | .nan, _ => .nan
  | _, .nan => .nan
  | _, _ => .infinite false

def isFinite : Binary64 → Bool
  | .finite .. => true
  | _ => false

/-- Whether a number that is not negative is at most the ratio of two naturals. -/
def leRatio (x : Binary64) (num den : Nat) : Bool :=
  match x with
  | .finite _ m q =>
    let (n, d) := ratio m q
    n * den ≤ num * d
  | _ => false

end Binary64

end FailurePipeline
