import FailurePipeline.Binary64.Basic
import FailurePipeline.Text.Digits

/-!
# Shortest decimal numerals

`shortest` finds the decimal with the fewest digits that reads back as a given number, and of those the
nearest one.  All decimals that round to `m · 2 ^ q` form an interval, whose ends belong to it exactly when
`m` is even.  On the grid of the multiples of `10 ^ k` only the two neighbours of the number can be nearest,
so the coarsest grid with a neighbour inside the interval gives the answer.
-/

namespace FailurePipeline

namespace Binary64

/-- A decimal number `digits · 10 ^ exponent`. -/
structure Decimal where
  digits : Nat
  exponent : Int
  deriving Repr, DecidableEq, Inhabited

/-- The neighbour on the grid of `10 ^ k` that rounds to `m · 2 ^ q`, the nearer one if both do. -/
def gridPoint? (m : Nat) (q k : Int) : Option Nat :=
  let unit := if 0 ≤ q then Nat.pow 2 q.toNat else 1
  let den := if 0 ≤ q then 1 else Nat.pow 2 (-q).toNat
  let up := if k < 0 then Nat.pow 10 (-k).toNat else 1
  let step := 4 * den * (if 0 ≤ k then Nat.pow 10 k.toNat else 1)
  let value := 4 * m * unit * up
  let below := if m = Nat.pow 2 52 ∧ minExponent < q then unit * up else 2 * unit * up
  let above := 2 * unit * up
  let inside (x : Nat) : Bool :=
    if m % 2 = 0 then value ≤ x + below && x ≤ value + above else value < x + below && x < value + above
  let c := value / step
  match inside (c * step), inside ((c + 1) * step) with
  | true, true => if value - c * step ≤ (c + 1) * step - value then some c else some (c + 1)
  | true, false => some c
  | false, true => some (c + 1)
  | false, false => none

/-- Searches the grids from `10 ^ k` downwards. -/
def searchGrids (m : Nat) (q : Int) : (fuel : Nat) → (k : Int) → Decimal
  | 0, k => ⟨0, k⟩
  | fuel + 1, k =>
    match gridPoint? m q k with
    | some (c + 1) => ⟨c + 1, k⟩
    | _ => searchGrids m q fuel (k - 1)

/-- The decimal with the fewest digits that rounds to `m · 2 ^ q`; zero for `m = 0`. -/
def shortest (m : Nat) (q : Int) : Decimal :=
  if m = 0 then ⟨0, 0⟩
  else
    let (n, d) := ratio m q
    let top : Int := if d ≤ n then (Nat.toDigits 10 (n / d)).length else 0
    searchGrids m q 700 top

/-- A decimal without exponent notation; a whole number has no point. -/
def Decimal.positional (x : Decimal) : List Char :=
  let ds := Digits.decimal x.digits
  if 0 ≤ x.exponent then
    if x.digits = 0 then ds else ds ++ List.replicate x.exponent.toNat '0'
  else
    let places := (-x.exponent).toNat
    let ds := List.replicate (places + 1 - ds.length) '0' ++ ds
    ds.take (ds.length - places) ++ '.' :: ds.drop (ds.length - places)

/-- The shortest positional numeral of a number. -/
def positional : Binary64 → List Char
  | .finite negative m q =>
    let text := (shortest m q).positional
    if negative then '-' :: text else text
  | .infinite negative => if negative then "-inf".toList else "inf".toList
  | .nan => "NaN".toList

end Binary64

end FailurePipeline
