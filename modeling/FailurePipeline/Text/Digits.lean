/-!
# Numerals

Decimal and hexadecimal numerals as lists of characters: writing (`decimal`, `padded`, `hexadecimal`) and
reading (`digitValue?`, `hexValue?`, `ofDigits`).
-/

namespace FailurePipeline

namespace Digits

/-- The decimal numeral of a number, without leading zeros. -/
def decimal (n : Nat) : List Char := Nat.toDigits 10 n

/-- The decimal numeral filled up with zeros on the left to at least `width` digits. -/
def padded (width n : Nat) : List Char :=
  let ds := decimal n
  List.replicate (width - ds.length) '0' ++ ds

/-- The lower-case hexadecimal numeral filled up to at least `width` digits. -/
def hexadecimal (width n : Nat) : List Char :=
  let ds := Nat.toDigits 16 n
  List.replicate (width - ds.length) '0' ++ ds

def digitValue? (c : Char) : Option Nat := if c.isDigit then some (c.toNat - '0'.toNat) else none

def hexValue? (c : Char) : Option Nat :=
  if c.isDigit then some (c.toNat - '0'.toNat)
  else if 'a' ≤ c ∧ c ≤ 'f' then some (c.toNat - 'a'.toNat + 10)
  else if 'A' ≤ c ∧ c ≤ 'F' then some (c.toNat - 'A'.toNat + 10)
  else none

/-- The number that digits spell in a base, most significant digit first. -/
def ofDigits (base : Nat) (ds : List Nat) : Nat := ds.foldl (fun n d => n * base + d) 0

/-- The number that a non-empty list of decimal digits spells. -/
def ofDecimal? (cs : List Char) : Option Nat :=
  match cs.mapM digitValue? with
  | some (d :: ds) => some (ofDigits 10 (d :: ds))
  | _ => none

end Digits

end FailurePipeline
