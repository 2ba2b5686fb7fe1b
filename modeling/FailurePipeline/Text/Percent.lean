import FailurePipeline.Text.Digits
import FailurePipeline.Text.Utf8

/-!
# Percent encoding

An octet is written `%` and two hexadecimal digits.  `Percent.encode` writes the characters of a set as they
are and the octets of all others in this form; `Percent.decode` reads the octets back and leaves a `%` without
two digits alone.
-/

namespace FailurePipeline

namespace Percent

def hexDigit (n : Nat) : Char := (Nat.digitChar n).toUpper

/-- An octet as `%` and two upper-case digits. -/
def octet (b : UInt8) : List Char := ['%', hexDigit (b.toNat / 16), hexDigit (b.toNat % 16)]

/-- Writes a character, octet by octet unless it is plain. -/
def encodeChar (isPlain : Char → Bool) (c : Char) : List Char :=
  if isPlain c then [c] else (String.utf8EncodeChar c).flatMap octet

def encode (isPlain : Char → Bool) (cs : List Char) : List Char := cs.flatMap (encodeChar isPlain)

/-- The digit that an octet spells in ASCII. -/
def digit? (b : UInt8) : Option Nat := Digits.hexValue? (Char.ofNat b.toNat)

def decode : Bytes → Bytes
  | 0x25 :: a :: b :: rest =>
    match digit? a, digit? b with
    | some x, some y => UInt8.ofNat (16 * x + y) :: decode rest
    | _, _ => 0x25 :: decode (a :: b :: rest)
  | b :: rest => b :: decode rest
  | [] => []
termination_by s => s.length

end Percent

end FailurePipeline
