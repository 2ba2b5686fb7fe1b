/-!
# UTF-8

Octets are read as text by `Utf8.scan`, which decodes the longest well-formed beginning and returns the octets
that follow it.  A byte sequence is text exactly when nothing follows (`Utf8.decode?`); `Utf8.encode` writes
text back.
-/

namespace FailurePipeline

/-- A finite sequence of octets. -/
abbrev Bytes := List UInt8

namespace Utf8

/-- An octet that continues a sequence: `10xxxxxx`. -/
def isContinuation (b : UInt8) : Bool := 0x80 ≤ b && b ≤ 0xBF

/-- A two-octet sequence; the lead octets `C0` and `C1` would only spell ASCII again and are refused. -/
def isPair (a b : UInt8) : Bool := 0xC2 ≤ a && a ≤ 0xDF && isContinuation b

/-- A three-octet sequence that is neither overlong nor a surrogate. -/
def isTriple (a b c : UInt8) : Bool :=
  isContinuation c &&
    (a == 0xE0 && 0xA0 ≤ b && b ≤ 0xBF ||
     a == 0xED && 0x80 ≤ b && b ≤ 0x9F ||
     (0xE1 ≤ a && a ≤ 0xEF && a != 0xED) && isContinuation b)

/-- A four-octet sequence that is neither overlong nor above `U+10FFFF`. -/
def isQuadruple (a b c d : UInt8) : Bool :=
  isContinuation c && isContinuation d &&
    (a == 0xF0 && 0x90 ≤ b && b ≤ 0xBF ||
     (0xF1 ≤ a && a ≤ 0xF3) && isContinuation b ||
     a == 0xF4 && 0x80 ≤ b && b ≤ 0x8F)

/-- The six payload bits of a continuation octet. -/
def payload (b : UInt8) : Nat := b.toNat % 64

def pairChar (a b : UInt8) : Char := Char.ofNat (a.toNat % 32 * 64 + payload b)

def tripleChar (a b c : UInt8) : Char := Char.ofNat (a.toNat % 16 * 4096 + payload b * 64 + payload c)

def quadrupleChar (a b c d : UInt8) : Char :=
  Char.ofNat (a.toNat % 8 * 262144 + payload b * 4096 + payload c * 64 + payload d)

/-- The characters of the longest well-formed beginning, and the octets after it. -/
def scan : Bytes → List Char × Bytes
  | [] => ([], [])
  | a :: r =>
    if a < 0x80 then
      let (cs, rest) := scan r
      (Char.ofNat a.toNat :: cs, rest)
    else
      match r with
      | b :: c :: d :: r₃ =>
        if isPair a b then
          let (cs, rest) := scan (c :: d :: r₃)
          (pairChar a b :: cs, rest)
        else if isTriple a b c then
          let (cs, rest) := scan (d :: r₃)
          (tripleChar a b c :: cs, rest)
        else if isQuadruple a b c d then
          let (cs, rest) := scan r₃
          (quadrupleChar a b c d :: cs, rest)
        else ([], a :: b :: c :: d :: r₃)
      | [b, c] =>
        if isPair a b then
          let (cs, rest) := scan [c]
          (pairChar a b :: cs, rest)
        else if isTriple a b c then ([tripleChar a b c], [])
        else ([], [a, b, c])
      | [b] => if isPair a b then ([pairChar a b], []) else ([], [a, b])
      | [] => ([], [a])

/-- The text spelled by the octets, if they are well formed throughout. -/
def decode? (s : Bytes) : Option String :=
  match scan s with
  | (cs, []) => some (String.ofList cs)
  | _ => none

/-- The position of the first octet that belongs to no well-formed sequence. -/
def firstInvalid? (s : Bytes) : Option Nat :=
  match scan s with
  | (_, []) => none
  | (_, rest) => some (s.length - rest.length)

def encodeChars (cs : List Char) : Bytes := cs.flatMap String.utf8EncodeChar

def encode (s : String) : Bytes := encodeChars s.toList

end Utf8

end FailurePipeline
