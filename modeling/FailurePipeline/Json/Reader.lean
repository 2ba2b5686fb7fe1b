import FailurePipeline.Binary64.Basic
import FailurePipeline.Json.Fault
import FailurePipeline.Json.Value

/-!
# Reading JSON

`Json.read` decides whether octets are one JSON value with blanks around it and gives the value, or else the
fault that comes first.  A value may be nested 127 deep, and a number must be finite once rounded to binary64.

Every reader takes the octets that are left and returns what it read with the octets after it.  Nesting is
read by recursion on the depth that remains, and the items of one array or object by recursion on a bound for
their number.
-/

namespace FailurePipeline

namespace Json

def isBlank (b : UInt8) : Bool := b == 0x20 || b == 0x0A || b == 0x09 || b == 0x0D

def skipBlank (s : Bytes) : Bytes := s.dropWhile isBlank

def isDigit (b : UInt8) : Bool := 0x30 ≤ b && b ≤ 0x39

def digit (b : UInt8) : Nat := b.toNat - 0x30

/-- Reads the rest of a word such as `null`, octet by octet. -/
def readWord (value : Value) : (word : Bytes) → Bytes → Except Fault (Value × Bytes)
  | [], s => .ok (value, s)
  | _ :: _, [] => .error (faultAt .endInValue [])
  | w :: ws, b :: s => if b = w then readWord value ws s else .error (faultAt .expectedWord s)

/-! ## Strings -/

def hexDigit? (b : UInt8) : Option Nat := Digits.hexValue? (Char.ofNat b.toNat)

/-- Four hexadecimal digits. -/
def readHex : Bytes → Except Fault (Nat × Bytes)
  | a :: b :: c :: d :: s =>
    match hexDigit? a, hexDigit? b, hexDigit? c, hexDigit? d with
    | some a, some b, some c, some d => .ok (((a * 16 + b) * 16 + c) * 16 + d, s)
    | _, _, _, _ => .error (faultAt .invalidEscape s)
  | _ => .error (faultAt .endInString [])

def isLeading (n : Nat) : Bool := 0xD800 ≤ n && n ≤ 0xDBFF

def isTrailing (n : Nat) : Bool := 0xDC00 ≤ n && n ≤ 0xDFFF

/-- The second half of a surrogate pair, which has to follow the first at once. -/
def readTrailing (lead : Nat) : Bytes → Except Fault (Char × Bytes)
  | [] => .error (faultAt .endInString [])
  | 0x5C :: 0x75 :: s => do
    let (n, s) ← readHex s
    if isTrailing n then .ok (Char.ofNat (0x10000 + (lead - 0xD800) * 0x400 + (n - 0xDC00)), s)
    else .error (faultAt .loneSurrogate s)
  | [0x5C] => .error (faultAt .endInString [])
  | 0x5C :: _ :: s => .error (faultAt .endInSurrogatePair s)
  | _ :: s => .error (faultAt .endInSurrogatePair s)

/-- What follows a backslash. -/
def readEscape : Bytes → Except Fault (Char × Bytes)
  | [] => .error (faultAt .endInString [])
  | b :: s =>
    if b == 0x22 then .ok ('\x22', s)
    else if b == 0x5C then .ok ('\\', s)
    else if b == 0x2F then .ok ('/', s)
    else if b == 0x62 then .ok ('\x08', s)
    else if b == 0x66 then .ok ('\x0c', s)
    else if b == 0x6E then .ok ('\n', s)
    else if b == 0x72 then .ok ('\r', s)
    else if b == 0x74 then .ok ('\t', s)
    else if b == 0x75 then do
      let (n, s) ← readHex s
      if isTrailing n then .error (faultAt .loneSurrogate s)
      else if isLeading n then readTrailing n s
      else .ok (Char.ofNat n, s)
    else .error (faultAt .invalidEscape s)

/-- A stretch of a string that stands for itself, or the character of an escape. -/
def readPiece (s : Bytes) : Except Fault (Bytes × Bytes) :=
  match s with
  | 0x5C :: r => do
    let (c, r) ← readEscape r
    .ok (Utf8.encodeChars [c], r)
  | b :: r => .ok ([b], r)
  | [] => .error (faultAt .endInString [])

/-- The octets of a string up to its closing quote, escapes replaced. -/
def readOctets : (bound : Nat) → Bytes → Except Fault (Bytes × Bytes)
  | 0, s => .error (faultAt .endInString s)
  | bound + 1, s =>
    match s with
    | [] => .error (faultAt .endInString [])
    | b :: r =>
      if b == 0x22 then .ok ([], r)
      else if b < 0x20 then .error (faultAt .controlCharacter r)
      else do
        let (piece, r) ← readPiece (b :: r)
        let (octets, r) ← readOctets bound r
        .ok (piece ++ octets, r)

/-- A string after its opening quote.  That it is text is checked when it has been read to its end. -/
def readString (s : Bytes) : Except Fault (String × Bytes) := do
  let (octets, r) ← readOctets (s.length + 1) s
  match Utf8.decode? octets with
  | some text => .ok (text, r)
  | none => .error ⟨.invalidCodePoint, s.length - ((Utf8.firstInvalid? s).getD 0 + 1)⟩

/-! ## Numbers -/

def maxWord : Nat := 18446744073709551615

/-- Appends digits to a significand as long as it fits a 64-bit word; also the digits that are left. -/
def absorb : (significand : Nat) → (digits : List Nat) → Nat × List Nat
  | n, [] => (n, [])
  | n, d :: ds => if maxWord < n * 10 + d then (n, d :: ds) else absorb (n * 10 + d) ds

/-- Significand and exponent that decide the range: digits of the whole part that do not fit scale the number,
digits of the fraction that do not fit are ignored. -/
def significant (whole fraction : List Nat) : Nat × Int :=
  let (n, dropped) := absorb 0 whole
  let (m, ignored) := absorb n fraction
  (m, (dropped.length : Int) - ((fraction.length : Int) - ignored.length))

/-- Whether `significand · 10 ^ exponent` rounds to no finite number. -/
def outOfRange (significand : Nat) (exponent : Int) : Bool :=
  if exponent < 0 || significand == 0 then false
  else if 308 < exponent then true
  else !(Binary64.mul (.ofNat significand) (.ofDecimal false 1 exponent)).isFinite

/-- The least exponent that fits no 32-bit integer. -/
def exponentLimit : Nat := 2147483648

/-- The digits of an exponent.  One that fits no 32-bit integer is given as `none`, with the octets after the
digit that made it so. -/
def readExponent : (n : Nat) → Bytes → Option Nat × Bytes
  | n, [] => (some n, [])
  | n, b :: s =>
    if isDigit b then
      if exponentLimit ≤ n * 10 + digit b then (none, s) else readExponent (n * 10 + digit b) s
    else (some n, b :: s)

/-- The exact decimal of a numeral. -/
def exact (negative : Bool) (whole fraction : List Nat) (exponent : Int) : Number :=
  ⟨negative, Digits.ofDigits 10 (whole ++ fraction), exponent - fraction.length⟩

/-- The number whose parts have been read, if it is in range. -/
def finishNumber (negative : Bool) (whole fraction : List Nat) (exponent : Int) (s : Bytes) :
    Except Fault (Value × Bytes) :=
  let (n, scale) := significant whole fraction
  if outOfRange n (scale + exponent) then .error (faultAt .numberOutOfRange s)
  else .ok (.number (exact negative whole fraction exponent), s)

/-- The exponent part after its `e`. -/
def readScale (negative : Bool) (whole fraction : List Nat) (s : Bytes) : Except Fault (Value × Bytes) :=
  let (down, s) := match s with
    | 0x2B :: r => (false, r)
    | 0x2D :: r => (true, r)
    | s => (false, s)
  match s with
  | [] => .error (faultAt .endInValue [])
  | b :: r =>
    if !isDigit b then .error (faultAt .invalidNumber r)
    else
      match readExponent (digit b) r with
      | (some e, r) => finishNumber negative whole fraction (if down then -(e : Int) else e) r
      | (none, r) =>
        let (n, _) := significant whole fraction
        if n ≠ 0 ∧ !down then .error (faultAt .numberOutOfRange r)
        else .ok (.number ⟨negative, 0, 0⟩, r.dropWhile isDigit)

def readScale? (negative : Bool) (whole fraction : List Nat) (s : Bytes) : Except Fault (Value × Bytes) :=
  match s with
  | b :: r =>
    if b == 0x65 || b == 0x45 then readScale negative whole fraction r
    else finishNumber negative whole fraction 0 (b :: r)
  | [] => finishNumber negative whole fraction 0 []

/-- What may follow the whole part of a number. -/
def readFraction? (negative : Bool) (whole : List Nat) (s : Bytes) : Except Fault (Value × Bytes) :=
  match s with
  | 0x2E :: r =>
    match r.takeWhile isDigit with
    | [] =>
      match r with
      | [] => .error (faultOn .endInValue [])
      | _ :: _ => .error (faultOn .invalidNumber r)
    | ds => readScale? negative whole (ds.map digit) (r.dropWhile isDigit)
  | s => readScale? negative whole [] s

/-- A number after its sign. -/
def readNumber (negative : Bool) (s : Bytes) : Except Fault (Value × Bytes) :=
  match s with
  | [] => .error (faultAt .endInValue [])
  | b :: r =>
    if b == 0x30 then
      match r with
      | c :: r' =>
        if isDigit c then .error (faultOn .invalidNumber r) else readFraction? negative [0] (c :: r')
      | [] => readFraction? negative [0] []
    else if isDigit b then
      readFraction? negative (digit b :: (r.takeWhile isDigit).map digit) (r.dropWhile isDigit)
    else .error (faultAt .invalidNumber r)

/-! ## Arrays and objects -/

/-- Where the next item of an array begins; `s` does not begin with a blank. -/
def nextItem (first : Bool) (s : Bytes) : Except Fault Bytes :=
  if first then .ok s
  else
    match s with
    | 0x2C :: r =>
      match skipBlank r with
      | [] => .error (faultOn .endInValue [])
      | 0x5D :: r => .error (faultOn .trailingComma (0x5D :: r))
      | r => .ok r
    | s => .error (faultOn .expectedCommaOrBracket s)

/-- The items of an array, the first of them if `first`, with the closing bracket. -/
def readItems (item : Bytes → Except Fault (Value × Bytes)) :
    (bound : Nat) → (first : Bool) → Bytes → Except Fault (List Value × Bytes)
  | 0, _, s => .error (faultAt .endInArray s)
  | bound + 1, first, s =>
    match skipBlank s with
    | [] => .error (faultOn .endInArray [])
    | 0x5D :: r => .ok ([], r)
    | r => do
      let start ← nextItem first r
      let (v, r) ← item start
      let (vs, r) ← readItems item bound false r
      .ok (v :: vs, r)

/-- A member's name, colon and value; `s` begins with the quote of the name. -/
def readMember (item : Bytes → Except Fault (Value × Bytes)) (s : Bytes) :
    Except Fault ((String × Value) × Bytes) := do
  let (name, r) ← readString (s.drop 1)
  match skipBlank r with
  | [] => .error (faultOn .endInObject [])
  | 0x3A :: r =>
    let (v, r) ← item r
    .ok ((name, v), r)
  | r => .error (faultOn .expectedColon r)

/-- Where the next member of an object begins; `s` does not begin with a blank. -/
def nextMember (first : Bool) (s : Bytes) : Except Fault Bytes :=
  if first then
    match s with
    | 0x22 :: r => .ok (0x22 :: r)
    | s => .error (faultOn .keyNotString s)
  else
    match s with
    | 0x2C :: r =>
      match skipBlank r with
      | [] => .error (faultOn .endInValue [])
      | 0x22 :: r => .ok (0x22 :: r)
      | 0x7D :: r => .error (faultOn .trailingComma (0x7D :: r))
      | r => .error (faultOn .keyNotString r)
    | s => .error (faultOn .expectedCommaOrBrace s)

/-- The members of an object, the first of them if `first`, with the closing brace. -/
def readMembers (item : Bytes → Except Fault (Value × Bytes)) :
    (bound : Nat) → (first : Bool) → Bytes → Except Fault ((List (String × Value)) × Bytes)
  | 0, _, s => .error (faultAt .endInObject s)
  | bound + 1, first, s =>
    match skipBlank s with
    | [] => .error (faultOn .endInObject [])
    | 0x7D :: r => .ok ([], r)
    | r => do
      let start ← nextMember first r
      let (m, r) ← readMember item start
      let (ms, r) ← readMembers item bound false r
      .ok (m :: ms, r)

/-! ## Values -/

/-- One value with the blanks before it, nested at most `depth` deep. -/
def readValue : (depth : Nat) → Bytes → Except Fault (Value × Bytes)
  | depth, s =>
    match skipBlank s with
    | [] => .error (faultOn .endInValue [])
    | b :: r =>
      if b == 0x6E then readWord .null [0x75, 0x6C, 0x6C] r
      else if b == 0x74 then readWord (.bool true) [0x72, 0x75, 0x65] r
      else if b == 0x66 then readWord (.bool false) [0x61, 0x6C, 0x73, 0x65] r
      else if b == 0x2D then readNumber true r
      else if isDigit b then readNumber false (b :: r)
      else if b == 0x22 then do
        let (text, r) ← readString r
        .ok (.string text, r)
      else if b == 0x5B then
        match depth with
        | 0 => .error (faultOn .tooDeep (b :: r))
        | depth + 1 => do
          let (items, r) ← readItems (readValue depth) (r.length + 1) true r
          .ok (.array items, r)
      else if b == 0x7B then
        match depth with
        | 0 => .error (faultOn .tooDeep (b :: r))
        | depth + 1 => do
          let (members, r) ← readMembers (readValue depth) (r.length + 1) true r
          .ok (.object members, r)
      else .error (faultOn .expectedValue (b :: r))

/-- How deep arrays and objects may be nested. -/
def maxDepth : Nat := 127

/-- Reads one value that fills the octets but for blanks. -/
def read (s : Bytes) : Except Fault Value := do
  let (v, r) ← readValue maxDepth s
  match skipBlank r with
  | [] => .ok v
  | r => .error (faultOn .trailingCharacters r)

end Json

end FailurePipeline
