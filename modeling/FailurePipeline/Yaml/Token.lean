import FailurePipeline.Yaml.Scalar

/-!
# Tokens of a document

A `Lexeme` is a token with the places where it begins and ends.  Directives, anchors, tags and scalars carry
their content; the tokens that open and close block collections come from indentation alone.
-/

namespace FailurePipeline

namespace Yaml

inductive Token where
  | streamEnd
  | versionDirective (major minor : Nat)
  | tagDirective (handle start : List Char)
  | documentStart
  | documentEnd
  | blockSequenceStart
  | blockMappingStart
  | blockEnd
  | flowSequenceStart
  | flowSequenceEnd
  | flowMappingStart
  | flowMappingEnd
  | blockEntry
  | flowEntry
  | key
  | value
  | alias (name : List Char)
  | anchor (name : List Char)
  | tag (handle suffix : List Char)
  | scalar (text : List Char) (style : Style)
  deriving Repr, DecidableEq, Inhabited

structure Lexeme where
  token : Token
  start : Mark
  finish : Mark
  deriving Repr, Inhabited

/-! ## Directives -/

/-- A number of a version, of at most nine digits. -/
def readVersionNumber (c : Cursor) : Option (Nat × Cursor) := do
  let (digits, c) := c.span Char.isDigit
  if digits.length ≤ 9 then some (← Digits.ofDecimal? digits, c) else none

def readVersion (c : Cursor) : Option (Token × Cursor) := do
  let (major, c) ← readVersionNumber (c.skip isBlank)
  if c.looksAt '.' then
    let (minor, c) ← readVersionNumber c.advance
    some (.versionDirective major minor, c)
  else none

/-! ## Tags -/

/-- The length of the UTF-8 sequence that an octet begins. -/
def sequenceLength? (octet : Nat) : Option Nat :=
  if octet < 0x80 then some 1
  else if 0xC0 ≤ octet && octet < 0xE0 then some 2
  else if 0xE0 ≤ octet && octet < 0xF0 then some 3
  else if 0xF0 ≤ octet && octet < 0xF8 then some 4
  else none

/-- An octet written `%` and two hexadecimal digits. -/
def readOctet? : List Char → Option (Nat × List Char)
  | '%' :: a :: b :: rest => do some ((← Digits.hexValue? a) * 16 + (← Digits.hexValue? b), rest)
  | _ => none

/-- A character written as the octets of its UTF-8 sequence, each behind `%`. -/
def readUriEscape (c : Cursor) : Option (Char × Cursor) := do
  let (first, rest) ← readOctet? c.rest
  let n ← sequenceLength? first
  let step (acc : Option (Nat × List Char)) (_ : Nat) : Option (Nat × List Char) := do
    let (value, rest) ← acc
    let (octet, rest) ← readOctet? rest
    if 0x80 ≤ octet && octet < 0xC0 then some (value * 64 + octet % 64, rest) else none
  let lead := if n = 1 then first else first % Nat.pow 2 (7 - n)
  let (value, _) ← (List.range (n - 1)).foldl step (some (lead, rest))
  some (Char.ofNat value, c.advance (3 * n))

def isUriChar (verbatim : Bool) (x : Char) : Bool :=
  isWord x || ";/?:@&=+$.%!~*\x27()".toList.contains x || (verbatim && ",[]".toList.contains x)

/-- The characters of a tag. -/
def readUriChars (verbatim : Bool) : (bound : Nat) → Cursor → Option (List Char × Cursor)
  | 0, c => some ([], c)
  | bound + 1, c =>
    match c.at? 0 with
    | some x =>
      if !isUriChar verbatim x then some ([], c)
      else do
        let (y, c) ← if x == '%' then readUriEscape c else some (x, c.advance)
        let (text, c) ← readUriChars verbatim bound c
        some (y :: text, c)
    | none => some ([], c)

/-- The text of a tag after `head`, of which the first character is left out.  Without a head it is not empty.
-/
def readUri (verbatim : Bool) (head : List Char) (c : Cursor) : Option (List Char × Cursor) := do
  let (text, c) ← readUriChars verbatim (c.rest.length + 1) c
  if head.isEmpty && text.isEmpty then none else some (head.drop 1 ++ text, c)

/-- `!`, a word and perhaps another `!`. -/
def readHandle (c : Cursor) : Option (List Char × Cursor) :=
  if c.looksAt '!' then
    let (word, c) := c.advance.span isWord
    if c.looksAt '!' then some ('!' :: word ++ ['!'], c.advance) else some ('!' :: word, c)
  else none

def readTagDirective (c : Cursor) : Option (Token × Cursor) := do
  let (handle, c) ← readHandle (c.skip isBlank)
  if (handle.length == 1 || handle.getLast? == some '!') && c.satisfies isBlank then
    let (start, c) ← readUri true [] (c.skip isBlank)
    if c.isBlankOrEnd then some (.tagDirective handle start, c) else none
  else none

/-- A directive with the rest of its line; the cursor is on the percent sign. -/
def readDirective (c : Cursor) : Option (Token × Cursor) := do
  let (name, c) := c.advance.span isWord
  if !c.isBlankOrEnd then none
  else
    let (token, c) ←
      if name == "YAML".toList then readVersion c
      else if name == "TAG".toList then readTagDirective c
      else none
    let c := c.skip isBlank
    let c := if c.looksAt '#' then c.skipLine else c
    if c.isBreakOrEnd then some (token, c.skipBreak) else none

/-- A tag; the cursor is on its exclamation mark. -/
def readTag (inFlow : Bool) (c : Cursor) : Option (Token × Cursor) := do
  let (token, c) ←
    if c.looksAt '<' 1 then do
      let (suffix, c) ← readUri true [] (c.advance 2)
      if c.looksAt '>' then some (Token.tag [] suffix, c.advance) else none
    else do
      let (handle, c) ← readHandle c
      if 1 < handle.length && handle.getLast? == some '!' then
        let (suffix, c) ← readUri false [] c
        some (Token.tag handle suffix, c)
      else
        let (suffix, c) ← readUri false handle c
        some (if suffix.isEmpty then Token.tag [] ['!'] else Token.tag ['!'] suffix, c)
  if (inFlow && c.looksAt ',') || c.isBlankOrEnd then some (token, c) else none

/-! ## Anchors and aliases -/

/-- The name of an anchor or alias; the cursor is on its indicator. -/
def readName (c : Cursor) : Option (List Char × Cursor) :=
  let (name, c) := c.advance.span isWord
  if name.isEmpty then none
  else if c.isBlankOrEnd || c.satisfies ("?:,]\x7d%@\x60".toList.contains ·) then some (name, c)
  else none

end Yaml

end FailurePipeline
