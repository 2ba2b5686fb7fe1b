import FailurePipeline.Text.Digits

/-!
# Places in a document

A `Cursor` is the text that is left with its place.  Lines end at a line feed, a carriage return (with or
without a line feed), NEL, LS or PS.
-/

namespace FailurePipeline

namespace Yaml

structure Mark where
  index : Nat := 0
  line : Nat := 0
  column : Nat := 0
  deriving Repr, DecidableEq, Inhabited

structure Cursor where
  rest : List Char
  mark : Mark := {}
  deriving Repr, Inhabited

def isBlank (c : Char) : Bool := c == ' ' || c == '\t'

def isBreak (c : Char) : Bool :=
  c == '\n' || c == '\r' || c == '\u0085' || c == '\u2028' || c == '\u2029'

/-- A character of names: of anchors, tag handles and directives. -/
def isWord (c : Char) : Bool := c.isAlphanum || c == '_' || c == '-'

/-- A character that a document may hold. -/
def isAllowed (c : Char) : Bool :=
  let n := c.toNat
  n == 0x09 || n == 0x0A || n == 0x0D || (0x20 ≤ n && n ≤ 0x7E) || n == 0x85 || (0xA0 ≤ n && n ≤ 0xD7FF) ||
    (0xE000 ≤ n && n ≤ 0xFFFD) || 0x10000 ≤ n

namespace Cursor

def at? (c : Cursor) (k : Nat) : Option Char := c.rest[k]?

def looksAt (c : Cursor) (x : Char) (k : Nat := 0) : Bool := c.at? k == some x

def isEnd (c : Cursor) : Bool := c.rest.isEmpty

def satisfies (p : Char → Bool) (c : Cursor) (k : Nat := 0) : Bool := (c.at? k).any p

/-- A blank, a line break or the end of the text. -/
def isBlankOrEnd (c : Cursor) (k : Nat := 0) : Bool := (c.at? k).all fun x => isBlank x || isBreak x

def isBreakOrEnd (c : Cursor) (k : Nat := 0) : Bool := (c.at? k).all isBreak

/-- Goes on by `n` characters of one line. -/
def advance (c : Cursor) (n : Nat := 1) : Cursor :=
  ⟨c.rest.drop n, { c.mark with index := c.mark.index + n, column := c.mark.column + n }⟩

/-- Goes on past a line break, if there is one, and gives what it stands for. -/
def takeBreak (c : Cursor) : List Char × Cursor :=
  let next (rest : List Char) (n : Nat) : Cursor := ⟨rest, ⟨c.mark.index + n, c.mark.line + 1, 0⟩⟩
  match c.rest with
  | '\r' :: '\n' :: rest => (['\n'], next rest 2)
  | x :: rest =>
    if x == '\u2028' || x == '\u2029' then ([x], next rest 1)
    else if isBreak x then (['\n'], next rest 1)
    else ([], c)
  | [] => ([], c)

def skipBreak (c : Cursor) : Cursor := c.takeBreak.2

/-- The characters that satisfy `p`, and the place after them. -/
def span (p : Char → Bool) (c : Cursor) : List Char × Cursor :=
  let taken := c.rest.takeWhile p
  (taken, c.advance taken.length)

def skip (p : Char → Bool) (c : Cursor) : Cursor := (c.span p).2

/-- Goes on to the end of the line. -/
def skipLine (c : Cursor) : Cursor := c.skip (!isBreak ·)

/-- A line of three equal characters that separates documents. -/
def isIndicator (c : Cursor) (x : Char) : Bool :=
  c.mark.column == 0 && c.looksAt x 0 && c.looksAt x 1 && c.looksAt x 2 && c.isBlankOrEnd 3

def isDocumentIndicator (c : Cursor) : Bool := c.isIndicator '-' || c.isIndicator '.'

end Cursor

end Yaml

end FailurePipeline
