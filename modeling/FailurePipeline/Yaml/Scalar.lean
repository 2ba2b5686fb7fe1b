import FailurePipeline.Yaml.Cursor

/-!
# Scalars

Reading of plain, quoted and block scalars.  Line breaks inside a scalar are folded: a single one becomes a
blank, of several the first is dropped.
-/

namespace FailurePipeline

namespace Yaml

inductive Style where
  | plain
  | singleQuoted
  | doubleQuoted
  | literal
  | folded
  deriving Repr, DecidableEq, Inhabited

/-- Blanks and line breaks between two parts of a scalar.  Once there has been a line break, blanks are
dropped. -/
structure Gap where
  blanks : List Char := []
  /-- What the first line break stands for, if there is one. -/
  first : Option (List Char) := none
  more : List Char := []
  deriving Repr, Inhabited

namespace Gap

/-- What a gap contributes to the scalar. -/
def text (g : Gap) : List Char :=
  match g.first with
  | none => g.blanks
  | some ['\n'] => if g.more.isEmpty then [' '] else g.more
  | some first => first ++ g.more

def isMultiline (g : Gap) : Bool := g.first.isSome

end Gap

/-- Reads a gap.  A tab before column `indent` of a line is refused. -/
def readGap (indent : Nat) : (bound : Nat) → Gap → Cursor → Option (Gap × Cursor)
  | 0, g, c => some (g, c)
  | bound + 1, g, c =>
    match c.at? 0 with
    | some x =>
      if isBlank x then
        if g.isMultiline then
          if x == '\t' && c.mark.column < indent then none else readGap indent bound g c.advance
        else readGap indent bound { g with blanks := g.blanks ++ [x] } c.advance
      else if isBreak x then
        let (text, c) := c.takeBreak
        if g.isMultiline then readGap indent bound { g with more := g.more ++ text } c
        else readGap indent bound { g with first := some text } c
      else some (g, c)
    | none => some (g, c)

/-! ## Plain scalars -/

/-- The characters up to the next blank, line break or indicator; in a flow collection a colon before an
indicator is refused. -/
def readPlainWord (inFlow : Bool) : (bound : Nat) → Cursor → Option (List Char × Cursor)
  | 0, c => some ([], c)
  | bound + 1, c =>
    match c.at? 0 with
    | none => some ([], c)
    | some x =>
      if isBlank x || isBreak x then some ([], c)
      else if inFlow && x == ':' && c.satisfies (",?[]\x7b\x7d".toList.contains ·) 1 then none
      else if x == ':' && c.isBlankOrEnd 1 then some ([], c)
      else if inFlow && ",[]\x7b\x7d".toList.contains x then some ([], c)
      else do
        let (word, c) ← readPlainWord inFlow bound c.advance
        some (x :: word, c)

/-- A plain scalar's words with the gaps between them.  Also whether it ended after a line break. -/
def readPlainFrom (inFlow : Bool) (indent : Nat) :
    (bound : Nat) → Gap → List Char → Cursor → Option (List Char × Bool × Cursor)
  | 0, g, text, c => some (text, g.isMultiline, c)
  | bound + 1, g, text, c =>
    if c.isDocumentIndicator || c.looksAt '#' then some (text, g.isMultiline, c)
    else do
      let (word, c) ← readPlainWord inFlow (bound + 1) c
      let (text, g) := if word.isEmpty then (text, g) else (text ++ g.text ++ word, {})
      if !(c.satisfies isBlank || c.satisfies isBreak) then some (text, g.isMultiline, c)
      else
        let (g, c) ← readGap indent (bound + 1) g c
        if !inFlow && c.mark.column < indent then some (text, g.isMultiline, c)
        else readPlainFrom inFlow indent bound g text c

def readPlain (inFlow : Bool) (indent : Nat) (c : Cursor) : Option (List Char × Bool × Cursor) :=
  readPlainFrom inFlow indent (c.rest.length + 1) {} [] c

/-! ## Quoted scalars -/

/-- What a backslash and a letter stand for. -/
def escapeText? (x : Char) : Option Char :=
  if x == '0' then some '\x00'
  else if x == 'a' then some '\x07'
  else if x == 'b' then some '\x08'
  else if x == 't' || x == '\t' then some '\t'
  else if x == 'n' then some '\n'
  else if x == 'v' then some '\x0b'
  else if x == 'f' then some '\x0c'
  else if x == 'r' then some '\r'
  else if x == 'e' then some '\x1b'
  else if x == ' ' || x == '\x22' || x == '/' || x == '\\' then some x
  else if x == 'N' then some '\u0085'
  else if x == '_' then some '\u00a0'
  else if x == 'L' then some '\u2028'
  else if x == 'P' then some '\u2029'
  else none

/-- The number of hexadecimal digits that a letter after a backslash asks for. -/
def escapeDigits? (x : Char) : Option Nat :=
  if x == 'x' then some 2 else if x == 'u' then some 4 else if x == 'U' then some 8 else none

/-- An escape that is not an escaped line break; the cursor is on the backslash. -/
def readEscape (c : Cursor) : Option (Char × Cursor) := do
  let x ← c.at? 1
  match escapeText? x with
  | some y => some (y, c.advance 2)
  | none =>
    let n ← escapeDigits? x
    let digits ← ((c.rest.drop 2).take n).mapM Digits.hexValue?
    let value := Digits.ofDigits 16 digits
    if digits.length == n && value.isValidChar then some (Char.ofNat value, c.advance (n + 2)) else none

/-- The characters up to the closing quote, the next blank or line break, or an escaped line break.  Also
whether it was the last of these. -/
def readQuotedWord (single : Bool) : (bound : Nat) → Cursor → Option (List Char × Bool × Cursor)
  | 0, c => some ([], false, c)
  | bound + 1, c =>
    match c.at? 0 with
    | none => some ([], false, c)
    | some x =>
      if isBlank x || isBreak x then some ([], false, c)
      else if single && x == '\x27' && c.looksAt '\x27' 1 then do
        let (word, broken, c) ← readQuotedWord single bound (c.advance 2)
        some ('\x27' :: word, broken, c)
      else if x == (if single then '\x27' else '\x22') then some ([], false, c)
      else if !single && x == '\\' then
        if c.satisfies isBreak 1 then some ([], true, c.advance.skipBreak)
        else do
          let (y, c) ← readEscape c
          let (word, broken, c) ← readQuotedWord single bound c
          some (y :: word, broken, c)
      else do
        let (word, broken, c) ← readQuotedWord single bound c.advance
        some (x :: word, broken, c)

/-- A quoted scalar after its opening quote. -/
def readQuotedFrom (single : Bool) : (bound : Nat) → List Char → Cursor → Option (List Char × Cursor)
  | 0, _, _ => none
  | bound + 1, text, c =>
    if c.isDocumentIndicator || c.isEnd then none
    else do
      let (word, broken, c) ← readQuotedWord single (bound + 1) c
      let text := text ++ word
      if c.looksAt (if single then '\x27' else '\x22') then some (text, c.advance)
      else
        let (g, c) ← readGap 0 (bound + 1) { first := if broken then some [] else none } c
        readQuotedFrom single bound (text ++ g.text) c

/-- A quoted scalar; the cursor is on its opening quote. -/
def readQuoted (single : Bool) (c : Cursor) : Option (List Char × Cursor) :=
  readQuotedFrom single (c.rest.length + 1) [] c.advance

/-! ## Block scalars -/

/-- Which line breaks at the end of a block scalar belong to it. -/
inductive Chomping where
  | strip
  | clip
  | keep
  deriving Repr, DecidableEq, Inhabited

def chomping? (c : Cursor) : Option Chomping :=
  if c.looksAt '+' then some .keep else if c.looksAt '-' then some .strip else none

/-- The header of a block scalar after its indicator: chomping and indentation, in either order. -/
def readBlockHeader (c : Cursor) : Option (Chomping × Option Nat × Cursor) := do
  let digit (c : Cursor) : Option (Option Nat × Cursor) :=
    match (c.at? 0).bind Digits.digitValue? with
    | some 0 => none
    | some n => some (some n, c.advance)
    | none => some (none, c)
  let (chomping, increment, c) ←
    match chomping? c with
    | some chomping => do
      let (increment, c) ← digit c.advance
      some (chomping, increment, c)
    | none => do
      let (increment, c) ← digit c
      match increment, chomping? c with
      | some _, some chomping => some (chomping, increment, c.advance)
      | _, _ => some (.clip, increment, c)
  let c := c.skip isBlank
  let c := if c.looksAt '#' then c.skipLine else c
  if c.isBreakOrEnd then some (chomping, increment, c.skipBreak) else none

/-- Blank lines before a line of a block scalar, and its indentation up to `indent`, or all of it as long as
`indent` is not known.  Also the widest indentation seen. -/
def readIndentation (indent : Option Nat) :
    (bound : Nat) → (widest : Nat) → List Char → Cursor → Option (List Char × Nat × Cursor)
  | 0, widest, breaks, c => some (breaks, widest, c)
  | bound + 1, widest, breaks, c =>
    let spaces := (c.rest.takeWhile (· == ' ')).length
    let n := match indent with
      | some indent => min spaces (indent - c.mark.column)
      | none => spaces
    let c := c.advance n
    let widest := max widest c.mark.column
    if indent.all (c.mark.column < ·) && c.looksAt '\t' then none
    else if c.satisfies isBreak then
      let (text, c) := c.takeBreak
      readIndentation indent bound widest (breaks ++ text) c
    else some (breaks, widest, c)

/-- The lines of a block scalar.  `leading` is the line break before the current line, `breaks` the blank
lines after it. -/
def readBlockLines (literal : Bool) (indent : Nat) :
    (bound : Nat) → (text leading breaks : List Char) → (afterBlank : Bool) → Cursor →
      Option (List Char × List Char × List Char × Cursor)
  | 0, text, leading, breaks, _, c => some (text, leading, breaks, c)
  | bound + 1, text, leading, breaks, afterBlank, c =>
    if c.mark.column == indent && !c.isEnd then do
      let blank := c.satisfies isBlank
      let joint :=
        if !literal && leading.head? == some '\n' && !afterBlank && !blank then
          if breaks.isEmpty then [' '] else breaks
        else leading ++ breaks
      let (line, c) := c.span (!isBreak ·)
      let (leading, c) := c.takeBreak
      let (breaks, _, c) ← readIndentation (some indent) (bound + 1) 0 [] c
      readBlockLines literal indent bound (text ++ joint ++ line) leading breaks blank c
    else some (text, leading, breaks, c)

/-- A block scalar inside indentation `parent`, which is -1 at the top; the cursor is on its indicator. -/
def readBlock (literal : Bool) (parent : Int) (c : Cursor) : Option (List Char × Cursor) := do
  let (chomping, increment, c) ← readBlockHeader c.advance
  let bound := c.rest.length + 1
  let known := increment.map fun n => if 0 ≤ parent then parent.toNat + n else n
  let (breaks, widest, c) ← readIndentation known bound 0 [] c
  let indent := known.getD (max (max widest (parent + 1).toNat) 1)
  let (text, leading, breaks, c) ← readBlockLines literal indent bound [] [] breaks false c
  let tail := match chomping with
    | .strip => []
    | .clip => leading
    | .keep => leading ++ breaks
  some (text ++ tail, c)

end Yaml

end FailurePipeline
