import FailurePipeline.Yaml.Token

/-!
# From text to tokens

A scalar, alias or flow collection may turn out to be the key of a mapping when a colon follows it on the same
line, and then a key token is put in front of it.  Until that is known the tokens from there on are held back;
if the text breaks off meanwhile, they are never handed out.  `scan` gives the tokens that are handed out, and
whether they are all.
-/

namespace FailurePipeline

namespace Yaml

/-- Where the key of a mapping may begin. -/
structure KeyCandidate where
  /-- Whether only a key can stand here. -/
  required : Bool
  /-- The number of the token that would be its first. -/
  number : Nat
  mark : Mark
  deriving Repr, Inhabited

/-- A key ends on the line where it begins and within 1024 characters. -/
def KeyCandidate.isStale (k : KeyCandidate) (now : Mark) : Bool :=
  k.mark.line < now.line || k.mark.index + 1024 < now.index

structure Scanner where
  cursor : Cursor
  tokens : Array Lexeme := #[]
  /-- The column of the innermost block collection, and of those around it. -/
  indent : Int := -1
  indents : List Int := []
  keyAllowed : Bool := true
  /-- The candidate of the innermost flow collection, and of those around it; the last is that of the block
  context. -/
  candidates : List (Option KeyCandidate) := [none]
  deriving Inhabited

namespace Scanner

def flowLevel (s : Scanner) : Nat := s.candidates.length - 1

def inFlow (s : Scanner) : Bool := 0 < s.flowLevel

def mark (s : Scanner) : Mark := s.cursor.mark

def column (s : Scanner) : Nat := s.mark.column

/-- Adds a token that begins here and ends at the cursor `c`. -/
def push (s : Scanner) (t : Token) (c : Cursor) : Scanner :=
  { s with tokens := s.tokens.push ⟨t, s.mark, c.mark⟩, cursor := c }

/-- Adds a token of no extent. -/
def pushEmpty (s : Scanner) (t : Token) : Scanner := s.push t s.cursor

/-- Closes the block collections that are indented more than `column`. -/
def unroll (s : Scanner) (column : Int) : Scanner :=
  if s.inFlow then s
  else
    let deeper := (s.indent :: s.indents).takeWhile (column < ·)
    let rest := (s.indent :: s.indents).drop deeper.length
    let s := deeper.foldl (fun s _ => s.pushEmpty .blockEnd) s
    { s with indent := rest.head?.getD (-1), indents := rest.drop 1 }

/-- Opens a block collection at a column, if it is indented more than the one around it; its token is put at
position `number`. -/
def roll (s : Scanner) (column : Nat) (number : Nat) (t : Token) (mark : Mark) : Scanner :=
  if s.inFlow || (column : Int) ≤ s.indent then s
  else
    { s with
      indent := column
      indents := s.indent :: s.indents
      tokens := s.tokens.insertIdxIfInBounds number ⟨t, mark, mark⟩ }

/-- Gives up the innermost candidate. -/
def dropCandidate (s : Scanner) : Option Scanner :=
  match s.candidates with
  | some k :: rest => if k.required then none else some { s with candidates := none :: rest }
  | _ => some s

/-- Notes that a key may begin here. -/
def saveCandidate (s : Scanner) : Option Scanner :=
  if s.keyAllowed then do
    let s ← s.dropCandidate
    let k : KeyCandidate := ⟨!s.inFlow && s.indent == (s.column : Int), s.tokens.size, s.mark⟩
    some { s with candidates := some k :: s.candidates.drop 1 }
  else some s

/-- Gives up the candidates that can no longer be keys. -/
def dropStale (s : Scanner) : Option Scanner := do
  let candidates ← s.candidates.mapM fun
    | some k => if k.isStale s.mark then (if k.required then none else some none) else some (some k)
    | none => some none
  some { s with candidates := candidates }

/-- Goes on to the next token past blanks, comments and line breaks. -/
def skipToToken : (bound : Nat) → Scanner → Scanner
  | 0, s => s
  | bound + 1, s =>
    let c := if s.mark.index == 0 && s.cursor.looksAt '\ufeff' then s.cursor.advance else s.cursor
    let c := c.skip fun x => x == ' ' || ((s.inFlow || !s.keyAllowed) && x == '\t')
    let c := if c.looksAt '#' then c.skipLine else c
    if c.satisfies isBreak then
      skipToToken bound { s with cursor := c.skipBreak, keyAllowed := s.keyAllowed || !s.inFlow }
    else { s with cursor := c }

def fetchStreamEnd (s : Scanner) : Option Scanner := do
  let m := s.mark
  let s :=
    if m.column != 0 then { s with cursor.mark := { m with line := m.line + 1, column := 0 } } else s
  let s ← (s.unroll (-1)).dropCandidate
  some ({ s with keyAllowed := false }.pushEmpty .streamEnd)

def fetchDirective (s : Scanner) : Option Scanner := do
  let s ← (s.unroll (-1)).dropCandidate
  let (token, c) ← readDirective s.cursor
  some ({ s with keyAllowed := false }.push token c)

def fetchDocumentIndicator (s : Scanner) (t : Token) : Option Scanner := do
  let s ← (s.unroll (-1)).dropCandidate
  some ({ s with keyAllowed := false }.push t (s.cursor.advance 3))

def fetchFlowStart (s : Scanner) (t : Token) : Option Scanner := do
  let s ← s.saveCandidate
  some ({ s with candidates := none :: s.candidates, keyAllowed := true }.push t s.cursor.advance)

def fetchFlowEnd (s : Scanner) (t : Token) : Option Scanner := do
  let s ← s.dropCandidate
  let candidates := if s.inFlow then s.candidates.drop 1 else s.candidates
  some ({ s with candidates := candidates, keyAllowed := false }.push t s.cursor.advance)

def fetchFlowEntry (s : Scanner) : Option Scanner := do
  let s ← s.dropCandidate
  some ({ s with keyAllowed := true }.push .flowEntry s.cursor.advance)

def fetchBlockEntry (s : Scanner) : Option Scanner := do
  if s.inFlow || s.keyAllowed then
    let s ← (s.roll s.column s.tokens.size .blockSequenceStart s.mark).dropCandidate
    some ({ s with keyAllowed := true }.push .blockEntry s.cursor.advance)
  else none

def fetchKey (s : Scanner) : Option Scanner := do
  if s.inFlow || s.keyAllowed then
    let s ← (s.roll s.column s.tokens.size .blockMappingStart s.mark).dropCandidate
    some ({ s with keyAllowed := !s.inFlow }.push .key s.cursor.advance)
  else none

def fetchValue (s : Scanner) : Option Scanner :=
  match s.candidates with
  | some k :: rest =>
    let s := { s with tokens := s.tokens.insertIdxIfInBounds k.number ⟨.key, k.mark, k.mark⟩ }
    let s := s.roll k.mark.column k.number .blockMappingStart k.mark
    some ({ s with candidates := none :: rest, keyAllowed := false }.push .value s.cursor.advance)
  | _ =>
    if s.inFlow || s.keyAllowed then
      let s := s.roll s.column s.tokens.size .blockMappingStart s.mark
      some ({ s with keyAllowed := !s.inFlow }.push .value s.cursor.advance)
    else none

def fetchName (s : Scanner) (token : List Char → Token) : Option Scanner := do
  let s ← s.saveCandidate
  let (name, c) ← readName s.cursor
  some ({ s with keyAllowed := false }.push (token name) c)

def fetchTag (s : Scanner) : Option Scanner := do
  let s ← s.saveCandidate
  let (token, c) ← readTag s.inFlow s.cursor
  some ({ s with keyAllowed := false }.push token c)

def fetchBlockScalar (s : Scanner) (literal : Bool) : Option Scanner := do
  let s ← s.dropCandidate
  let (text, c) ← readBlock literal s.indent s.cursor
  some ({ s with keyAllowed := true }.push (.scalar text (if literal then .literal else .folded)) c)

def fetchQuoted (s : Scanner) (single : Bool) : Option Scanner := do
  let s ← s.saveCandidate
  let (text, c) ← readQuoted single s.cursor
  let style := if single then .singleQuoted else .doubleQuoted
  some ({ s with keyAllowed := false }.push (.scalar text style) c)

def fetchPlain (s : Scanner) : Option Scanner := do
  let s ← s.saveCandidate
  let (text, endsLine, c) ← readPlain s.inFlow (s.indent + 1).toNat s.cursor
  some ({ s with keyAllowed := endsLine }.push (.scalar text .plain) c)

/-- Whether a plain scalar can begin here. -/
def startsPlain (s : Scanner) (x : Char) : Bool :=
  let c := s.cursor
  !(isBlank x || isBreak x || "-?:,[]\x7b\x7d#&*!|>\x27\x22%@\x60".toList.contains x) ||
    (x == '-' && !c.satisfies isBlank 1) ||
    (!s.inFlow && (x == '?' || x == ':') && !c.isBlankOrEnd 1)

/-- Fetches the next token, with those that its place implies. -/
def fetch (s : Scanner) : Option Scanner := do
  let s := s.skipToToken (s.cursor.rest.length + 1)
  let s ← s.dropStale
  let s := s.unroll s.column
  let c := s.cursor
  match c.at? 0 with
  | none => s.fetchStreamEnd
  | some x =>
    if s.column == 0 && x == '%' then s.fetchDirective
    else if c.isIndicator '-' then s.fetchDocumentIndicator .documentStart
    else if c.isIndicator '.' then s.fetchDocumentIndicator .documentEnd
    else if x == '[' then s.fetchFlowStart .flowSequenceStart
    else if x == '\x7b' then s.fetchFlowStart .flowMappingStart
    else if x == ']' then s.fetchFlowEnd .flowSequenceEnd
    else if x == '\x7d' then s.fetchFlowEnd .flowMappingEnd
    else if x == ',' then s.fetchFlowEntry
    else if x == '-' && c.isBlankOrEnd 1 then s.fetchBlockEntry
    else if x == '?' && (s.inFlow || c.isBlankOrEnd 1) then s.fetchKey
    else if x == ':' && (s.inFlow || c.isBlankOrEnd 1) then s.fetchValue
    else if x == '*' then s.fetchName .alias
    else if x == '&' then s.fetchName .anchor
    else if x == '!' then s.fetchTag
    else if x == '|' && !s.inFlow then s.fetchBlockScalar true
    else if x == '>' && !s.inFlow then s.fetchBlockScalar false
    else if x == '\x27' then s.fetchQuoted true
    else if x == '\x22' then s.fetchQuoted false
    else if s.startsPlain x then s.fetchPlain
    else none

/-- The first token that is held back at this point, if there is one. -/
def heldBack? (s : Scanner) : Option Nat :=
  (s.candidates.filterMap fun
    | some k => if k.required || !k.isStale s.mark then some k.number else none
    | none => none).min?

def atEnd (s : Scanner) : Bool :=
  match s.tokens.back? with
  | some l => l.token == .streamEnd
  | none => false

end Scanner

/-- The tokens that are handed out before the text breaks off, if it does. -/
structure Tokens where
  lexemes : List Lexeme
  complete : Bool
  deriving Inhabited

def scanFrom : (bound : Nat) → Scanner → Tokens
  | 0, s => ⟨s.tokens.toList, false⟩
  | bound + 1, s =>
    match s.fetch with
    | some s => if s.atEnd then ⟨s.tokens.toList, true⟩ else scanFrom bound s
    | none => ⟨s.tokens.toList.take (s.heldBack?.getD s.tokens.size), false⟩

/-- The tokens of a text.  A text with a character that no document may hold has none. -/
def scan (text : List Char) : Tokens :=
  if text.all isAllowed then scanFrom (text.length + 2) { cursor := { rest := text } } else ⟨[], false⟩

end Yaml

end FailurePipeline
