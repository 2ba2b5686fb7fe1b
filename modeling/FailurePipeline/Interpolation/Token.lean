/-!
# References to variables in a text

A text is a sequence of tokens: `$$`, which stands for a dollar sign, references to variables, and single
characters that stand for themselves.  A reference is `$NAME` with the longest possible name, or a name in
braces with or without a default.  A dollar sign at which none of these begins stands for itself.
-/

namespace FailurePipeline

namespace Interpolation

/-- When a reference falls back to its default. -/
inductive Fallback where
  /-- There is no default. -/
  | required
  /-- The default stands in for a variable that is not set. -/
  | ifUnset (text : List Char)
  /-- The default stands in for a variable that is not set or empty. -/
  | ifUnsetOrEmpty (text : List Char)
  deriving Repr, DecidableEq, Inhabited

inductive Token where
  | character (c : Char)
  | dollar
  | bare (name : List Char)
  | braced (name : List Char) (fallback : Fallback)
  deriving Repr, DecidableEq, Inhabited

def isNameStart (c : Char) : Bool := c.isAlpha || c == '_'

def isNameChar (c : Char) : Bool := c.isAlphanum || c == '_'

/-- The name at the beginning of a text, as long as possible. -/
def name? : List Char → Option (List Char)
  | c :: cs => if isNameStart c then some (c :: cs.takeWhile isNameChar) else none
  | [] => none

/-- The default at the beginning of a text, up to the closing brace. -/
def default? (cs : List Char) : Option (List Char) :=
  if cs.contains '\x7d' then some (cs.takeWhile (· != '\x7d')) else none

/-- A reference in braces after `$\x7b`, and the number of characters it takes there. -/
def braced? (cs : List Char) : Option (Token × Nat) := do
  let name ← name? cs
  let rest := cs.drop name.length
  match rest with
  | '\x7d' :: _ => some (.braced name .required, name.length + 1)
  | ':' :: '-' :: rest => do
    let text ← default? rest
    some (.braced name (.ifUnsetOrEmpty text), name.length + text.length + 3)
  | '-' :: rest => do
    let text ← default? rest
    some (.braced name (.ifUnset text), name.length + text.length + 2)
  | _ => none

/-- What a dollar sign begins, given the text after it, and the number of characters it takes there. -/
def afterDollar? : List Char → Option (Token × Nat)
  | '$' :: _ => some (.dollar, 1)
  | '\x7b' :: cs => (braced? cs).map fun (t, n) => (t, n + 1)
  | cs => (name? cs).map fun name => (.bare name, name.length)

/-- The tokens of a text, of which the first `skip` characters belong to a token already found. -/
def tokensFrom : (skip : Nat) → List Char → List Token
  | _, [] => []
  | skip + 1, _ :: cs => tokensFrom skip cs
  | 0, c :: cs =>
    if c = '$' then
      match afterDollar? cs with
      | some (t, n) => t :: tokensFrom n cs
      | none => .character c :: tokensFrom 0 cs
    else .character c :: tokensFrom 0 cs

def tokens (cs : List Char) : List Token := tokensFrom 0 cs

/-- The text of a token. -/
def Token.chars : Token → List Char
  | .character c => [c]
  | .dollar => ['$', '$']
  | .bare name => '$' :: name
  | .braced name .required => '$' :: '\x7b' :: name ++ ['\x7d']
  | .braced name (.ifUnset text) => '$' :: '\x7b' :: name ++ '-' :: text ++ ['\x7d']
  | .braced name (.ifUnsetOrEmpty text) => '$' :: '\x7b' :: name ++ ':' :: '-' :: text ++ ['\x7d']

end Interpolation

end FailurePipeline
