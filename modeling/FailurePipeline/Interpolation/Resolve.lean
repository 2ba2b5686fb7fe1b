import FailurePipeline.Interpolation.Token
import FailurePipeline.Text.Utf8

/-!
# Interpolation

`interpolate` replaces the references of a text by the values of variables.  Every reference that cannot be
resolved is reported, in the order of the text.  A value with a line break is refused, so that no value can
add a line.
-/

namespace FailurePipeline

/-- The variables that are set, with their octets. -/
abbrev Environment := String → Option Bytes

/-- The value of a variable; one that is no text counts as not set. -/
def Environment.text? (env : Environment) (name : String) : Option String := (env name).bind Utf8.decode?

def Environment.empty : Environment := fun _ => none

namespace Interpolation

inductive Reason where
  | notSet
  | lineBreak
  deriving Repr, DecidableEq, Inhabited

/-- A reference that has no value. -/
structure Unresolved where
  name : String
  reason : Reason
  deriving Repr, DecidableEq, Inhabited

def Unresolved.message (u : Unresolved) : String :=
  match u.reason with
  | .notSet => s!"environment variable '{u.name}' is not set"
  | .lineBreak => s!"environment variable '{u.name}' contains newlines, which is not allowed"

def isLineBreak (c : Char) : Bool := c == '\n' || c == '\r'

/-- The text that stands for a reference. -/
def resolve (env : Environment) (name : String) (fallback : Fallback) : Except Unresolved (List Char) :=
  match env.text? name, fallback with
  | some value, fallback =>
    if value.toList.any isLineBreak then .error ⟨name, .lineBreak⟩
    else
      match fallback with
      | .ifUnsetOrEmpty text => if value.isEmpty then .ok text else .ok value.toList
      | _ => .ok value.toList
  | none, .required => .error ⟨name, .notSet⟩
  | none, .ifUnset text => .ok text
  | none, .ifUnsetOrEmpty text => .ok text

/-- The text that stands for a token. -/
def Token.value (env : Environment) : Token → Except Unresolved (List Char)
  | .character c => .ok [c]
  | .dollar => .ok ['$']
  | .bare name => resolve env (String.ofList name) .required
  | .braced name fallback => resolve env (String.ofList name) fallback

def Token.error? (env : Environment) (t : Token) : Option Unresolved :=
  match t.value env with
  | .ok _ => none
  | .error u => some u

def Token.output (env : Environment) (t : Token) : List Char :=
  match t.value env with
  | .ok cs => cs
  | .error _ => []

def interpolateChars (env : Environment) (cs : List Char) : Except (List Unresolved) (List Char) :=
  match (tokens cs).filterMap (Token.error? env) with
  | [] => .ok ((tokens cs).flatMap (Token.output env))
  | errors => .error errors

end Interpolation

/-- Replaces every reference by its value, or reports all that have none. -/
def interpolate (env : Environment) (text : String) : Except (List Interpolation.Unresolved) String :=
  (Interpolation.interpolateChars env text.toList).map String.ofList

end FailurePipeline
