import FailurePipeline.Text.Digits
import FailurePipeline.Text.Unprintable

/-!
# Texts in messages

A message quotes a text with `Quoted.render`: a quote and a backslash get a backslash, the usual control
characters a letter, and every other unprintable character is spelled by its number in braces.
-/

namespace FailurePipeline

namespace Quoted

def escape (c : Char) : List Char :=
  if c = '\x00' then ['\\', '0']
  else if c = '\t' then ['\\', 't']
  else if c = '\r' then ['\\', 'r']
  else if c = '\n' then ['\\', 'n']
  else if c = '\x22' then ['\\', '\x22']
  else if c = '\\' then ['\\', '\\']
  else if isUnprintable c then '\\' :: 'u' :: '\x7b' :: Nat.toDigits 16 c.toNat ++ ['\x7d']
  else [c]

/-- The text in double quotes. -/
def render (s : String) : String := String.ofList ('\x22' :: s.toList.flatMap escape ++ ['\x22'])

end Quoted

/-- A word between backticks. -/
def ticked (s : String) : String := "\x60" ++ s ++ "\x60"

end FailurePipeline
