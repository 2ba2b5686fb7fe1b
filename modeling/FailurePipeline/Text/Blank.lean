/-!
# Blank characters

`Blank.isSpace` is the Unicode property `White_Space`; `Blank.isAsciiSpace` is its five ASCII members that
separate words in a line of octets (blank, tab, line feed, form feed, carriage return; vertical tab is not one
of them).
-/

namespace FailurePipeline

namespace Blank

/-- A character with the Unicode property `White_Space`. -/
def isSpace (c : Char) : Bool :=
  let n := c.toNat
  n == 0x20 || (0x09 ≤ n && n ≤ 0x0D) || n == 0x85 || n == 0xA0 || n == 0x1680 ||
    (0x2000 ≤ n && n ≤ 0x200A) || n == 0x2028 || n == 0x2029 || n == 0x202F || n == 0x205F || n == 0x3000

/-- A text of which nothing is left once blanks are trimmed. -/
def isBlankText (s : String) : Bool := s.toList.all isSpace

def isAsciiSpace (b : UInt8) : Bool := b == 0x20 || b == 0x09 || b == 0x0A || b == 0x0C || b == 0x0D

/-- A line of octets that holds nothing but blanks. -/
def isBlankLine (line : List UInt8) : Bool := line.all isAsciiSpace

theorem isSpace_of_isWhitespace {c : Char} (h : c.isWhitespace = true) : isSpace c = true := by
  simp only [Char.isWhitespace, Bool.or_eq_true, decide_eq_true_eq] at h
  rcases h with ((rfl | rfl) | rfl) | rfl <;> decide

end Blank

end FailurePipeline
