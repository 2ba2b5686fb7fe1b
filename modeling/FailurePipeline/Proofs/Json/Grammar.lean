import FailurePipeline.Json.Reader

/-!
# The grammar of JSON

A `Tree` is what the grammar derives one value from: it keeps every choice that the text shows, down to the blanks and
the case of letters, and can be built only where the grammar allows it.  A `Document` is a tree with blanks around it,
and `Document.octets` is its text.

The grammar puts no limit on a text.  What a tree means to a decoder with limits is `Tree.value?`; it has a value
exactly if it keeps to three of them (`Tree.isSome_value?`): it is not nested too deep, every number is in range, and
the surrogates in its strings come in pairs.
-/

namespace FailurePipeline

namespace Json

/-! ## Blanks and words -/

inductive Space where
  | space
  | tab
  | lineFeed
  | carriageReturn
  deriving DecidableEq

def Space.char : Space → Char
  | .space => ' '
  | .tab => '\t'
  | .lineFeed => '\n'
  | .carriageReturn => '\r'

/-- What may stand between two tokens. -/
abbrev Gap := List Space

def Gap.chars (g : Gap) : List Char := g.map Space.char

inductive Word where
  | null
  | true
  | false
  deriving DecidableEq

def Word.chars : Word → List Char
  | .null => ['n', 'u', 'l', 'l']
  | .true => ['t', 'r', 'u', 'e']
  | .false => ['f', 'a', 'l', 's', 'e']

def Word.value : Word → Value
  | .null => .null
  | .true => .bool Bool.true
  | .false => .bool Bool.false

/-! ## Numbers -/

/-- One digit or more. -/
structure Figures where
  first : Fin 10
  rest : List (Fin 10)
  deriving DecidableEq

namespace Figures

variable (f : Figures)

def digits : List (Fin 10) := f.first :: f.rest

def chars : List Char := f.digits.map fun d : Fin 10 => Nat.digitChar d

def values : List Nat := f.digits.map Fin.val

end Figures

/-- The digits of a whole number, which begin with a zero only if that is all. -/
structure Whole extends Figures where
  unpadded : first = 0 → rest = []
  deriving DecidableEq

/-- A number of one digit. -/
def Whole.single (d : Fin 10) : Whole := ⟨⟨d, []⟩, fun _ => rfl⟩

inductive Sign where
  | plus
  | minus
  deriving DecidableEq

def Sign.char : Sign → Char
  | .plus => '+'
  | .minus => '-'

structure Exponent where
  capital : Bool
  sign : Option Sign
  figures : Figures
  deriving DecidableEq

namespace Exponent

variable (e : Exponent)

def chars : List Char := (if e.capital then 'E' else 'e') :: (e.sign.map Sign.char).toList ++ e.figures.chars

def isNegative : Bool := e.sign == some .minus

/-- The number that the digits spell. -/
def magnitude : Nat := Digits.ofDigits 10 e.figures.values

/-- The exponent with its sign. -/
def value : Int := if e.isNegative then -(e.magnitude : Int) else e.magnitude

end Exponent

structure Numeral where
  negative : Bool
  whole : Whole
  fraction : Option Figures
  exponent : Option Exponent
  deriving DecidableEq

namespace Numeral

variable (n : Numeral)

def fractionChars : List Char :=
  match n.fraction with
  | none => []
  | some f => '.' :: f.chars

def exponentChars : List Char :=
  match n.exponent with
  | none => []
  | some e => e.chars

/-- A numeral without its sign. -/
def unsigned : List Char := n.whole.chars ++ n.fractionChars ++ n.exponentChars

def chars : List Char := if n.negative then '-' :: n.unsigned else n.unsigned

/-- The digits after the point. -/
def fractionValues : List Nat :=
  match n.fraction with
  | none => []
  | some f => f.values

/-- The number with an exponent, if it is in range. -/
def scaled? (e : Int) : Option Number :=
  let (m, scale) := significant n.whole.values n.fractionValues
  if outOfRange m (scale + e) then none else some (exact n.negative n.whole.values n.fractionValues e)

/-- The number that is spelled, if it is in range.  An exponent beyond 32 bits is taken for an infinite one. -/
def number? : Option Number :=
  match n.exponent with
  | none => n.scaled? 0
  | some e =>
    if e.magnitude < exponentLimit then n.scaled? e.value
    else if (significant n.whole.values n.fractionValues).1 ≠ 0 ∧ e.isNegative = false then none
    else some ⟨n.negative, 0, 0⟩

/-- A numeral that is not too large for a decoder. -/
def InRange : Prop := n.number?.isSome = true

end Numeral

/-! ## Strings -/

structure HexDigit where
  value : Fin 16
  capital : Bool
  deriving DecidableEq

def HexDigit.char (h : HexDigit) : Char :=
  if h.capital then (Nat.digitChar h.value).toUpper else Nat.digitChar h.value

/-- Four hexadecimal digits. -/
structure CodeUnit where
  a : HexDigit
  b : HexDigit
  c : HexDigit
  d : HexDigit
  deriving DecidableEq

namespace CodeUnit

variable (u : CodeUnit)

def chars : List Char := [u.a.char, u.b.char, u.c.char, u.d.char]

def value : Nat := ((u.a.value * 16 + u.b.value) * 16 + u.c.value) * 16 + u.d.value

def isLeading : Bool := Json.isLeading u.value

def isTrailing : Bool := Json.isTrailing u.value

/-- The character of two surrogates. -/
def pairChar (lead trail : CodeUnit) : Char :=
  Char.ofNat (0x10000 + (lead.value - 0xD800) * 0x400 + (trail.value - 0xDC00))

end CodeUnit

/-- The escapes of one letter. -/
inductive Escape where
  | quote
  | backslash
  | slash
  | backspace
  | formFeed
  | lineFeed
  | carriageReturn
  | tab
  deriving DecidableEq

namespace Escape

/-- What follows the backslash. -/
def letter : Escape → Char
  | .quote => '\x22'
  | .backslash => '\\'
  | .slash => '/'
  | .backspace => 'b'
  | .formFeed => 'f'
  | .lineFeed => 'n'
  | .carriageReturn => 'r'
  | .tab => 't'

/-- The character that is meant. -/
def char : Escape → Char
  | .quote => '\x22'
  | .backslash => '\\'
  | .slash => '/'
  | .backspace => '\x08'
  | .formFeed => '\x0c'
  | .lineFeed => '\n'
  | .carriageReturn => '\r'
  | .tab => '\t'

end Escape

/-- A character that may stand for itself in a string. -/
def IsPlain (c : Char) : Prop := 0x20 ≤ c.toNat ∧ c ≠ '\x22' ∧ c ≠ '\\'

instance (c : Char) : Decidable (IsPlain c) := inferInstanceAs (Decidable (_ ∧ _ ∧ _))

inductive Piece where
  | plain (c : Char) (h : IsPlain c)
  | escape (e : Escape)
  | unicode (u : CodeUnit)
  deriving DecidableEq

namespace Piece

def chars : Piece → List Char
  | .plain c _ => [c]
  | .escape e => ['\\', e.letter]
  | .unicode u => '\\' :: 'u' :: u.chars

def isSurrogate : Piece → Bool
  | .unicode u => u.isLeading || u.isTrailing
  | _ => false

end Piece

/-- What stands between the quotes of a string. -/
abbrev Pieces := List Piece

namespace Pieces

def chars (ps : Pieces) : List Char := ps.flatMap Piece.chars

/-- A string with its quotes. -/
def quoted (ps : Pieces) : List Char := '\x22' :: ps.chars ++ ['\x22']

/-- Every surrogate is one half of a pair. -/
inductive Paired : Pieces → Prop
  | nil : Paired []
  | cons {p : Piece} {ps : Pieces} (hp : p.isSurrogate = false) (h : Paired ps) : Paired (p :: ps)
  | pair {u v : CodeUnit} {ps : Pieces} (hu : u.isLeading = true) (hv : v.isTrailing = true) (h : Paired ps) :
    Paired (.unicode u :: .unicode v :: ps)

/-- The characters that are meant, if every surrogate has its other half. -/
def text? : Pieces → Option (List Char)
  | [] => some []
  | .plain c _ :: ps => (text? ps).map (c :: ·)
  | .escape e :: ps => (text? ps).map (e.char :: ·)
  | .unicode u :: ps =>
    if u.isTrailing then none
    else if u.isLeading then
      match ps with
      | .unicode v :: ps => if v.isTrailing then (text? ps).map (u.pairChar v :: ·) else none
      | _ => none
    else (text? ps).map (Char.ofNat u.value :: ·)

end Pieces

/-! ## Values -/

/-- The name of a member, with the blanks around it. -/
structure Name where
  before : Gap
  pieces : Pieces
  after : Gap
  deriving DecidableEq

def Name.chars (name : Name) : List Char := name.before.chars ++ name.pieces.quoted ++ name.after.chars

mutual

inductive Tree where
  | word (w : Word)
  | number (n : Numeral)
  | string (ps : Pieces)
  | emptyArray (inside : Gap)
  | array (items : Items)
  | emptyObject (inside : Gap)
  | object (members : Members)

/-- The items of an array, of which there is one at least. -/
inductive Items where
  | last (before : Gap) (value : Tree) (after : Gap)
  | more (before : Gap) (value : Tree) (after : Gap) (rest : Items)

/-- The members of an object, of which there is one at least. -/
inductive Members where
  | last (name : Name) (before : Gap) (value : Tree) (after : Gap)
  | more (name : Name) (before : Gap) (value : Tree) (after : Gap) (rest : Members)

end

mutual

def Tree.chars : Tree → List Char
  | .word w => w.chars
  | .number n => n.chars
  | .string ps => ps.quoted
  | .emptyArray inside => '[' :: inside.chars ++ [']']
  | .array items => '[' :: items.chars ++ [']']
  | .emptyObject inside => '\x7b' :: inside.chars ++ ['\x7d']
  | .object members => '\x7b' :: members.chars ++ ['\x7d']

def Items.chars : Items → List Char
  | .last before value after => before.chars ++ value.chars ++ after.chars
  | .more before value after rest => before.chars ++ value.chars ++ after.chars ++ ',' :: rest.chars

def Members.chars : Members → List Char
  | .last name before value after => name.chars ++ ':' :: before.chars ++ value.chars ++ after.chars
  | .more name before value after rest =>
    name.chars ++ ':' :: before.chars ++ value.chars ++ after.chars ++ ',' :: rest.chars

end

/-- A whole text: one value with blanks around it. -/
structure Document where
  before : Gap
  value : Tree
  after : Gap

namespace Document

variable (t : Document)

def chars : List Char := t.before.chars ++ t.value.chars ++ t.after.chars

/-- The text in UTF-8. -/
def octets : Bytes := Utf8.encodeChars t.chars

end Document

/-! ## What a tree means -/

mutual

/-- How deep arrays and objects are nested. -/
def Tree.depth : Tree → Nat
  | .word _ | .number _ | .string _ => 0
  | .emptyArray _ | .emptyObject _ => 1
  | .array items => items.depth + 1
  | .object members => members.depth + 1

def Items.depth : Items → Nat
  | .last _ value _ => value.depth
  | .more _ value _ rest => max value.depth rest.depth

def Members.depth : Members → Nat
  | .last _ _ value _ => value.depth
  | .more _ _ value _ rest => max value.depth rest.depth

end

mutual

def Tree.numerals : Tree → List Numeral
  | .number n => [n]
  | .word _ | .string _ | .emptyArray _ | .emptyObject _ => []
  | .array items => items.numerals
  | .object members => members.numerals

def Items.numerals : Items → List Numeral
  | .last _ value _ => value.numerals
  | .more _ value _ rest => value.numerals ++ rest.numerals

def Members.numerals : Members → List Numeral
  | .last _ _ value _ => value.numerals
  | .more _ _ value _ rest => value.numerals ++ rest.numerals

end

mutual

/-- All strings of a tree, the names of members included. -/
def Tree.strings : Tree → List Pieces
  | .string ps => [ps]
  | .word _ | .number _ | .emptyArray _ | .emptyObject _ => []
  | .array items => items.strings
  | .object members => members.strings

def Items.strings : Items → List Pieces
  | .last _ value _ => value.strings
  | .more _ value _ rest => value.strings ++ rest.strings

def Members.strings : Members → List Pieces
  | .last name _ value _ => name.pieces :: value.strings
  | .more name _ value _ rest => name.pieces :: (value.strings ++ rest.strings)

end

mutual

/-- The value of a tree for a decoder that follows it only so deep. -/
def Tree.value? : Tree → (depth : Nat) → Option Value
  | .word w, _ => some w.value
  | .number n, _ => n.number?.map .number
  | .string ps, _ => ps.text?.map fun cs => .string (String.ofList cs)
  | .emptyArray _, 0 | .array _, 0 | .emptyObject _, 0 | .object _, 0 => none
  | .emptyArray _, _ + 1 => some (.array [])
  | .array items, depth + 1 => (items.values? depth).map .array
  | .emptyObject _, _ + 1 => some (.object [])
  | .object members, depth + 1 => (members.values? depth).map .object

def Items.values? : Items → (depth : Nat) → Option (List Value)
  | .last _ value _, depth => (value.value? depth).map ([·])
  | .more _ value _ rest, depth => do
    let v ← value.value? depth
    let vs ← rest.values? depth
    some (v :: vs)

def Members.values? : Members → (depth : Nat) → Option (List (String × Value))
  | .last name _ value _, depth => do
    let cs ← name.pieces.text?
    let v ← value.value? depth
    some [(String.ofList cs, v)]
  | .more name _ value _ rest, depth => do
    let cs ← name.pieces.text?
    let v ← value.value? depth
    let ms ← rest.values? depth
    some ((String.ofList cs, v) :: ms)

end

/-- A document that keeps to the limits of a decoder. -/
structure Document.WithinLimits (t : Document) : Prop where
  depth : t.value.depth ≤ maxDepth
  numerals : ∀ n ∈ t.value.numerals, n.InRange
  strings : ∀ ps ∈ t.value.strings, ps.Paired

namespace Pieces

variable {ps : Pieces}

theorem isSome_text? (ps : Pieces) : ps.text?.isSome = true ↔ ps.Paired := by
  constructor
  · intro h
    fun_induction text? ps with
    | case1 => exact .nil
    | case2 c hc ps ih => exact .cons rfl (ih (by simpa using h))
    | case3 e ps ih => exact .cons rfl (ih (by simpa using h))
    | case4 u ps hu => simp at h
    | case5 u htrailing hleading v ps hv ih => exact .pair hleading hv (ih (by simpa using h))
    | case6 u htrailing hleading v ps hv => simp at h
    | case7 u ps htrailing hleading hps => simp at h
    | case8 u ps htrailing hleading ih =>
      exact .cons (by simp [Piece.isSurrogate, htrailing, hleading]) (ih (by simpa using h))
  · intro h
    induction h with
    | nil => rfl
    | @cons p ps hp h ih =>
      cases p with
      | plain c hc => simpa [text?] using ih
      | escape e => simpa [text?] using ih
      | unicode u =>
        simp only [Piece.isSurrogate, Bool.or_eq_false_iff] at hp
        rw [text?.eq_def]
        simpa [hp.1, hp.2] using ih
    | @pair u v ps hu hv h ih =>
      have hno : u.isTrailing = false := by
        simp only [CodeUnit.isLeading, Json.isLeading, Bool.and_eq_true, decide_eq_true_eq] at hu
        simp only [CodeUnit.isTrailing, Json.isTrailing, Bool.and_eq_false_iff, decide_eq_false_iff_not]
        omega
      simpa [text?, hno, hu, hv] using ih

end Pieces

private theorem isSome_both {α β γ : Type} (a : Option α) (b : Option β) (f : α → β → γ) :
    (do let x ← a; let y ← b; some (f x y)).isSome = true ↔ a.isSome = true ∧ b.isSome = true := by
  cases a <;> cases b <;> simp

private theorem isSome_all {α β γ δ : Type} (a : Option α) (b : Option β) (c : Option γ) (f : α → β → γ → δ) :
    (do let x ← a; let y ← b; let z ← c; some (f x y z)).isSome = true ↔
      a.isSome = true ∧ b.isSome = true ∧ c.isSome = true := by
  cases a <;> cases b <;> cases c <;> simp

attribute [simp] Tree.depth Items.depth Members.depth Tree.numerals Items.numerals Members.numerals Tree.strings
  Items.strings Members.strings Tree.value? Items.values? Members.values?

mutual

/-- A tree has a value exactly if it keeps to the limits. -/
theorem Tree.isSome_value? (t : Tree) (depth : Nat) :
    (t.value? depth).isSome = true ↔
      t.depth ≤ depth ∧ (∀ n ∈ t.numerals, n.InRange) ∧ ∀ ps ∈ t.strings, ps.Paired := by
  cases t with
  | word w => simp
  | number n => simp [Numeral.InRange]
  | string ps => simp [Pieces.isSome_text?]
  | emptyArray inside => cases depth <;> simp
  | array items =>
    cases depth with
    | zero => simp
    | succ depth => simpa using items.isSome_values? depth
  | emptyObject inside => cases depth <;> simp
  | object members =>
    cases depth with
    | zero => simp
    | succ depth => simpa using members.isSome_values? depth

theorem Items.isSome_values? (items : Items) (depth : Nat) :
    (items.values? depth).isSome = true ↔
      items.depth ≤ depth ∧ (∀ n ∈ items.numerals, n.InRange) ∧ ∀ ps ∈ items.strings, ps.Paired := by
  cases items with
  | last before value after => simpa using value.isSome_value? depth
  | more before value after rest =>
    rw [Items.values?, isSome_both, value.isSome_value? depth, rest.isSome_values? depth]
    simp only [Items.depth, Items.numerals, Items.strings, Nat.max_le, List.forall_mem_append]
    grind

theorem Members.isSome_values? (members : Members) (depth : Nat) :
    (members.values? depth).isSome = true ↔
      members.depth ≤ depth ∧ (∀ n ∈ members.numerals, n.InRange) ∧ ∀ ps ∈ members.strings, ps.Paired := by
  cases members with
  | last name before value after =>
    rw [Members.values?, isSome_both, name.pieces.isSome_text?, value.isSome_value? depth]
    simp only [Members.depth, Members.numerals, Members.strings, List.forall_mem_cons]
    grind
  | more name before value after rest =>
    rw [Members.values?, isSome_all, name.pieces.isSome_text?, value.isSome_value? depth,
      rest.isSome_values? depth]
    simp only [Members.depth, Members.numerals, Members.strings, Nat.max_le, List.forall_mem_cons,
      List.forall_mem_append]
    grind

end

end Json

end FailurePipeline
