import FailurePipeline.Text.Percent

/-!
# Names of objects

An object is named by a path of parts, written with slashes between them.  `ObjectPath.ofText` makes a path of
any text: empty parts are dropped, and what a store may take amiss is written in percent encoding.
`ObjectPath.read?` reads a written path and refuses one with parts that no path has.
-/

namespace FailurePipeline

structure ObjectPath where
  parts : List String
  deriving Repr, DecidableEq, Inhabited

namespace ObjectPath

/-- The path of no parts. -/
def root : ObjectPath := ⟨[]⟩

def text (p : ObjectPath) : String := String.intercalate "/" p.parts

/-- Printable ASCII without the marks that stores advise against. -/
def isPlain (c : Char) : Bool :=
  ' ' ≤ c && c ≤ '\x7d' && !("\"#%*/<>?[\\]^\x60\x7b|\x7d".toList.contains c)

/-- The written form of a part; those that stand for a place in a tree are written in percent encoding. -/
def encodePart (part : List Char) : List Char :=
  match part with
  | ['.'] => Percent.octet 0x2E
  | ['.', '.'] => Percent.octet 0x2E ++ Percent.octet 0x2E
  | part => Percent.encode isPlain part

/-- The path that a text spells. -/
def ofText (text : String) : ObjectPath :=
  let parts := (text.toList.splitOnP (· == '/')).filter (!·.isEmpty)
  ⟨parts.map fun part => String.ofList (encodePart part)⟩

/-- Whether a written part is one: not empty, no place in a tree, and free of control characters. -/
def isPart (part : List Char) : Bool :=
  part != [] && part != ['.'] && part != ['.', '.'] && part.all fun c => ' ' ≤ c && c != '\x7f'

/-- Reads a written path, which may have a slash at either end. -/
def read? (text : List Char) : Option ObjectPath :=
  let text := if text.head? = some '/' then text.tail else text
  if text.isEmpty then some root
  else
    let parts := (if text.getLast? = some '/' then text.dropLast else text).splitOnP (· == '/')
    if parts.all isPart then some ⟨parts.map String.ofList⟩ else none

/-- A path below another one. -/
def below (base p : ObjectPath) : ObjectPath := ⟨base.parts ++ p.parts⟩

/-- The way from one path to another that lies properly below it. -/
def relative? (base p : ObjectPath) : Option ObjectPath :=
  if base.parts.isPrefixOf p.parts ∧ base.parts.length < p.parts.length then
    some ⟨p.parts.drop base.parts.length⟩
  else none

/-- Paths are listed in the order of their written forms. -/
def sort (ps : List ObjectPath) : List ObjectPath := ps.mergeSort fun a b => a.text ≤ b.text

end ObjectPath

end FailurePipeline
