import FailurePipeline.Yaml.Node
import FailurePipeline.Yaml.Plain

/-!
# Taking values out of a document

Each decoder walks a node in the order of the text and gives a value or the first refusal.  A refusal names
the path to the value; one that is raised without a place gets the place of the collection around it.
-/

namespace FailurePipeline

namespace Yaml

/-- Why a document was refused. -/
inductive Refusal where
  /-- The text is no document, or more than one. -/
  | malformed
  | unplaced (mismatch : Mismatch)
  | placed (path : String) (mark : Mark) (mismatch : Mismatch)
  deriving Repr, Inhabited

abbrev Decoded := Except Refusal

def refuse {α : Type} (m : Mismatch) : Decoded α := .error (.unplaced m)

/-- Gives a refusal without a place this one. -/
def placing {α : Type} (path : String) (mark : Mark) (d : Decoded α) : Decoded α :=
  match d with
  | .error (.unplaced m) => .error (.placed path mark m)
  | d => d

/-- The path to an entry of a mapping. -/
def child (path : String) (key : Option String) : String :=
  (if path.isEmpty then "" else path ++ ".") ++ key.getD "?"

/-- The path to an item of a sequence. -/
def indexed (path : String) (index : Nat) : String := s!"{path}[{index}]"

/-- The text before the last occurrence of another, or all of it. -/
def beforeLast (needle : List Char) : List Char → Option (List Char)
  | [] => if needle.isEmpty then some [] else none
  | c :: cs =>
    match beforeLast needle cs with
    | some head => some (c :: head)
    | none => if needle.isPrefixOf (c :: cs) then some [] else none

/-- The wording of a refusal, where it has one.  The place is not part of it; a refusal at the very beginning
has none, and is cut where a place would begin. -/
def Refusal.message? : Refusal → Option String
  | .malformed => none
  | .unplaced m => some m.message
  | .placed path mark m =>
    let text := if path.isEmpty then m.message else path ++ ": " ++ m.message
    if mark.line = 0 ∧ mark.column = 0 then
      some (((beforeLast " at line ".toList text.toList).map String.ofList).getD text)
    else some text

def coreTag (name : String) : List Char := ("tag:yaml.org,2002:" ++ name).toList

/-- What a scalar is called when it stands in the wrong place. -/
def scalarFound (tag : Option (List Char)) (text : String) (style : Style) (expected : String) : Mismatch :=
  let asText := Mismatch.invalidType (.text text) expected
  let untagged := if style == .plain then Mismatch.invalidType (Plain.resolve text) expected else asText
  match tag with
  | none => untagged
  | some tag =>
    if tag == coreTag "bool" then
      match Plain.bool? text with
      | some b => .invalidType (.boolean b) expected
      | none => .invalidValue (.text text) "a boolean"
    else if tag == coreTag "int" then
      match Plain.integer? text.toList with
      | some found => .invalidType found expected
      | none => .invalidValue (.text text) "an integer"
    else if tag == coreTag "float" then
      match Plain.float? text with
      | some x => .invalidType (.float (Plain.floatText x)) expected
      | none => .invalidValue (.text text) "a float"
    else if tag == coreTag "null" then
      if Plain.isNull text then .invalidType .nothing expected else .invalidValue (.text text) "null"
    else if tag.head? == some '!' then untagged
    else asText

/-- Refuses a node that is not what was expected. -/
def mismatch {α : Type} (path expected : String) : Node → Decoded α
  | .scalar mark tag text style => .error (.placed path mark (scalarFound tag text style expected))
  | .sequence mark _ _ => .error (.placed path mark (.invalidType .sequence expected))
  | .mapping mark _ _ => .error (.placed path mark (.invalidType .mapping expected))
  | _ => .error .malformed

namespace Document

/-- A text: any scalar. -/
def text (d : Document) (path : String) (n : Node) (expected : String := "a string") : Decoded String :=
  match d.resolve n with
  | .scalar _ _ text _ => .ok text
  | n => mismatch path expected n

/-- Whether a scalar may be read as a value of a core type. -/
def mayBe (tag : Option (List Char)) (style : Style) (type : String) : Bool :=
  style == .plain || (style == .literal && tag == some (coreTag type))

def bool (d : Document) (path : String) (n : Node) : Decoded Bool :=
  let n := d.resolve n
  match n with
  | .scalar _ tag text style =>
    match if mayBe tag style "bool" then Plain.bool? text else none with
    | some b => .ok b
    | none => mismatch path "a boolean" n
  | n => mismatch path "a boolean" n

/-- A natural number of at most 64 bits. -/
def word (d : Document) (path : String) (n : Node) (expected : String) : Decoded Nat :=
  let n := d.resolve n
  match n with
  | .scalar _ tag text style =>
    match if mayBe tag style "int" then Plain.natural? Plain.word text.toList else none with
    | some k => .ok k
    | none => mismatch path expected n
  | n => mismatch path expected n

/-- Whether a node stands for nothing; a null tag on any other text is refused. -/
def isNothing (d : Document) (n : Node) : Decoded Bool :=
  match d.resolve n with
  | .scalar _ tag text style =>
    if style != .plain then .ok false
    else
      match tag with
      | some tag =>
        if tag != coreTag "null" then .ok false
        else if Plain.isNull text then .ok true
        else refuse (.invalidValue (.text text) "null")
      | none => .ok (text.isEmpty || Plain.isNull text)
  | .void _ => .ok true
  | .broken => .error .malformed
  | _ => .ok false

/-- The items of a sequence; an empty plain scalar has none.  Each is decoded with its path. -/
def items {α : Type} (d : Document) (path : String) (n : Node) (item : String → Node → Decoded α) :
    Decoded (List α) :=
  match d.resolve n with
  | .sequence mark _ items => placing path mark ((items.zipIdx).mapM fun (n, i) => item (indexed path i) n)
  | .scalar mark tag text style =>
    if text.isEmpty && style == .plain then .ok []
    else mismatch path "a sequence" (.scalar mark tag text style)
  | .void _ => .ok []
  | n => mismatch path "a sequence" n

/-- The entries of a mapping with its place; an empty plain scalar has none. -/
def entries (d : Document) (path expected : String) (n : Node) : Decoded (Mark × List (Node × Node)) :=
  match d.resolve n with
  | .mapping mark _ entries => .ok (mark, entries)
  | .scalar mark tag text style =>
    if text.isEmpty && style == .plain then .ok (mark, [])
    else mismatch path expected (.scalar mark tag text style)
  | .void mark => .ok (mark, [])
  | n => mismatch path expected n

/-- The text of a key as it stands in the document. -/
def keyText? : Node → Option String
  | .scalar _ _ text _ => some text
  | _ => none

/-- A record: known fields, each at most once, in any order. -/
def fields {σ : Type} (d : Document) (path name : String) (known : List String)
    (set : σ → (field path : String) → Node → Decoded σ) (init : σ) (n : Node) :
    Decoded (σ × List String × Mark) := do
  let (mark, entries) ← d.entries path ("struct " ++ name) n
  let step (acc : σ × List String) (entry : Node × Node) : Decoded (σ × List String) := do
    let (key, value) := entry
    let field ← d.text path key "field identifier"
    let keyMark := match d.resolve key with
      | .scalar mark .. => mark
      | _ => {}
    if !known.contains field then .error (.placed path keyMark (.unknownField field known))
    else if acc.2.contains field then refuse (.duplicateField field)
    else
      let s ← set acc.1 field (child path (keyText? key)) value
      .ok (s, field :: acc.2)
  let (s, seen) ← placing path mark (entries.foldlM step (init, []))
  .ok (s, seen, mark)

/-- A mapping of texts to texts; of two entries with one key the later holds. -/
def texts (d : Document) (path : String) (n : Node) : Decoded (List (String × String)) := do
  let (mark, entries) ← d.entries path "a map" n
  let step (acc : List (String × String)) (entry : Node × Node) : Decoded (List (String × String)) := do
    let key ← d.text path entry.1
    let value ← d.text (child path (keyText? entry.1)) entry.2
    .ok (acc.filter (·.1 != key) ++ [(key, value)])
  placing path mark (entries.foldlM step [])

/-- A name: a scalar, or a tag on a node that stands for nothing. -/
def name (d : Document) (path : String) (known : List String) (n : Node) : Decoded String :=
  let n := d.resolve n
  let check (name : String) (place : Decoded String → Decoded String) : Decoded String :=
    if known.contains name then .ok name else place (refuse (.unknownVariant name known))
  let tagged (tag : List Char) : Decoded String := do
    let name ← check (String.ofList (if 1 < tag.length then tag.drop 1 else tag)) id
    match n with
    | .scalar mark _ text style =>
      if style == .plain && (text.isEmpty || Plain.isNull text) then .ok name
      else .error (.placed path mark (.invalidValue (.text text) "null"))
    | n => mismatch path "unit" n
  let own (tag : Option (List Char)) : Option (List Char) := tag.filter (·.head? == some '!')
  match n with
  | .scalar mark tag text _ =>
    match own tag with
    | some tag => tagged tag
    | none => check text (placing path mark)
  | .sequence mark tag _ =>
    match own tag with
    | some tag => tagged tag
    | none => .error (.placed path mark (.invalidType .sequence "a YAML tag starting with '!'"))
  | .mapping mark tag _ =>
    match own tag with
    | some tag => tagged tag
    | none => .error (.placed path mark (.invalidType .mapping "a YAML tag starting with '!'"))
  | _ => .error .malformed

/-- Decodes the root of a text that is one document. -/
def decode {α : Type} (text : String) (root : Document → Node → Decoded α) : Decoded α := do
  let d := ofText text
  let a ← root d d.root
  if d.intact && !d.followed then .ok a else .error .malformed

end Document

end Yaml

end FailurePipeline
