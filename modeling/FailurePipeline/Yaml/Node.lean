import FailurePipeline.Yaml.Scanner

/-!
# The tree of a document

`Document.ofText` builds the tree of a text's first document.  Where the text breaks off, the tree ends in
`broken` leaves, so that whoever walks it in order learns as much of the document as has been read.

An anchor gives its node a number, by which aliases refer to it: the number of different names that were in
use before it.  When a name is given twice, a later name can get the same number; the node that begins last
then has it.
-/

namespace FailurePipeline

namespace Yaml

inductive Node where
  | scalar (mark : Mark) (tag : Option (List Char)) (text : String) (style : Style)
  | sequence (mark : Mark) (tag : Option (List Char)) (items : List Node)
  | mapping (mark : Mark) (tag : Option (List Char)) (entries : List (Node × Node))
  | alias (number : Nat)
  /-- A document without any content. -/
  | void (mark : Mark)
  /-- The text breaks off here. -/
  | broken
  deriving Inhabited

/-- A node with an anchor. -/
structure Anchored where
  number : Nat
  /-- How many tokens were left when the node began. -/
  left : Nat
  node : Node
  deriving Inhabited

/-- What is left to read, and what has been met on the way. -/
structure Reading where
  lexemes : List Lexeme
  handles : List (List Char × List Char) := []
  names : List (List Char × Nat) := []
  anchored : List Anchored := []
  intact : Bool := true
  deriving Inhabited

namespace Reading

def peek? (r : Reading) : Option Token := r.lexemes.head?.map (·.token)

def drop (r : Reading) : Reading := { r with lexemes := r.lexemes.drop 1 }

def start (r : Reading) : Mark := (r.lexemes.head?.map (·.start)).getD {}

def finish (r : Reading) : Mark := (r.lexemes.head?.map (·.finish)).getD {}

def fail (r : Reading) : Reading := { r with intact := false }

/-- Whether the next token is one of some. -/
def isAt (r : Reading) (ts : List Token) : Bool := r.peek?.any ts.contains

/-- Gives a name the next number. -/
def bind (r : Reading) (name : List Char) : Reading :=
  { r with names := (name, r.names.length) :: r.names.filter (·.1 != name) }

end Reading

def emptyScalar (mark : Mark) : Node := .scalar mark none "" .plain

/-- The full text of a tag. -/
def expandTag? (handles : List (List Char × List Char)) (handle suffix : List Char) : Option (List Char) :=
  if handle.isEmpty then some suffix else (handles.find? (·.1 == handle)).map (·.2 ++ suffix)

/-- Anchor and tag of a node. -/
structure Properties where
  anchor : Option (List Char) := none
  tag : Option (List Char × List Char) := none
  deriving Inhabited

/-- Reads an anchor and a tag, in either order, each at most once. -/
def readProperties (r : Reading) : Properties × Reading :=
  match r.peek? with
  | some (.anchor name) =>
    match r.drop.peek? with
    | some (.tag handle suffix) => (⟨some name, some (handle, suffix)⟩, r.drop.drop)
    | _ => (⟨some name, none⟩, r.drop)
  | some (.tag handle suffix) =>
    match r.drop.peek? with
    | some (.anchor name) => (⟨some name, some (handle, suffix)⟩, r.drop.drop)
    | _ => (⟨none, some (handle, suffix)⟩, r.drop)
  | _ => ({}, r)

mutual

/-- A node.  Block collections are read if `block`, and a sequence without indentation of its own if
`indentless`. -/
def readNode : (bound : Nat) → (block indentless : Bool) → Reading → Node × Reading
  | 0, _, _, r => (.broken, r.fail)
  | bound + 1, block, indentless, r =>
    match r.peek? with
    | none => (.broken, r.fail)
    | some (.alias name) =>
      match r.names.find? (·.1 == name) with
      | some (_, number) => (.alias number, r.drop)
      | none => (.broken, r.fail)
    | some _ =>
      let mark := r.start
      let left := r.lexemes.length
      let (properties, r) := readProperties r
      match properties.tag, properties.tag.bind fun t => expandTag? r.handles t.1 t.2 with
      | some _, none => (.broken, r.fail)
      | _, tag =>
        let number := r.names.length
        let bound' := bound
        let named := match properties.anchor with
          | some name => r.bind name
          | none => r
        let (node, r) : Node × Reading :=
          match r.peek? with
          | none => (.broken, r.fail)
          | some (.scalar text style) =>
            (.scalar mark (if tag == some ['!'] then none else tag) (String.ofList text) style, named.drop)
          | some .flowSequenceStart =>
            let (items, r) := readFlowItems bound' true named.drop
            (.sequence mark tag items, r)
          | some .flowMappingStart =>
            let (entries, r) := readFlowEntries bound' true named.drop
            (.mapping mark tag entries, r)
          | some t =>
            if indentless && t == .blockEntry then
              let (items, r) := readIndentlessItems bound' named
              (.sequence mark tag items, r)
            else if block && t == .blockSequenceStart then
              let (items, r) := readBlockItems bound' named.drop
              (.sequence mark tag items, r)
            else if block && t == .blockMappingStart then
              let (entries, r) := readBlockEntries bound' named.drop
              (.mapping mark tag entries, r)
            else if properties.anchor.isSome || tag.isSome then (.scalar mark tag "" .plain, named)
            else (.broken, r.fail)
        match properties.anchor with
        | some _ => (node, { r with anchored := ⟨number, left, node⟩ :: r.anchored })
        | none => (node, r)

/-- The items of a block sequence with its end. -/
def readBlockItems : (bound : Nat) → Reading → List Node × Reading
  | 0, r => ([.broken], r.fail)
  | bound + 1, r =>
    match r.peek? with
    | some .blockEntry =>
      let mark := r.finish
      let r := r.drop
      let (item, r) :=
        if r.isAt [.blockEntry, .blockEnd] then (emptyScalar mark, r) else readNode bound true false r
      if r.intact then
        let (items, r) := readBlockItems bound r
        (item :: items, r)
      else ([item, .broken], r)
    | some .blockEnd => ([], r.drop)
    | _ => ([.broken], r.fail)

/-- The items of a sequence that is not indented more than the mapping it stands in. -/
def readIndentlessItems : (bound : Nat) → Reading → List Node × Reading
  | 0, r => ([.broken], r.fail)
  | bound + 1, r =>
    match r.peek? with
    | some .blockEntry =>
      let mark := r.finish
      let r := r.drop
      let (item, r) :=
        if r.isAt [.blockEntry, .key, .value, .blockEnd] then (emptyScalar mark, r)
        else readNode bound true false r
      if r.intact then
        let (items, r) := readIndentlessItems bound r
        (item :: items, r)
      else ([item, .broken], r)
    | some _ => ([], r)
    | none => ([.broken], r.fail)

/-- The entries of a block mapping with its end. -/
def readBlockEntries : (bound : Nat) → Reading → List (Node × Node) × Reading
  | 0, r => ([(.broken, .broken)], r.fail)
  | bound + 1, r =>
    match r.peek? with
    | some .key =>
      let mark := r.finish
      let r := r.drop
      let (key, r) :=
        if r.isAt [.key, .value, .blockEnd] then (emptyScalar mark, r) else readNode bound true true r
      if r.intact then
        let (value, r) : Node × Reading :=
          match r.peek? with
          | some .value =>
            let mark := r.finish
            let r := r.drop
            if r.isAt [.key, .value, .blockEnd] then (emptyScalar mark, r) else readNode bound true true r
          | some _ => (emptyScalar r.start, r)
          | none => (.broken, r.fail)
        if r.intact then
          let (entries, r) := readBlockEntries bound r
          ((key, value) :: entries, r)
        else ([(key, value), (.broken, .broken)], r)
      else ([(key, .broken)], r)
    | some .blockEnd => ([], r.drop)
    | _ => ([(.broken, .broken)], r.fail)

/-- The items of a flow sequence with its end.  An item may be a single entry of a mapping. -/
def readFlowItems : (bound : Nat) → (first : Bool) → Reading → List Node × Reading
  | 0, _, r => ([.broken], r.fail)
  | bound + 1, first, r =>
    match r.peek? with
    | none => ([.broken], r.fail)
    | some .flowSequenceEnd => ([], r.drop)
    | some t =>
      if !first && t != .flowEntry then ([.broken], r.fail)
      else
        let r := if first then r else r.drop
        match r.peek? with
        | none => ([.broken], r.fail)
        | some .flowSequenceEnd => ([], r.drop)
        | some .key =>
          let mark := r.start
          let (entry, r) := readSingleEntry bound r.drop
          let item := Node.mapping mark none (if r.intact then [entry] else [entry, (.broken, .broken)])
          if r.intact then
            let (items, r) := readFlowItems bound false r
            (item :: items, r)
          else ([item, .broken], r)
        | some _ =>
          let (item, r) := readNode bound false false r
          if r.intact then
            let (items, r) := readFlowItems bound false r
            (item :: items, r)
          else ([item, .broken], r)

/-- A single entry of a mapping inside a flow sequence, after its key indicator. -/
def readSingleEntry : (bound : Nat) → Reading → (Node × Node) × Reading
  | 0, r => ((.broken, .broken), r.fail)
  | bound + 1, r =>
    match r.peek? with
    | none => ((.broken, .broken), r.fail)
    | some _ =>
      let (key, r) :=
        if r.isAt [.value, .flowEntry, .flowSequenceEnd] then (emptyScalar r.finish, r.drop)
        else readNode bound false false r
      if !r.intact then ((key, .broken), r)
      else
        match r.peek? with
        | none => ((key, .broken), r.fail)
        | some .value =>
          let r := r.drop
          match r.peek? with
          | none => ((key, .broken), r.fail)
          | some t =>
            if t == .flowEntry || t == .flowSequenceEnd then ((key, emptyScalar r.start), r)
            else
              let (value, r) := readNode bound false false r
              ((key, value), r)
        | some _ => ((key, emptyScalar r.start), r)

/-- The entries of a flow mapping with its end. -/
def readFlowEntries : (bound : Nat) → (first : Bool) → Reading → List (Node × Node) × Reading
  | 0, _, r => ([(.broken, .broken)], r.fail)
  | bound + 1, first, r =>
    match r.peek? with
    | none => ([(.broken, .broken)], r.fail)
    | some .flowMappingEnd => ([], r.drop)
    | some t =>
      if !first && t != .flowEntry then ([(.broken, .broken)], r.fail)
      else
        let r := if first then r else r.drop
        match r.peek? with
        | none => ([(.broken, .broken)], r.fail)
        | some .flowMappingEnd => ([], r.drop)
        | some t =>
          let explicit := t == .key
          let r := if explicit then r.drop else r
          let (key, r) :=
            if explicit && r.isAt [.value, .flowEntry, .flowMappingEnd] then (emptyScalar r.start, r)
            else readNode bound false false r
          if !r.intact then ([(key, .broken)], r)
          else
            let (value, r) : Node × Reading :=
              match r.peek? with
              | none => (.broken, r.fail)
              | some .value =>
                if explicit then
                  let r := r.drop
                  match r.peek? with
                  | none => (.broken, r.fail)
                  | some t =>
                    if t == .flowEntry || t == .flowMappingEnd then (emptyScalar r.start, r)
                    else readNode bound false false r
                else (emptyScalar r.start, r)
              | some _ => (emptyScalar r.start, r)
            if r.intact then
              let (entries, r) := readFlowEntries bound false r
              ((key, value) :: entries, r)
            else ([(key, value), (.broken, .broken)], r)

end

/-! ## Documents -/

def defaultHandles : List (List Char × List Char) :=
  [("!".toList, "!".toList), ("!!".toList, "tag:yaml.org,2002:".toList)]

/-- The directives before a document: at most one version, which is 1.1 or 1.2, and no handle twice. -/
def readDirectives : (bound : Nat) → (version : Bool) → Reading → Reading
  | 0, _, r => r.fail
  | bound + 1, version, r =>
    match r.peek? with
    | some (.versionDirective major minor) =>
      if version || major != 1 || (minor != 1 && minor != 2) then r.fail else readDirectives bound true r.drop
    | some (.tagDirective handle start) =>
      if r.handles.any (·.1 == handle) then r.fail
      else readDirectives bound version { r.drop with handles := (handle, start) :: r.handles }
    | _ => { r with handles := r.handles ++ defaultHandles.filter fun h => !r.handles.any (·.1 == h.1) }

structure Document where
  root : Node
  anchored : List Anchored
  /-- Whether the document has been read to its end. -/
  intact : Bool
  /-- Whether anything follows the document. -/
  followed : Bool
  deriving Inhabited

namespace Document

/-- The node that an alias refers to; any other node is itself. -/
def resolve (d : Document) : Node → Node
  | .alias number =>
    (((d.anchored.filter (·.number == number)).mergeSort (fun a b => a.left ≤ b.left)).head?.map
      (·.node)).getD .broken
  | n => n

/-- The document after its root has been read. -/
def close (root : Node) (r : Reading) : Document :=
  match r.intact, r.peek? with
  | true, some t =>
    let rest := (if t == .documentEnd then r.drop else r).lexemes.dropWhile (·.token == .documentEnd)
    ⟨root, r.anchored, true, !(rest.head?.any (·.token == .streamEnd))⟩
  | _, _ => ⟨root, r.anchored, false, false⟩

def ofReading (r : Reading) : Document :=
  let bound := 4 * r.lexemes.length + 16
  let node (r : Reading) : Document :=
    let (root, r) := readNode bound true false r
    close root r
  match r.peek? with
  | none => ⟨.broken, [], false, false⟩
  | some .streamEnd => ⟨.void r.start, [], true, false⟩
  | some _ =>
    let directives := readDirectives bound false r
    if !directives.intact then ⟨.broken, [], false, false⟩
    else if directives.isAt [.documentStart] then
      let r := directives.drop
      match r.peek? with
      | none => ⟨.broken, [], false, false⟩
      | some (.versionDirective ..) | some (.tagDirective ..) | some .documentStart | some .documentEnd
      | some .streamEnd => close (emptyScalar r.start) r
      | some _ => node r
    else if directives.lexemes.length < r.lexemes.length then ⟨.broken, [], false, false⟩
    else node directives

/-- The first document of a text. -/
def ofText (text : String) : Document := ofReading { lexemes := (scan text.toList).lexemes }

end Document

end Yaml

end FailurePipeline
