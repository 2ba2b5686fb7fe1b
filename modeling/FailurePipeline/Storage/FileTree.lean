import FailurePipeline.Storage.Path

/-!
# Trees of files

A `FileTree` holds files and directories by the names that lead to them from the root.  A path is walked name
by name, `..` goes back up, and a file has nothing below it.
-/

namespace FailurePipeline

inductive FileError where
  | notFound
  | notDirectory
  | isDirectory
  | alreadyExists
  | nameTooLong
  | nulInName
  deriving Repr, DecidableEq, Inhabited

def FileError.message : FileError → String
  | .notFound => "No such file or directory (os error 2)"
  | .notDirectory => "Not a directory (os error 20)"
  | .isDirectory => "Is a directory (os error 21)"
  | .alreadyExists => "File exists (os error 17)"
  | .nameTooLong => "File name too long (os error 36)"
  | .nulInName => "file name contained an unexpected NUL byte"

inductive FileEntry where
  | file (octets : Bytes)
  | directory
  deriving Repr, DecidableEq, Inhabited

structure FileTree where
  entries : List (List String × FileEntry) := []
  deriving Repr, DecidableEq, Inhabited

namespace FileTree

/-- The longest name, in octets. -/
def maxName : Nat := 255

/-- The names in a written path; empty ones and those that stay in place are left out. -/
def names (path : String) : List String :=
  (((path.toList.splitOnP (· == '/')).filter fun n => !n.isEmpty && n != ['.'])).map String.ofList

/-- Whether a written path says that it leads to a directory. -/
def namesDirectory (path : String) : Bool :=
  match (path.toList.splitOnP (· == '/')).getLast? with
  | some last => last == [] || last == ['.']
  | none => false

/-- What is at a place; the root is a directory. -/
def entry? (t : FileTree) (place : List String) : Option FileEntry :=
  if place.isEmpty then some .directory else (t.entries.find? (·.1 == place)).map (·.2)

/-- Puts an entry at a place. -/
def set (t : FileTree) (place : List String) (e : FileEntry) : FileTree :=
  if place.isEmpty then t else ⟨t.entries.filter (·.1 != place) ++ [(place, e)]⟩

/-- The place that names lead to from a directory.  All but the last have to be there. -/
def walk (t : FileTree) (place : List String) : List String → Except FileError (List String)
  | [] => .ok place
  | name :: rest =>
    if name == ".." then walk t place.dropLast rest
    else if name.utf8ByteSize > maxName then .error .nameTooLong
    else if rest.isEmpty then .ok (place ++ [name])
    else
      match t.entry? (place ++ [name]) with
      | some .directory => walk t (place ++ [name]) rest
      | some (.file _) => .error .notDirectory
      | none => .error .notFound

/-- What names lead to. -/
def lookup (t : FileTree) (ns : List String) : Except FileError FileEntry :=
  match t.walk [] ns with
  | .error e => .error e
  | .ok place => (t.entry? place).elim (.error .notFound) .ok

/-- Reads the file at a path. -/
def read (t : FileTree) (path : String) : Except FileError Bytes :=
  if path.toList.contains '\x00' then .error .nulInName
  else if path.isEmpty then .error .notFound
  else
    match t.lookup (names path) with
    | .error e => .error e
    | .ok .directory => .error .isDirectory
    | .ok (.file octets) => if namesDirectory path then .error .notDirectory else .ok octets

/-- Makes a directory in one that is there. -/
def makeDirectory (t : FileTree) (ns : List String) : Except FileError FileTree :=
  match t.walk [] ns with
  | .error e => .error e
  | .ok place =>
    match t.entry? place with
    | some _ => .error .alreadyExists
    | none => .ok (t.set place .directory)

/-- Makes the directory that names lead to, given in reverse, and first those above it that are missing. -/
def makeReversed (t : FileTree) : (reversed : List String) → Except FileError FileTree
  | [] => .ok t
  | last :: before =>
    let ns := (last :: before).reverse
    let settle (t : FileTree) (e : FileError) : Except FileError FileTree :=
      match t.lookup ns with
      | .ok .directory => .ok t
      | _ => .error e
    match t.makeDirectory ns with
    | .ok t => .ok t
    | .error .notFound =>
      match makeReversed t before with
      | .error e => .error e
      | .ok t =>
        match t.makeDirectory ns with
        | .ok t => .ok t
        | .error e => settle t e
    | .error e => settle t e

/-- Makes a directory and those above it, unless they are there. -/
def makeDirectories (t : FileTree) (path : String) : Except FileError FileTree :=
  if path.toList.contains '\x00' then .error .nulInName else t.makeReversed (names path).reverse

/-- The places of the files below a directory, relative to it. -/
def files (t : FileTree) (root : List String) : List (List String × Bytes) :=
  t.entries.filterMap fun (place, e) =>
    match e with
    | .file octets =>
      if root.isPrefixOf place ∧ root.length < place.length then some (place.drop root.length, octets)
      else none
    | .directory => none

end FileTree

end FailurePipeline
