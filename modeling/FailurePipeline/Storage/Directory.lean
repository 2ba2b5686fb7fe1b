import FailurePipeline.Storage.Error
import FailurePipeline.Storage.FileTree

/-!
# Stores in a directory

A directory serves as a store: an object is the file with the names of its path below the directory.  A file
is written beside its place first, under its name with `#` and a number, and then moved there; such names are
no objects.
-/

namespace FailurePipeline

namespace DirectoryStore

/-- Whether a name ends in `#` and a number, which marks a file that is being written. -/
def isStaged (name : String) : Bool :=
  match name.toList.dropWhile (· != '#') with
  | _ :: c :: cs => (c :: cs).all (·.isDigit)
  | _ => false

/-- Whether a path can name an object of a directory. -/
def isObject (p : ObjectPath) : Bool :=
  match p.parts.getLast? with
  | some name => !isStaged name
  | none => false

def place (root : List String) (p : ObjectPath) : List String := root ++ p.parts

def put (t : FileTree) (root : List String) (p : ObjectPath) (octets : Bytes) :
    Except StorageError FileTree :=
  match isObject p, p.parts.getLast? with
  | true, some name =>
    if name.utf8ByteSize + 2 > FileTree.maxName then .error (.store .other)
    else
      match t.makeReversed (place root p).dropLast.reverse with
      | .error _ => .error (.store .other)
      | .ok t =>
        match t.entry? (place root p) with
        | some .directory => .error (.store .other)
        | _ => .ok (t.set (place root p) (.file octets))
  | _, _ => .error (.store .other)

def get (t : FileTree) (root : List String) (p : ObjectPath) : Except StorageError Bytes :=
  if isObject p then
    match t.lookup (place root p) with
    | .ok (.file octets) => .ok octets
    | .ok .directory => .error (.store .notFound)
    | .error .notFound => .error (.store .notFound)
    | .error _ => .error (.store .other)
  else .error (.store .other)

/-- The objects below a path. -/
def list (t : FileTree) (root : List String) (base : ObjectPath) : Except StorageError (List ObjectPath) :=
  let paths := (t.files (place root base)).map fun f => (⟨f.1⟩ : ObjectPath)
  if paths.all fun p => p.parts.all fun n => ObjectPath.isPart n.toList then .ok (paths.filter isObject)
  else .error (.store .invalidPath)

end DirectoryStore

end FailurePipeline
