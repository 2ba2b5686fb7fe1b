import FailurePipeline.Storage.Directory
import FailurePipeline.Storage.Location
import FailurePipeline.Storage.Memory

/-!
# Storage providers

A `Provider` gives access to the objects below one path of a store, under paths relative to it.  The stores
themselves are kept in a `Depot`, which several providers may share.  A store that is reached over the network is a
map like a store in memory; whether it keeps what it is asked to keep is not decided here: any store may refuse at
any time (`Provider.offer`).
-/

namespace FailurePipeline

/-- What keeps the objects of a provider. -/
inductive Backend where
  | directory (root : List String)
  /-- The store in memory with this number. -/
  | memory (slot : Nat)
  /-- The remote store that this names. -/
  | remote (store : String)
  deriving Repr, DecidableEq, Inhabited

structure Provider where
  backend : Backend
  /-- The path below which the objects are. -/
  base : ObjectPath
  /-- The location as it is shown. -/
  url : String
  deriving Repr, DecidableEq, Inhabited

/-- All files, all stores in memory and all remote stores. -/
structure Depot where
  disk : FileTree := {}
  memories : List Memory := []
  /-- The objects of remote stores, each below the name of its store. -/
  elsewhere : Memory := .empty
  deriving Repr, DecidableEq, Inhabited

namespace Depot

/-- Opens the store at a location; a directory is made, a store in memory is new. -/
def openStore (d : Depot) (url : String) (options : StoreOptions) :
    Except StorageError (Provider × Depot) :=
  match Location.ofUrl url options with
  | .error e => .error e
  | .ok (.directory path) =>
    match d.disk.makeDirectories path with
    | .error e => .error (.io e.message)
    | .ok disk =>
      if path.isEmpty then .error (.store .other)
      else
        match disk.walk [] (FileTree.names path) with
        | .ok root => .ok (⟨.directory root, .root, "file://" ++ path⟩, { d with disk := disk })
        | .error _ => .error (.store .other)
  | .ok (.files base) => .ok (⟨.directory [], base, url⟩, d)
  | .ok (.memory base) =>
    .ok (⟨.memory d.memories.length, base, url⟩, { d with memories := d.memories ++ [.empty] })
  | .ok (.remote store base) => .ok (⟨.remote store, base, url⟩, d)

end Depot

namespace Provider

/-- The full path of an object. -/
def qualify (p : Provider) (path : ObjectPath) : ObjectPath := p.base.below path

/-- The path of an object among those of all remote stores. -/
def qualifyIn (p : Provider) (store : String) (path : ObjectPath) : ObjectPath :=
  ObjectPath.below ⟨[store]⟩ (p.qualify path)

def summary (p : Provider) : String := s!"StorageProvider<{p.url}>"

/-- Keeps octets under a path, in place of what was there. -/
def put (p : Provider) (d : Depot) (path : ObjectPath) (octets : Bytes) : Except StorageError Depot :=
  match p.backend with
  | .directory root =>
    match DirectoryStore.put d.disk root (p.qualify path) octets with
    | .ok disk => .ok { d with disk := disk }
    | .error e => .error e
  | .memory slot =>
    match d.memories[slot]? with
    | some m => .ok { d with memories := d.memories.set slot (m.put (p.qualify path) octets) }
    | none => .error (.store .other)
  | .remote store => .ok { d with elsewhere := d.elsewhere.put (p.qualifyIn store path) octets }

/-- Asks a store to keep octets under a path.  It may refuse for a reason of its own, and is left as it was then. -/
def offer (p : Provider) (refusal : Option StorageError) (d : Depot) (path : ObjectPath) (octets : Bytes) :
    Except StorageError Depot :=
  match refusal with
  | some e => .error e
  | none => p.put d path octets

def get (p : Provider) (d : Depot) (path : ObjectPath) : Except StorageError Bytes :=
  match p.backend with
  | .directory root => DirectoryStore.get d.disk root (p.qualify path)
  | .memory slot =>
    match d.memories[slot]? with
    | some m => (m.get? (p.qualify path)).elim (.error (.store .notFound)) .ok
    | none => .error (.store .other)
  | .remote store => (d.elsewhere.get? (p.qualifyIn store path)).elim (.error (.store .notFound)) .ok

/-- The relative paths of all objects, in order. -/
def list (p : Provider) (d : Depot) : Except StorageError (List ObjectPath) :=
  match p.backend with
  | .directory root =>
    match DirectoryStore.list d.disk root p.base with
    | .ok paths => .ok (ObjectPath.sort paths)
    | .error e => .error e
  | .memory slot =>
    match d.memories[slot]? with
    | some m => .ok (ObjectPath.sort (m.list p.base))
    | none => .error (.store .other)
  | .remote store => .ok (ObjectPath.sort (d.elsewhere.list (.below ⟨[store]⟩ p.base)))

end Provider

end FailurePipeline
