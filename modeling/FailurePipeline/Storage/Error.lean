/-!
# What goes wrong in a store
-/

namespace FailurePipeline

/-- A fault of a store that has been opened or is being set up. -/
inductive StoreFault where
  | notFound
  | invalidPath
  | alreadyExists
  | notSupported
  | other
  deriving Repr, DecidableEq, Inhabited

def StoreFault.message : StoreFault → String
  | .notFound => "object not found"
  | .invalidPath => "object with an invalid path"
  | .alreadyExists => "object already exists"
  | .notSupported => "operation not supported"
  | .other => "store failure"

inductive StorageError where
  | invalidUrl (url reason : String)
  | store (fault : StoreFault)
  | io (reason : String)
  deriving Repr, DecidableEq, Inhabited

def StorageError.message : StorageError → String
  | .invalidUrl url reason => s!"Invalid storage URL {url}: {reason}"
  | .store fault => s!"Storage operation failed: {fault.message}"
  | .io reason => s!"IO error: {reason}"

end FailurePipeline
