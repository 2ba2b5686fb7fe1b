import FailurePipeline.Storage.Error
import FailurePipeline.Storage.Options
import FailurePipeline.Storage.Path
import FailurePipeline.Storage.Url
import FailurePipeline.Text.Base64

/-!
# Where a store is

A store is named by a path on disk, by a `file://` path, or by a URL whose scheme says what keeps the objects.
What stands after the host is the path below which the objects are.
-/

namespace FailurePipeline

inductive Location where
  /-- A directory, which is made if it is missing. -/
  | directory (path : String)
  /-- A path below the root of all files. -/
  | files (base : ObjectPath)
  | memory (base : ObjectPath)
  /-- A path in a store that is reached over the network. -/
  | remote (store : String) (base : ObjectPath)
  deriving Repr, DecidableEq, Inhabited

namespace Location

/-- The text before the first `://`, and the text after it. -/
def splitScheme? : List Char → Option (List Char × List Char)
  | ':' :: '/' :: '/' :: rest => some ([], rest)
  | c :: rest => (splitScheme? rest).map fun (before, after) => (c :: before, after)
  | [] => none

/-- A key for signing requests needs its name, and the name needs the key. -/
def hasSigningPair (options : StoreOptions) : Bool :=
  options.isSet ["aws_access_key_id", "access_key_id"] ==
    options.isSet ["aws_secret_access_key", "secret_access_key"]

/-- Whether a bucket's name says that it is kept in one zone: it ends in `--`, the zone and `--x-s3`. -/
def isZonal (bucket : String) : Bool :=
  bucket.endsWith "--x-s3" && 2 ≤ ((bucket.dropEnd 6).toString.splitOn "--").length

/-- Whether the options of a bucket can be read and agree with its name. -/
def isSignable (bucket : String) (options : StoreOptions) : Bool :=
  let flags := ["virtual_hosted_style_request", "unsigned_payload", "skip_signature", "disable_tagging",
    "request_payer"]
  hasSigningPair options &&
    options.haveFlags (StoreOptions.connectionFlags ++ flags ++ "aws_allow_http" :: flags.map ("aws_" ++ ·)) &&
    match options.flag? ["aws_s3_express", "s3_express"] with
    | some express => !express || isZonal bucket
    | none => false

/-- Keys of an account come from the machine that the program runs on, never from an option. -/
def isKeyless (options : StoreOptions) : Bool :=
  !options.isSet ["google_service_account", "service_account", "google_service_account_path",
    "service_account_path", "google_service_account_key", "service_account_key",
    "google_application_credentials", "application_credentials"] &&
    options.haveFlags StoreOptions.connectionFlags

/-- The account at the beginning of a host in one of the given domains. -/
def accountOf? (domains : List String) (host : String) : Option String :=
  let name := host.toList.takeWhile (· != '.')
  let domain := String.ofList (host.toList.drop (name.length + 1))
  if domains.contains domain then some (String.ofList name) else none

/-- The first segment of a path, which may name a container. -/
def container (path : List Char) : List Char :=
  (if path.head? = some '/' then path.tail else path).takeWhile (· != '/')

/-- A path without its first segment. -/
def afterContainer (path : List Char) : List Char :=
  ((if path.head? = some '/' then path.tail else path).dropWhile (· != '/')).tail

/-- The name of an account, if the host or an option says it; a container's name has no dot. -/
def account? (url : Url) (host : String) (options : StoreOptions) : Option String :=
  if url.scheme == "https" then
    let isNamed := !(container url.path).isEmpty ||
      options.isSet ["azure_container_name", "container_name"]
    match accountOf? ["dfs.core.windows.net", "blob.core.windows.net"] host with
    | some name => if isNamed && !(container url.path).contains '.' then some name else none
    | none =>
      if isNamed then accountOf? ["dfs.fabric.microsoft.com", "blob.fabric.microsoft.com"] host else none
  else if (url.scheme == "abfs" || url.scheme == "abfss") && url.user != "" then
    if url.user.toList.contains '.' then none
    else accountOf? ["dfs.core.windows.net", "dfs.fabric.microsoft.com"] host
  else if host.toList.contains '.' then none
  else
    match options.get? ["azure_storage_account_name", "account_name"] with
    | some name => some name
    | none =>
      if options.flag? ["azure_storage_use_emulator", "use_emulator"] = some true then some "devstoreaccount1"
      else none

/-- Whether the secret of an account is readable, if one is given. -/
def hasReadableKey (options : StoreOptions) : Bool :=
  let names := ["azure_storage_account_key", "azure_storage_access_key", "azure_storage_master_key",
    "access_key", "account_key", "master_key"]
  match options.get? names with
  | some key => (Base64.decode? key.toList).isSome
  | none => true

def isAccountReachable (url : Url) (host : String) (options : StoreOptions) : Bool :=
  (account? url host options).isSome && hasReadableKey options &&
    options.haveFlags (["azure_storage_use_emulator", "use_emulator"] ++ StoreOptions.connectionFlags)

/-- The bucket that an address of the web names, and the path in it. -/
def bucket? (host : String) (path : List Char) : Option (String × List Char) :=
  let inPath := (String.ofList (container path), afterContainer path)
  match host.splitOn "." with
  | ["s3", _, "amazonaws", "com"] | [_, "r2", "cloudflarestorage", "com"] => some inPath
  | [bucket, "s3", _, "amazonaws", "com"] =>
    some (bucket, if bucket.startsWith "s3" then inPath.2 else path)
  | _ => none

/-- A remote store at a path, if it can be reached.  What the URL says before the path tells it from other stores. -/
def remote? (isReachable : Bool) (url : Url) (path : List Char) : Option ((ObjectPath → Location) × List Char) :=
  if isReachable then some (.remote (url.before path), path) else none

/-- The kind of a store, with the path before decoding. -/
def kind? (url : Url) (options : StoreOptions) : Option ((ObjectPath → Location) × List Char) :=
  match url.scheme, url.host with
  | "file", none => some (.files, url.path)
  | "memory", none => some (.memory, url.path)
  | "s3", some bucket | "s3a", some bucket => remote? (isSignable bucket options) url url.path
  | "gs", some _ => remote? (isKeyless options) url url.path
  | "az", some host => remote? (isAccountReachable url host options) url (afterContainer url.path)
  | "adl", some host | "azure", some host | "abfs", some host | "abfss", some host =>
    remote? (isAccountReachable url host options) url url.path
  | "https", some host =>
    match bucket? host url.path with
    | some (bucket, path) => remote? (isSignable bucket options) url path
    | none => remote? (isAccountReachable url host options) url (afterContainer url.path)
  | _, _ => none

/-- The location that a URL and its options name. -/
def ofUrl (text : String) (options : StoreOptions) : Except StorageError Location :=
  match splitScheme? text.toList with
  | none => .ok (.directory text)
  | some (scheme, rest) =>
    if scheme == "file".toList then .ok (.directory (String.ofList rest))
    else
      match Url.parse text with
      | .error f => .error (.invalidUrl text f.message)
      | .ok url =>
        match kind? url options with
        | none => .error (.store .other)
        | some (place, path) =>
          match (Utf8.decode? (Percent.decode (Utf8.encodeChars path))).bind (ObjectPath.read? ·.toList) with
          | some base => .ok (place base)
          | none => .error (.store .other)

end Location

end FailurePipeline
