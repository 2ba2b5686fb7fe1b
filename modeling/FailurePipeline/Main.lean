import FailurePipeline.CommandLine
import FailurePipeline.Program.Run
import Std.Time.DateTime.Timestamp

/-!
# The command

Runs the program on the standard streams.  The pipeline itself is settled by pure steps; here the clock is
read, input is fetched when the pipeline waits for it, and what has been written, logged or kept is carried
out.
-/

open FailurePipeline

namespace FailurePipeline.Command

/-- The reason of an error of the system. -/
def reason : IO.Error → String
  | .noFileOrDirectory .. => FileError.notFound.message
  | .inappropriateType .. => FileError.isDirectory.message
  | .alreadyExists .. => FileError.alreadyExists.message
  | .permissionDenied .. => "Permission denied (os error 13)"
  | e => toString e

def say (l : LogLine) : IO Unit := IO.eprintln l.render

def wallClock : IO Instant := do
  let t ← Std.Time.Timestamp.now
  let nanos := t.toNanosecondsSinceUnixEpoch.val
  return ⟨nanos.fdiv 1000000000, (nanos.fmod 1000000000).toNat⟩

/-- The variables of the process. -/
def environment : IO Environment := do
  let octets ← try IO.FS.readBinFile "/proc/self/environ" catch _ => pure .empty
  let entries := (octets.toList.splitOnP (· == 0)).map fun e =>
    (e.takeWhile (· != 0x3D), (e.dropWhile (· != 0x3D)).tail)
  return fun name => (entries.find? (·.1 == Utf8.encode name)).map (·.2)

/-- The number of the process. -/
def processId : IO Nat := do
  let text ← try IO.FS.readFile "/proc/self/stat" catch _ => pure "1"
  return (Digits.ofDecimal? (text.toList.takeWhile (·.isDigit))).getD 1

/-- The directory that a configuration keeps dead letters in. -/
def directory? (c : Config) : Option String := do
  match Location.ofUrl (← c.deadLetter).path [] with
  | .ok (.directory path) => some path
  | _ => none

/-- Why nothing can be kept: no remote store is reached from here. -/
def refusal? (c : Config) : Option StorageError := do
  let letters ← c.deadLetter
  match Location.ofUrl letters.path letters.storageOptions with
  | .ok (.remote ..) => some (.store .notSupported)
  | _ => none

/-- Makes a directory, and says what is in the way of the objects in it. -/
def openDirectory (path : String) : IO (Except String FileTree) := do
  try
    unless path.isEmpty do IO.FS.createDirAll path
    let tree := (({} : FileTree).makeDirectories path).toOption.getD {}
    let mut tree := tree
    for type in FailureType.all do
      let blocked ← try Option.some <$> IO.FS.readBinFile (path ++ "/" ++ type.name) catch _ => pure none
      if let some octets := blocked then
        tree := tree.set (FileTree.names path ++ [type.name]) (.file octets.toList)
    return .ok tree
  catch e => return .error (reason e)

/-- What has been carried out already. -/
structure Done where
  pieces : Nat := 0
  notes : Nat := 0
  files : Nat

def files (p : Program) (root : String) : List (List String × Bytes) :=
  p.world.workplace.depot.disk.files (FileTree.names root)

/-- Writes out what is new. -/
def carryOut (p : Program) (root : String) (done : Done) : IO Done := do
  let pieces := ((p.reading?).map (·.output.pieces)).getD []
  let stdout ← IO.getStdout
  for piece in (pieces.take (pieces.length - done.pieces)).reverse do
    stdout.write ⟨piece.toArray⟩
  stdout.flush
  let journal := p.world.workplace.journal
  for line in (journal.drop done.notes).filterMap (·.line?) do
    say line
  let kept := files p root
  for (place, octets) in kept.drop done.files do
    IO.FS.createDirAll ("/".intercalate (root :: place.dropLast))
    IO.FS.writeBinFile ("/".intercalate (root :: place)) ⟨octets.toArray⟩
  return ⟨pieces.length, journal.length, kept.length⟩

/-- Runs a program to its end. -/
partial def loop (p : Program) (root : String) (done : Done) : IO Program := do
  let p := (p.step (.act (.clock (← wallClock)))).settle
  let done ← carryOut p root done
  if p.result?.isSome then return p
  else if p.awaitsInput then
    let octets ← (← IO.getStdin).read 8192
    loop (p.feed octets.toList) root done
  else
    IO.sleep 1
    loop (p.pass 1) root done

/-- Runs a program that has been set up, and tells how it ended. -/
def run (p : Program) (root : String) (role : HandlerRole) : IO (Except ProgramError Unit) := do
  for k in p.world.workplace.registry.sinks do
    say { level := .info, message := k.announcement role }
  say p.startLine
  let p ← loop p root { files := (files p root).length }
  for summary in p.sinkSummary? do
    say { level := .info, message := summary }
  for line in p.finishLine? do
    say line
  return (p.result?).getD (.ok ())

def fail (e : ProgramError) : IO UInt32 := do
  IO.eprintln s!"snowdrift failed: {e.message}"
  return 1

/-- Loads the configuration and runs the program. -/
def start (a : CommandLine.Arguments) : IO UInt32 := do
  let path := (Utf8.decode? a.config).getD ""
  let read : Except String ByteArray ←
    try Except.ok <$> IO.FS.readBinFile path catch e => pure (.error (reason e))
  match Config.ofFile (← environment) (fun _ => read.map (·.toList)) path with
  | .error e => fail (.config e)
  | .ok c =>
    let root := (directory? c).getD ""
    match ← openDirectory root with
    | .error e => fail (.deadLetter (.create root (.io e)))
    | .ok disk =>
      let s : Surroundings := { wall := ← wallClock, processId := ← processId, refusal := refusal? c }
      let feed : Feed := { arrivals := [], sequel := .unknown }
      let intake : Intake := { inputId := a.inputId, feed := feed, output := {} }
      match Program.setUp c {} s { disk := disk } intake with
      | .failed e => fail e
      | .crashed =>
        IO.eprintln s!"a queue may not have more than {Queue.maxCapacity} places"
        return 101
      | .ready p =>
        match ← run p root ((c.deadLetter.map (·.role)).getD .fallback) with
        | .ok () => return 0
        | .error e => fail e

end FailurePipeline.Command

def main (args : List String) : IO UInt32 := do
  match CommandLine.parse (args.map Utf8.encode) with
  | .ok a => Command.start a
  | .error p =>
    match p.text? with
    | some text =>
      IO.print text
      return 0
    | none =>
      IO.eprintln "error: invalid arguments\n\nFor more information, try '--help'."
      return 2
