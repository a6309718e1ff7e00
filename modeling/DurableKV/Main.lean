import DurableKV.CommandLine
import DurableKV.TransactionId

/-!
# The program

The outer layer: arguments, files and standard streams. What is to be done is decided by
`CommandLine` and `Node` on a picture of the disk; this module takes the picture, carries out the
changes, and writes what is answered.
-/

namespace DurableKV.Program

/-- A failure of the system as the library knows it. -/
def osErrorOf : IO.Error → OsError
  | .noFileOrDirectory .. => .notFound
  | .alreadyExists .. => .alreadyExists
  | .inappropriateType _ code _ => if code = 21 then .isDirectory else .notDirectory
  | .invalidArgument .. => .invalidArgument
  | e => .other (toString e)

/-- What stands at a path on the real disk, if anything does. -/
def probe (path : String) : IO (Option Item) := do
  try
    return some (.file (.ofContent (← IO.FS.readBinFile path).data.toList))
  catch e =>
    return if osErrorOf e = .isDirectory then some .folder else none

/-- Add to a picture of the disk what stands on the way to a path. -/
def addWay (d : Disk) (path : String) : IO Disk := do
  let ps := Path.parts path
  (List.range ps.length).foldlM (fun d n => do
    let place := Path.resolve (ps.take (n + 1))
    match ← probe (Path.ofPlace place) with
    | some item => return d.put place item
    | none => return d) d

/-- A picture of the disk as far as a configuration and its data directory are concerned. -/
def picture (config : String) : IO Disk := do
  let d ← addWay {} config
  match Config.load d config with
  | .ok c => addWay d c.logPath
  | .error _ => return d

/-- Make the directories that a picture of the disk holds beyond another. -/
def makeFolders (before after : Disk) : IO Unit :=
  after.items.entries.forM fun (key, item) => do
    if item = .folder ∧ (before.items.get? key).isNone then IO.FS.createDir key

/-- Print how the program ends; its exit code is the result. -/
def conclude (e : CommandLine.Ending) : IO UInt32 := do
  e.output.forM IO.println
  e.errors.forM IO.eprintln
  return e.code

/-- Write bytes at the end of a file. -/
def appendTo (path : String) (bytes : Bytes) : IO Unit := do
  if bytes ≠ [] then
    let file ← IO.FS.Handle.mk path .append
    file.write ⟨bytes.toArray⟩
    file.flush

/-- Serve one line of input, with the log on the real disk growing along. If the file cannot be
written, the line is served once more by a node that meets that failure. -/
def serveLine (n : Node) (line : Bytes) : IO Served := do
  let before := n.replica.machine.log
  let served := n.serveLine line
  let after := served.node.replica.machine.log
  try
    appendTo before.path (after.medium.reversed.take (after.written - before.written).toNat).reverse
    return served
  catch e =>
    let fault : Log.WriteFault := ⟨0, osErrorOf e⟩
    let failing (r : Replica) : Replica :=
      { r with machine.log.medium.writeFault := some fault }
    return (n.withReplica failing).serveLine line

/-- The bytes up to and with the next newline, in front of which some have been read already; what
is left of the input if there is none. -/
partial def readLine (input : IO.FS.Stream) (read : Bytes) : IO Bytes := do
  match (← input.read 1).data.toList with
  | [b] => if b = Bytes.newline then return (b :: read).reverse else readLine input (b :: read)
  | _ => return read.reverse

/-- Serve standard input until it ends or a line stops the node. -/
partial def serveInput (n : Node) (input output : IO.FS.Stream) : IO (Option CliError × Node) := do
  match inputLines (← readLine input []) with
  | [] => return (none, n)
  | line :: _ =>
    let served ← serveLine n line
    if let some reply := served.reply then
      output.putStr reply.line
      output.flush
    match served.stop with
    | some stop => return (some stop, served.node)
    | none => serveInput served.node input output

/-- Boot a node and serve standard input. -/
def start (config : String) (bootstrap : Bool) : IO UInt32 := do
  let seed := (← IO.getRandomBytes 16).data.toList.foldl (fun n b => n * 256 + b.toNat) 0
  let d ← picture config
  match CommandLine.boot d config bootstrap (TransactionId.supply seed) with
  | (.error e, _) => conclude (CommandLine.failed [] e)
  | (.ok n, _) =>
    let log := n.replica.machine.log
    IO.FS.writeBinFile log.path ⟨log.medium.content.toArray⟩
    let (stop, n) ← serveInput n (← IO.getStdin) (← IO.getStdout)
    match CommandLine.ending n stop with
    | some e => conclude (CommandLine.failed [] e)
    | none => conclude { code := 0 }

/-- Make the directories of a node. -/
def init (config : String) : IO UInt32 := do
  let d ← picture config
  let (result, after) := CommandLine.init d config
  makeFolders d after
  conclude (CommandLine.answered result)

end DurableKV.Program

/-- The program. -/
def main (arguments : List String) : IO UInt32 := do
  match DurableKV.Invocation.ofArguments? arguments with
  | some (.start config bootstrap) => DurableKV.Program.start config bootstrap
  | some (.init config) => DurableKV.Program.init config
  | some (.inspect config) =>
    let d ← DurableKV.Program.picture config
    DurableKV.Program.conclude
      (DurableKV.CommandLine.run d (fun _ => "") arguments []).1
  | some .version | some .help | none =>
    DurableKV.Program.conclude (DurableKV.CommandLine.run {} (fun _ => "") arguments []).1
