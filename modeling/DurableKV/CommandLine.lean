import DurableKV.Serving

/-!
# The command line

The program has three commands: `init` makes the directories of a node, `start` boots it and serves
requests from standard input, and `inspect` prints what its log holds. `Invocation.ofArguments?`
reads the arguments, and `run` is the whole program over a disk: what it prints, its exit code and
the disk afterwards.
-/

namespace DurableKV

open Json

/-- What the program is asked to do. -/
inductive Invocation where
  /-- Make the directories of a node. -/
  | init (config : String)
  /-- Boot a node and serve requests; it may form a cluster of its own. -/
  | start (config : String) (bootstrap : Bool)
  /-- Print what the log of a node holds. -/
  | inspect (config : String)
  /-- Print the version of the program. -/
  | version
  /-- Print how the program is used. -/
  | help
  deriving DecidableEq, Repr

namespace Invocation

/-- The options of a command as far as they have been read. -/
structure Options where
  /-- The path of the configuration. -/
  config : Option String := none
  /-- Was `--bootstrap` given? -/
  bootstrap : Bool := false
  deriving DecidableEq, Repr

/-- What reading options came to. -/
inductive OptionsRead where
  /-- They were read to the end. -/
  | options (o : Options)
  /-- Help was asked for. -/
  | help
  deriving DecidableEq, Repr

/-- The text after a beginning, if a text begins so. -/
def after? (start s : String) : Option String :=
  if start.toList.isPrefixOf s.toList then some (String.ofList (s.toList.drop start.length))
  else none

/-- Is this a cluster of short options that begins with this one? Help and the version answer at
once, whatever follows them. -/
def isShort (option : Char) (arg : String) : Bool := ['-', option].isPrefixOf arg.toList

/-- Can this argument be the value of the option before it? -/
def isValue (s : String) : Bool :=
  s ≠ "" && (s == "-" || s.toList.head? ≠ some '-')

/-- Take the path of the configuration, which may be given once and must not be empty. -/
def Options.withConfig? (o : Options) (path : String) : Option Options :=
  if o.config.isSome ∨ path = "" then none else some { o with config := some path }

/-- Read the options of a command. Nothing else may follow the command. -/
def readOptions (mayBootstrap : Bool) : Options → List String → Option OptionsRead
  | o, [] => some (.options o)
  | o, "--" :: rest => if rest = [] then some (.options o) else none
  | o, arg :: rest =>
    if arg = "--help" ∨ isShort 'h' arg then some .help
    else if arg = "--config" then
      match rest with
      | path :: rest =>
        if isValue path then (o.withConfig? path).bind fun o => readOptions mayBootstrap o rest
        else none
      | [] => none
    else if arg = "--bootstrap" then
      if mayBootstrap ∧ ¬ o.bootstrap then
        readOptions mayBootstrap { o with bootstrap := true } rest
      else none
    else
      match after? "--config=" arg with
      | some path => (o.withConfig? path).bind fun o => readOptions mayBootstrap o rest
      | none => none

/-- The path of the configuration if none is given. -/
def defaultConfig : String := "./heliosdb.json"

/-- An invocation from the options of its command. -/
def withOptions (mayBootstrap : Bool) (rest : List String) (f : String → Bool → Invocation) :
    Option Invocation :=
  (readOptions mayBootstrap {} rest).map fun
    | .help => help
    | .options o => f (o.config.getD defaultConfig) o.bootstrap

/-- The invocation that arguments stand for; none if they are used wrongly. -/
def ofArguments? : List String → Option Invocation
  | [] => none
  | arg :: rest =>
    if arg = "--version" ∨ isShort 'V' arg then some version
    else if arg = "--help" ∨ isShort 'h' arg then some help
    else if arg = "help" then
      if rest = [] ∨ rest ∈ [["init"], ["start"], ["inspect"], ["help"]] then some help else none
    else if arg = "init" then withOptions false rest fun path _ => init path
    else if arg = "start" then withOptions true rest start
    else if arg = "inspect" then withOptions false rest fun path _ => inspect path
    else none

end Invocation

namespace CommandLine

/-- How the program ends. -/
structure Ending where
  /-- The exit code. -/
  code : UInt32
  /-- The lines on standard output. -/
  output : List String := []
  /-- The texts on standard error, each ended by a newline. -/
  errors : List String := []
  /-- How many transaction ids were used. -/
  issued : Nat := 0
  deriving DecidableEq, Repr

/-- How the program ends with a failure. -/
def failed (output : List String) (e : CliError) : Ending :=
  { code := 1, output, errors := [e.code ++ ": " ++ e.message] }

/-- How the program ends when it has one answer. -/
def answered : Except CliError Reply → Ending
  | .ok reply => { code := 0, output := [reply.text] }
  | .error e => failed [] e

/-- What the version is called. -/
def versionText : String := "heliosdb 0.1.0"

/-- How the program is used. -/
def helpText : String := "Usage: heliosdb <COMMAND>"

/-- Has the data directory been initialized? -/
def isInitialized (d : Disk) (c : Config) : Bool := d.has (Log.folderOf c.dataDir)

/-- Load a configuration. -/
def load (d : Disk) (path : String) : Except CliError Config :=
  (Config.load d path).mapError .config

/-- Make the directories of a node. -/
def init (d : Disk) (path : String) : Except CliError Reply × Disk :=
  match load d path with
  | .error e => (.error e, d)
  | .ok c =>
    if isInitialized d c then (.error (.alreadyInitialized c.dataDir), d)
    else
      match d.createFolders (Log.folderOf c.dataDir) with
      | (.error cause, d) => (.error (.createDir (Log.folderOf c.dataDir) cause), d)
      | (.ok (), d) =>
        (.ok (.ok (.object [("initialized", .bool true), ("data_dir", .string c.dataDir)])), d)

/-- Replay the log of a node and show what it holds. The log is left as it is. -/
def inspect (d : Disk) (path : String) : Except CliError Reply := do
  let c ← load d path
  if ¬ isInitialized d c then .error (.notInitialized c.dataDir)
  else
    match Recovery.inspect d c.dataDir ∅ with
    | (.error cause, _) => .error (.recovery cause)
    | (.ok stats, store) =>
      .ok (.ok (.object [("replay", stats.toValue), ("store", store.toValue)]))

/-- Boot the node of a configuration. -/
def boot (d : Disk) (path : String) (bootstrap : Bool) (ids : Nat → String) :
    Except CliError Node × Disk :=
  match load d path with
  | .error e => (.error e, d)
  | .ok c =>
    if ¬ isInitialized d c then (.error (.notInitialized c.dataDir), d)
    else
      let (booted, d) := Node.boot d c bootstrap ids
      (booted.mapError .boot, d)

/-- How serving ends: with what stopped it, or else with a failure to shut down. -/
def ending (n : Node) (stop : Option CliError) : Option CliError :=
  match stop, n.shutdown with
  | some e, _ => some e
  | none, .error e => some (.boot e)
  | none, .ok () => none

/-- Boot a node and serve an input. -/
def start (d : Disk) (path : String) (bootstrap : Bool) (ids : Nat → String) (input : Bytes) :
    Ending × Disk :=
  match boot d path bootstrap ids with
  | (.error e, d) => (failed [] e, d)
  | (.ok n, d) =>
    let (replies, stop, n) := n.serve input
    let output := replies.map Reply.text
    let log := n.replica.machine.log
    let d := d.save log.path log.medium.toFile
    match ending n stop with
    | some e => ({ failed output e with issued := n.issued }, d)
    | none => ({ code := 0, output, issued := n.issued }, d)

/-- The whole program. -/
def run (d : Disk) (ids : Nat → String) (arguments : List String) (input : Bytes) : Ending × Disk :=
  match Invocation.ofArguments? arguments with
  | none => ({ code := 2 }, d)
  | some .version => ({ code := 0, output := [versionText] }, d)
  | some .help => ({ code := 0, output := [helpText] }, d)
  | some (.init path) =>
    let (result, d) := init d path
    (answered result, d)
  | some (.inspect path) => (answered (inspect d path), d)
  | some (.start path bootstrap) => start d path bootstrap ids input

end CommandLine

end DurableKV
