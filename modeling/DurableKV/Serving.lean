import DurableKV.Node

/-!
# Serving requests

A node is served a text of lines. Each line that is not blank is answered by one reply line, in
order, until the input ends, a line is not UTF-8, or a request ends the node. `CliError` collects
everything that ends the program.
-/

namespace DurableKV

/-- Why the program ended. -/
inductive CliError where
  /-- The configuration could not be loaded. -/
  | config (cause : ConfigError)
  /-- The input or output failed. -/
  | io (cause : OsError)
  /-- A text could not be written or read as JSON. -/
  | json (cause : Json.ReadError)
  /-- The data directory has been initialized before. -/
  | alreadyInitialized (path : String)
  /-- The data directory has not been initialized. -/
  | notInitialized (path : String)
  /-- A directory could not be made. -/
  | createDir (path : String) (cause : OsError)
  /-- The node could not boot or shut down. -/
  | boot (cause : NodeError)
  /-- The log could not be replayed. -/
  | recovery (cause : RecoveryError)
  /-- The node halted. -/
  | halted (cause : ServiceError)
  deriving DecidableEq, Repr

namespace CliError

/-- The wording of a failure. -/
def message : CliError → String
  | config cause => "configuration error: " ++ cause.message
  | io cause => "I/O error: " ++ cause.message
  | json cause => "JSON error: " ++ cause.message
  | alreadyInitialized path => "data directory already initialized: " ++ path
  | notInitialized path =>
    "data directory not initialized: " ++ path ++ ". Run 'heliosdb init' first."
  | createDir path cause => "failed to create directory " ++ path ++ ": " ++ cause.message
  | boot cause => "boot failed: " ++ cause.message
  | recovery cause => "recovery failed: " ++ cause.message
  | halted cause => "node halted: " ++ cause.message

/-- The code of a failure. -/
def code : CliError → String
  | config _ => "HELIOS_CLI_CONFIG_ERROR"
  | io _ | json _ => "HELIOS_CLI_IO_ERROR"
  | alreadyInitialized _ => "HELIOS_CLI_ALREADY_INITIALIZED"
  | notInitialized _ => "HELIOS_CLI_NOT_INITIALIZED"
  | createDir .. => "HELIOS_CLI_CREATE_DIR_FAILED"
  | boot cause => cause.code
  | recovery cause => cause.code
  | halted cause => cause.code

end CliError

/-! ## Lines of input -/

/-- A line without the carriage return at its end. -/
def dropReturn (line : Bytes) : Bytes :=
  if line.getLast? = some 0x0D then line.dropLast else line

/-- The lines of an input. Only line feeds end lines; a carriage return before one belongs to it.
What follows the last line feed is a line too, unless it is empty. -/
def inputLines (input : Bytes) : List Bytes :=
  let (complete, tail) := Bytes.lines input
  complete.map dropReturn ++ (if tail = [] then [] else [tail])

/-! ## Serving -/

/-- What one line of input leads to. -/
structure Served where
  /-- The reply line, if there is one. -/
  reply : Option Reply
  /-- Why serving ends here, if it does. -/
  stop : Option CliError
  /-- The node afterwards. -/
  node : Node

namespace Node

/-- Serve one line of input. -/
def serveLine (n : Node) (line : Bytes) : Served :=
  match Bytes.toText? line with
  | none => ⟨none, some (.io .notUtf8), n⟩
  | some text =>
    if Text.isAllBlank text then ⟨none, none, n⟩
    else
      match n.handle line with
      | (.ok reply, n) => ⟨some reply, none, n⟩
      | (.error e, n) =>
        let stop := CliError.halted e
        ⟨some (.error stop.code stop.message), some stop, n⟩

/-- Serve lines in order until one of them stops. -/
def serveLines (n : Node) : List Bytes → List Reply × Option CliError × Node
  | [] => ([], none, n)
  | line :: lines =>
    let served := n.serveLine line
    match served.stop with
    | some stop => (served.reply.toList, some stop, served.node)
    | none =>
      let (replies, stop, n) := served.node.serveLines lines
      (served.reply.toList ++ replies, stop, n)

/-- Serve a whole input. -/
def serve (n : Node) (input : Bytes) : List Reply × Option CliError × Node :=
  n.serveLines (inputLines input)

end Node

end DurableKV
