/-
The command line: what the arguments ask for, and what is said about arguments that
ask for nothing sensible.

Arguments are read from the left, and the first that cannot be used decides the
answer.  An option that is repeated counts as it was given last.
-/
import Foreman.Net.Bind

namespace Foreman.CommandLine

/-- What the arguments ask for. -/
structure Request where
  bind : Option Net.SocketAddr := none
  configPath : Option String := none
deriving DecidableEq

/-- Why the program shows how it is used instead of starting. -/
inductive Refusal where
  | help
  /-- An option stands at the end without its value. -/
  | missingValue
  | bind (cause : Net.BindError)
  | blankConfigPath
  | unknown (argument : String)
deriving DecidableEq

/-- What is said before the usage. -/
def Refusal.complaint : Refusal → Option String
  | help => none
  | missingValue => none
  | bind cause => some cause.message
  | blankConfigPath => some "--config must be non-empty"
  | unknown argument => some ("Unknown argument: " ++ argument)

/-- The address of a listener for which nothing else is configured. -/
def defaultBind : String := "http://127.0.0.1:8080"

/-- How the program is used. -/
def usage : String := "\n".intercalate [
  "Usage: boompow_server [--bind http://host:port] [--config path]",
  "",
  "Options:",
  "\t--bind     Bind endpoint (default: server.bind from config, else " ++ defaultBind ++ ")",
  "\t          Format: [http://]ip:port",
  "\t--config   Config file (default: ~/.boompow/config.toml)",
  "\t--help     Show this help",
  "",
  ""]

/-- Everything that is said about a refusal. -/
def Refusal.text (r : Refusal) : String :=
  (r.complaint.elim "" (· ++ "\n")) ++ usage

/-- Reads arguments, with what earlier ones asked for. -/
def parseOnto : List String → Request → Except Refusal Request
  | [], r => .ok r
  | "--help" :: _, _ => .error .help
  | "-h" :: _, _ => .error .help
  | ["--bind"], _ => .error .missingValue
  | ["--listen"], _ => .error .missingValue
  | ["--config"], _ => .error .missingValue
  | "--bind" :: value :: rest, r => do
    let a ← (Net.parseBind value).mapError .bind
    parseOnto rest { r with bind := some a }
  | "--listen" :: value :: rest, r => do
    let a ← (Net.parseBind value).mapError .bind
    parseOnto rest { r with bind := some a }
  | "--config" :: value :: rest, r =>
    if Text.isBlankText value then .error .blankConfigPath
    else parseOnto rest { r with configPath := some value }
  | argument :: _, _ => .error (.unknown argument)

/-- Reads the arguments. -/
def parse (arguments : List String) : Except Refusal Request := parseOnto arguments {}

/-- The path of the configuration file: the one asked for, or that in the home directory. -/
def Request.pathIn (home : String) (r : Request) : String :=
  r.configPath.getD (home ++ "/.boompow/config.toml")

end Foreman.CommandLine
