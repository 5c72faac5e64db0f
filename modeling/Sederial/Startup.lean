import Sederial.Lib.Trace
import Sederial.Logging
import Sederial.Service

/-!
# `Sederial.Startup`: from the command line to the service

The model of `src/main.rs` and of `Server::bind` in `src/server.rs`. `parseArgs` is the loop over
the command line. `Startup.run` loads the configuration, reports it, installs the signal handlers,
opens the listeners and serves. `Startup.exec` turns the outcome into an exit status.

The programs record what they do as `Effect`s, in order. What the surroundings answer is given by
`Surroundings`: the file system, the kernel, the `toml` crate, and how the standard library writes
paths, addresses and errors. The run of the service is an answer as well, with the lines it logs;
`Sederial.Service` says what it can be.
-/

set_option autoImplicit false

namespace Sederial

open Sederial.Lib
open Toml (Table)

/-- The bytes of an `OsString`, which need not be UTF-8. -/
abbrev OsString : Type := List UInt8

/-- The signals that stop the service. -/
inductive Signal where
  | term
  | int
  deriving DecidableEq

namespace Startup

/-- The path of the configuration, for a command line without one. -/
def defaultConfig : String := "/etc/sederial/sederial.toml"

/-- `CARGO_PKG_VERSION`. -/
def packageVersion : String := "0.3.0"

/-- What `--help` prints. -/
def helpText : String :=
  "Sederial " ++ packageVersion ++
    "\nUsage: sederial [--config PATH] [--check]\n\nDefault config: " ++
    defaultConfig ++ "\n--check validates configuration without opening listeners.\n" ++
    "Use SIGTERM or SIGINT for graceful shutdown."

/-- What `--version` prints. -/
def versionText : String := "sederial " ++ packageVersion

/-! ### The command line -/

/-- What the command line asks for. -/
inductive Request where
  | help
  | version
  | start (path : OsString) (check : Bool)
  deriving DecidableEq

/-- What the loop over the command line has seen. -/
structure Options where
  path : OsString := utf8 defaultConfig
  seenConfig : Bool := false
  check : Bool := false

/-- The loop over the command line. `debug` is how an `OsString` is written in the error. -/
def parseArgs (debug : OsString → String) : Options → List OsString → Except String Request
  | options, [] => .ok (.start options.path options.check)
  | options, arg :: args =>
    if arg = utf8 "--help" ∨ arg = utf8 "-h" then .ok .help
    else if arg = utf8 "--version" ∨ arg = utf8 "-V" then .ok .version
    else if arg = utf8 "--config" ∧ options.seenConfig = false then
      match args with
      | [] => .error "--config requires a path"
      | path :: args => parseArgs debug { options with path := path, seenConfig := true } args
    else if arg = utf8 "--check" ∧ options.check = false then
      parseArgs debug { options with check := true } args
    else .error ("unknown or repeated argument " ++ debug arg ++ "; use --help")

/-! ### The program -/

/-- What the program does to its surroundings. -/
inductive Effect where
  /-- A line on stdout. -/
  | print (text : String)
  /-- `Config::load`. -/
  | load (path : OsString)
  | info (message : String)
  | error (message : String)
  /-- `signal_hook::flag::register`. -/
  | register (signal : Signal)
  /-- A socket is bound to this address. -/
  | bind (transport : Transport) (address : SocketAddr)
  /-- A socket is dropped before `bind` returns. -/
  | close (transport : Transport)
  /-- `server.run(stop)`. -/
  | serve
  deriving DecidableEq

/-- The effects are their own record. -/
instance : Logged (List Effect) Effect := ⟨id⟩

/-- The answers of the surroundings. -/
structure Surroundings where
  formats : Formats
  toml : String → Except String Table
  /-- The start of the file, one byte beyond the limit at most. -/
  file : OsString → Except IoError String
  /-- `Path::display`. -/
  display : OsString → String
  /-- `Debug` for `OsString`. -/
  debug : OsString → String
  /-- `Display` for `SocketAddr`. -/
  address : SocketAddr → String
  /-- `Display` for `io::Error`. -/
  describe : IoError → String
  register : Signal → Option IoError
  bind : Transport → Option IoError
  setReadTimeout : Option IoError
  setWriteTimeout : Option IoError
  /-- What the service returns, and what it says. -/
  serve : Config → Outcome × List Notice

/-- `impl Display for ConfigError`. -/
def describeConfig (w : Surroundings) : ConfigError → String
  | .io error => w.describe error
  | .text message => message
  | .invalid message => message
  | .forwardingLoop => "upstream points to the listener (forwarding loop)"
  | .routing error => error.message

/-- `impl Display for DomainName`. -/
def describeName (name : Dns.DomainName) : String :=
  String.ofList (name.fmt.map fun b => Char.ofNat b.toNat)

/-- What `Server::run` says. -/
def describeNotice (w : Surroundings) (config : Config) : Notice → String
  | .listening => "startup: listening on " ++ w.address config.listen ++ " (UDP and TCP)"
  | .stopping => "shutdown: stopping listeners and workers"
  | .complete => "shutdown complete"

/-- How many routes are listed when the service starts. -/
def routeLogLimit : Nat := 8

/-- The lines about a configuration that was loaded. -/
def configLines (w : Surroundings) (path : OsString) (config : Config) : List String :=
  ["configuration loaded from " ++ w.display path,
    "default: " ++ toString (config.routing.default.elim 0 fun group => group.servers.length) ++
      " upstream(s)",
    toString config.routing.localRecords.length ++ " local record(s)",
    toString config.routing.routes.length ++ " route(s)"] ++
  (config.routing.routes.take routeLogLimit).map (fun route =>
    "route " ++ describeName route.suffix ++ ": " ++
      toString route.upstreams.servers.length ++ " upstream(s)") ++
  if config.routing.routes.length > routeLogLimit then
    [toString (config.routing.routes.length - routeLogLimit) ++
      " additional route(s) omitted from startup log"]
  else []

variable {ε : Type}

/-- Records an effect. -/
def tell (effect : Effect) : Run (List Effect) ε Unit := modify (· ++ [effect])

/-- `logging::info`, for some messages. -/
def inform (messages : List String) : Run (List Effect) ε Unit :=
  modify (· ++ messages.map Effect.info)

/-- A call of the kernel that may fail. -/
def answer (failure : Option IoError) : Run (List Effect) IoError Unit :=
  match failure with
  | none => pure ()
  | some error => throw error

/-- Registers the handlers of some signals. -/
def register (w : Surroundings) : List Signal → Run (List Effect) IoError Unit
  | [] => pure ()
  | signal :: signals => do
    answer (w.register signal)
    tell (.register signal)
    register w signals

/-- Some sockets are dropped when the rest fails. -/
def closing (transports : List Transport) (m : Run (List Effect) IoError Unit) :
    Run (List Effect) IoError Unit := do
  match ← Run.attempt m with
  | .ok _ => pure ()
  | .error error =>
    modify (· ++ transports.map Effect.close)
    throw error

/-- `Server::bind`. -/
def bindServer (w : Surroundings) (config : Config) : Run (List Effect) IoError Unit := do
  answer (w.bind .udp)
  tell (.bind .udp config.listen)
  closing [.udp] (answer (w.bind .tcp))
  tell (.bind .tcp config.listen)
  -- Locals are dropped in reverse order.
  closing [.tcp, .udp] do
    answer w.setReadTimeout
    answer w.setWriteTimeout

/-- `Server::run`, as far as the program sees it. -/
def serve (w : Surroundings) (config : Config) : Run (List Effect) IoError Unit := do
  tell .serve
  inform ((w.serve config).2.map (describeNotice w config))
  Run.ofExcept (w.serve config).1

/-- The program behind the command line. -/
def launch (w : Surroundings) (path : OsString) (check : Bool) :
    Run (List Effect) String Unit := do
  tell (.load path)
  let config ← Run.ofExcept ((Config.load w.formats w.toml (w.file path)).mapError fun e =>
    w.display path ++ ": " ++ describeConfig w e)
  inform (configLines w path config)
  if check then inform ["configuration valid"]
  else
    Run.mapError (fun e => "register shutdown signal: " ++ w.describe e) (register w [.term, .int])
    Run.mapError (fun e => "bind DNS listeners: " ++ w.describe e) (bindServer w config)
    Run.mapError (fun e => "DNS service: " ++ w.describe e) (serve w config)

/-- Handles CLI-only exits, validates configuration and runs the service. -/
def run (w : Surroundings) (args : List OsString) : Run (List Effect) String Unit :=
  match parseArgs w.debug {} args with
  | .error message => throw message
  | .ok .help => tell (.print helpText)
  | .ok .version => tell (.print versionText)
  | .ok (.start path check) => launch w path check

/-- `exit_status(run())`, with everything that was done. -/
def exec (w : Surroundings) (args : List OsString) : Nat × List Effect :=
  match (run w args).exec [] with
  | (.ok _, effects) => (0, effects)
  | (.error message, effects) => (1, effects ++ [.error message])

end Startup

end Sederial
