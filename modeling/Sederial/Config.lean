import Sederial.Routing
import Sederial.World

/-!
# `Sederial.Config`: from a TOML table to listener settings and routing

The model of `src/config.rs`. A `Toml.Value` is the tree that the `toml` crate reads, as far as
the service looks at it. The crate itself is a parameter of `Config.parse`, and so are the
readers of literal addresses in `std::net`, together with the `Debug` form of a string: they are
the fields of `Formats`.

The source checks the settings in one long function. Here each setting has a function of its own,
and `Config.parseTable` calls them in the order of the source.
-/

set_option autoImplicit false

namespace Sederial

open Sederial.Dns (DomainName)

namespace Toml

/-- The bases of a TOML integer. -/
inductive Radix where
  | binary
  | octal
  | decimal
  | hexadecimal
  deriving DecidableEq, Repr

/-- The number that a base stands for. -/
def Radix.toNat : Radix → Nat
  | .binary => 2
  | .octal => 8
  | .decimal => 10
  | .hexadecimal => 16

/-- A key, with its `Debug` form. -/
structure Key where
  text : String
  debug : String
  deriving DecidableEq, Repr

/-- A TOML value, as far as the reader of the configuration looks at it. -/
inductive Value where
  | string (text : String)
  /-- The digits without separators, with their sign. -/
  | integer (digits : String) (radix : Radix)
  | array (values : List Value)
  | table (entries : List (Key × Value))
  /-- A float, a boolean or a date. -/
  | other

/-- The entries of a TOML table in their order. -/
abbrev Table := List (Key × Value)

/-- `Value::as_str`. -/
def Value.asStr : Value → Option String
  | .string text => some text
  | _ => none

/-- `Value::as_integer`, before the digits are read. -/
def Value.asInteger : Value → Option (String × Radix)
  | .integer digits radix => some (digits, radix)
  | _ => none

/-- `Value::as_array`. -/
def Value.asArray : Value → Option (List Value)
  | .array values => some values
  | _ => none

/-- `Value::as_table`. -/
def Value.asTable : Value → Option Table
  | .table entries => some entries
  | _ => none

/-- `Table::get`: the first entry under the key. -/
def Table.get (table : Table) (key : String) : Option Value :=
  (table.find? fun entry => entry.1.text == key).map Prod.snd

end Toml

open Toml (Table Value)

/-- What the standard library reads and writes for the configuration. -/
structure Formats where
  socketAddr : String → Option SocketAddr
  ipAddr : String → Option IpAddr
  ipv6Addr : String → Option Ipv6Addr
  ipv4Addr : String → Option Ipv4Addr
  /-- The `Debug` form of a string. -/
  debug : String → String

/-- The bytes of a string. -/
def utf8 (text : String) : List UInt8 := text.toList.flatMap String.utf8EncodeChar

/-- `char::to_digit`. -/
def toDigit (c : Char) (radix : Nat) : Option Nat :=
  let value :=
    if '0' ≤ c ∧ c ≤ '9' then some (c.toNat - '0'.toNat)
    else if 'a' ≤ c ∧ c ≤ 'z' then some (c.toNat - 'a'.toNat + 10)
    else if 'A' ≤ c ∧ c ≤ 'Z' then some (c.toNat - 'A'.toNat + 10)
    else none
  value.filter (· < radix)

/-- The value of some digits. -/
def digitsValue (radix : Nat) : List Char → Option Nat
  | [] => none
  | digits => digits.foldlM (fun value c => (toDigit c radix).map (value * radix + ·)) 0

/-- `i32::from_str_radix`. -/
def fromStrRadix (text : String) (radix : Nat) : Option Int :=
  let value : Option Int :=
    match text.toList with
    | '-' :: digits => (digitsValue radix digits).map fun n => -(n : Int)
    | '+' :: digits => (digitsValue radix digits).map fun n => (n : Int)
    | digits => (digitsValue radix digits).map fun n => (n : Int)
  value.filter fun n => -2147483648 ≤ n ∧ n ≤ 2147483647

/-- The port of DNS, for an address without one. -/
def defaultDnsPort : UInt16 := 53

/-- `MAX_CONFIG_BYTES`. -/
def maxConfigBytes : Nat := 1024 * 1024

/-- `MAX_ROUTES`. -/
def maxRoutes : Nat := 4096

/-- Distinguishes file access, TOML text and domain validation failures. -/
inductive ConfigError where
  | io (error : IoError)
  /-- The message of the `toml` crate. -/
  | text (message : String)
  | invalid (message : String)
  | forwardingLoop
  | routing (error : RouteError)
  deriving DecidableEq, Repr

/-- `raw.strip_prefix('[').and_then(|s| s.strip_suffix(']'))`. -/
def stripBrackets (raw : String) : Option String :=
  match raw.toList with
  | '[' :: rest => if rest.getLast? = some ']' then some (String.ofList rest.dropLast) else none
  | _ => none

/-- Parses a literal IP endpoint, defaulting a missing port to DNS port 53. -/
def parseAddress (f : Formats) (raw : String) : Option SocketAddr :=
  match f.socketAddr raw with
  | some address => some address
  | none =>
    let ip :=
      match stripBrackets raw with
      | some inner => (f.ipv6Addr inner).map IpAddr.v6
      | none => f.ipAddr raw
    ip.map fun ip => SocketAddr.new ip defaultDnsPort

/-- The string under a key, or an error that names the key. -/
def requiredString (table : Table) (key : String) : Except ConfigError String :=
  match (table.get key).bind Value.asStr with
  | some text => .ok text
  | none => .error (.invalid s!"{key}: expected a string")

/-- Fails at the first key that is not allowed. -/
def rejectUnknownKeys (table : Table) (allowed : List String) (context : String) :
    Except ConfigError Unit :=
  match table.find? fun entry => !allowed.contains entry.1.text with
  | some entry => .error (.invalid s!"{context}: unknown key {entry.1.debug}")
  | none => .ok ()

/-- One turn of the loop of `parse_upstream_group`. -/
def parseServer (f : Formats) (listen : SocketAddr) (value : Value) :
    Except ConfigError UpstreamAddress :=
  match value.asStr with
  | none => .error (.invalid "server address must be a string")
  | some raw =>
    match parseAddress f raw with
    | none => .error (.invalid s!"invalid upstream address {f.debug raw}")
    | some address =>
      -- An IPv4-mapped spelling does not hide a direct loop.
      if address.port = listen.port ∧ address.ip.toCanonical = listen.ip.toCanonical then
        .error .forwardingLoop
      else (UpstreamAddress.new address).mapError .routing

/-- Preserves configured failover order while validating endpoints and self-loops. -/
def parseUpstreamGroup (f : Formats) (table : Table) (listen : SocketAddr) :
    Except ConfigError UpstreamGroup :=
  match (table.get "servers").bind Value.asArray with
  | none =>
    .error (.invalid "servers: expected an array of IP address strings with optional ports")
  | some values => do
    let addresses ← values.mapM (parseServer f listen)
    (UpstreamGroup.new addresses).mapError .routing

/-- The domain of a route or of a local record. -/
def parseDomain (table : Table) (context : String) : Except ConfigError DomainName := do
  let text ← requiredString table "domain"
  (DomainName.fromStr (utf8 text)).mapError fun error =>
    .invalid s!"{context} domain: {error.message}"

/-- A route of the configuration. -/
def parseRoute (f : Formats) (listen : SocketAddr) (index : Nat) (value : Value) :
    Except ConfigError Route :=
  match value.asTable with
  | none => .error (.invalid s!"route {index}: expected a table")
  | some table => do
    rejectUnknownKeys table ["domain", "servers"] s!"route {index}"
    let suffix ← parseDomain table s!"route {index}"
    let upstreams ← parseUpstreamGroup f table listen
    return { suffix := suffix, upstreams := upstreams }

/-- The TTL of a local record, which is zero by default. -/
def parseTtl (table : Table) (context : String) : Except ConfigError UInt32 :=
  match table.get "ttl" with
  | none => .ok 0
  | some value =>
    let ttl := do
      let (digits, radix) ← value.asInteger
      (fromStrRadix digits radix.toNat).filter (0 ≤ ·)
    match ttl with
    | some ttl => .ok (UInt32.ofNat ttl.toNat)
    | none => .error (.invalid s!"{context} ttl: expected an integer in 0..=2147483647")

/-- A local record of the configuration. -/
def parseLocalRecord (f : Formats) (index : Nat) (value : Value) :
    Except ConfigError LocalRecord :=
  let context := s!"local {index}"
  match value.asTable with
  | none => .error (.invalid s!"{context}: expected a table")
  | some table => do
    rejectUnknownKeys table ["domain", "address", "ttl"] context
    let suffix ← parseDomain table context
    let text ← requiredString table "address"
    match f.ipv4Addr text with
    | none => throw (.invalid s!"{context} address: expected an IPv4 address")
    | some address =>
      let ttl ← parseTtl table context
      return { suffix := suffix, address := address, ttl := ttl }

/-- Startup settings produced by whole-file validation before listeners bind. -/
structure Config where
  listen : SocketAddr
  routing : RoutingTable

namespace Config

/-- The listener, under the restrictions of an upstream. -/
def parseListen (f : Formats) (table : Table) : Except ConfigError SocketAddr := do
  let raw ← requiredString table "listen"
  match parseAddress f raw with
  | none =>
    throw (.invalid ("listen must be an IP address with an optional port " ++
      "(IPv6 with port: [address]:port)"))
  | some address =>
    match UpstreamAddress.new address with
    | .error error => throw (.invalid s!"listen: {error.message}")
    | .ok listen => return listen.socket

/-- The group for names without a route, if the file has one. -/
def parseDefault (f : Formats) (listen : SocketAddr) (table : Table) :
    Except ConfigError (Option UpstreamGroup) :=
  match table.get "default" with
  | none => .ok none
  | some value =>
    match value.asTable with
    | none => .error (.invalid "default must be a table")
    | some entries => do
      rejectUnknownKeys entries ["servers"] "default"
      let group ← parseUpstreamGroup f entries listen
      return some group

/-- The routes in the order of the file, at most `maxRoutes` of them. -/
def parseRoutes (f : Formats) (listen : SocketAddr) (table : Table) :
    Except ConfigError (List Route) :=
  match table.get "route" with
  | none => .ok []
  | some value =>
    match value.asArray with
    | none => .error (.invalid "route must be an array of tables")
    | some values =>
      if values.length > maxRoutes then
        .error (.invalid s!"at most {maxRoutes} routes are supported")
      else values.zipIdx.mapM fun (value, index) => parseRoute f listen index value

/-- The local records in the order of the file, which count against `maxRoutes` as well. -/
def parseLocalRecords (f : Formats) (routes : Nat) (table : Table) :
    Except ConfigError (List LocalRecord) :=
  match table.get "local" with
  | none => .ok []
  | some value =>
    match value.asArray with
    | none => .error (.invalid "local must be an array of tables")
    | some values =>
      if routes + values.length > maxRoutes then
        .error (.invalid s!"at most {maxRoutes} route and local entries are supported")
      else values.zipIdx.mapM fun (value, index) => parseLocalRecord f index value

/-- The checks of a table; no partially valid one escapes. -/
def parseTable (f : Formats) (table : Table) : Except ConfigError Config := do
  rejectUnknownKeys table ["listen", "default", "route", "local"] "configuration"
  let listen ← parseListen f table
  let default ← parseDefault f listen table
  let routes ← parseRoutes f listen table
  let localRecords ← parseLocalRecords f routes.length table
  let routing ← (RoutingTable.new default routes localRecords).mapError ConfigError.routing
  return { listen := listen, routing := routing }

/-- Validates the complete configuration. -/
def parse (f : Formats) (toml : String → Except String Table) (text : String) :
    Except ConfigError Config := do
  let table ← (toml text).mapError ConfigError.text
  parseTable f table

/-- Reads at most one byte beyond the configuration size limit and validates it. -/
def load (f : Formats) (toml : String → Except String Table) (file : Except IoError String) :
    Except ConfigError Config := do
  let text ← file.mapError ConfigError.io
  if (utf8 text).length > maxConfigBytes then throw (.invalid "configuration exceeds 1 MiB")
  else parse f toml text

end Config

end Sederial
