import Sederial.Dns.Reply
import Sederial.Routing

/-!
# `Sederial.World`: the outside world as scripts, and the log of a run

The service talks to a clock, a stop flag, an entropy source, UDP sockets and TCP
streams. None of them is under its control. An `Env` holds, for each of them, the list of
answers it will give, in order. A theorem that quantifies over every `Env` therefore
covers every behaviour of the peers, of the kernel and of time.

A clock script that ends stands for the moment at which every deadline has passed. Every
loop of the service consults its deadline on each turn, so a run ends after finitely many
turns whatever the other scripts hold.

`Env.log` records what a run did and saw, in order: each message sent and each response
accepted, each connection opened or reused, each look at the clock and at the entropy
source, and the start and end of each server visit. Nothing in the service reads it.
-/

set_option autoImplicit false

namespace Sederial

open Sederial.Lib
open Sederial.Dns (Packet ParseError Response)

/-- `io::ErrorKind`, as far as the service tells kinds apart. -/
inductive ErrorKind where
  | wouldBlock
  | timedOut
  | interrupted
  | unexpectedEof
  | invalidData
  | invalidInput
  | writeZero
  | other (code : Nat)
  deriving DecidableEq, Repr

/-- What an `io::Error` carries: an operating-system code, the `Cancelled` marker, or a
text. -/
inductive ErrorSource where
  | os
  | cancelled
  | message (text : String)
  deriving DecidableEq, Repr

/-- `io::Error`: its kind and its message. -/
structure IoError where
  kind : ErrorKind
  source : ErrorSource
  deriving DecidableEq, Repr

/-- An error reported by the operating system. -/
def IoError.os (kind : ErrorKind) : IoError := ⟨kind, .os⟩

/-- Exchange failures used for failover decisions. -/
inductive ForwardError where
  | timeout
  | cancelled
  | io (error : IoError)
  | parse (error : ParseError)
  | invalidResponse
  | serverFailure
  | refused
  deriving DecidableEq, Repr

/-- `From<io::Error> for ForwardError`. -/
def ForwardError.ofIo (error : IoError) : ForwardError :=
  if error.source = .cancelled then .cancelled
  else if error.kind = .timedOut ∨ error.kind = .wouldBlock then .timeout
  else .io error

/-- One look at the stop flag and the clock, in nanoseconds. -/
structure Reading where
  stop : Bool
  now : Nat
  deriving DecidableEq, Repr

/-- What the kernel does at one turn of a receive loop on a TCP stream: deliver bytes (an
empty delivery is the end of the stream), fail the read, or refuse the read timeout. -/
inductive ReadEvent where
  | data (bytes : List UInt8)
  | failed (kind : ErrorKind)
  | timeoutRejected (kind : ErrorKind)
  deriving DecidableEq, Repr

/-- What the kernel does at one turn of a write loop on a TCP stream: take up to `count`
bytes, fail the write, or refuse the write timeout. -/
inductive WriteEvent where
  | accepted (count : Nat)
  | failed (kind : ErrorKind)
  | timeoutRejected (kind : ErrorKind)
  deriving DecidableEq, Repr

/-- A connected TCP stream: its peer, and how the kernel will answer the next calls. -/
structure TcpStream where
  peer : SocketAddr
  nodelay : List (Option ErrorKind)
  incoming : List ReadEvent
  outgoing : List WriteEvent
  deriving DecidableEq, Repr

/-- What a UDP socket does at one turn of the receive loop. -/
inductive UdpEvent where
  | datagram (bytes : List UInt8)
  | failed (kind : ErrorKind)
  | timeoutRejected (kind : ErrorKind)
  deriving DecidableEq, Repr

/-- How the kernel will answer the calls on a new UDP socket. -/
structure UdpScript where
  bind : Option ErrorKind
  connect : Option ErrorKind
  setWriteTimeout : Option ErrorKind
  send : Option ErrorKind
  incoming : List UdpEvent
  deriving DecidableEq, Repr

/-- How a TCP connection attempt ends: with an error, or with a stream that behaves as
told. -/
structure TcpScript where
  failure : Option ErrorKind
  nodelay : List (Option ErrorKind)
  incoming : List ReadEvent
  outgoing : List WriteEvent
  deriving DecidableEq, Repr

/-- What a run did or saw. -/
inductive Event where
  /-- `Instant::now()`. -/
  | now (time : Option Nat)
  /-- `Deadline::remaining`, which looks at the stop flag and the clock. -/
  | check (reading : Option Reading)
  /-- Two bytes were asked of the entropy source. -/
  | entropy (id : Except ErrorKind UInt16)
  /-- `Forwarder::forward` turns to the next server of its group. -/
  | attempt (address : UpstreamAddress)
  /-- `Forwarder::forward` starts its exchange with a server. -/
  | visit (address : UpstreamAddress)
  /-- The exchange with a server, including its BADCOOKIE completion, has ended. -/
  | outcome (address : UpstreamAddress) (result : Except ForwardError Response)
  | udpSend (peer : SocketAddr) (wire : List UInt8)
  | tcpConnect (peer : SocketAddr)
  | tcpReuse (peer : SocketAddr)
  /-- A message is handed to `write_frame` on the stream to `peer`. -/
  | tcpSend (peer : SocketAddr) (wire : List UInt8)
  | tcpWrite (peer : SocketAddr) (bytes : List UInt8)
  | tcpRead (peer : SocketAddr) (bytes : List UInt8)
  /-- A response passed validation. -/
  | accept (peer : SocketAddr) (response : Response)
  deriving DecidableEq

/-- The scripts of the outside world, and the log so far. -/
structure Env where
  clock : List Reading
  entropy : List (Except ErrorKind UInt16)
  udp : List UdpScript
  tcp : List TcpScript
  log : List Event
  deriving DecidableEq

namespace Env

/-- Appends an event to the log. -/
def record (e : Event) (env : Env) : Env := { env with log := env.log ++ [e] }

/-- Takes the next clock reading. -/
def tick (env : Env) : Option Reading × Env :=
  match env.clock with
  | [] => (none, env)
  | reading :: rest => (some reading, { env with clock := rest })

/-- `Instant::now()`. After the script the instant does not matter: every deadline check
fails from then on. -/
def now {ε : Type} : Run Env ε Nat :=
  Run.step fun env =>
    let (reading, env) := env.tick
    let time := reading.map Reading.now
    (time.getD 0, env.record (.now time))

/-- Reads two bytes from the entropy source. -/
def readEntropy {ε : Type} : Run Env ε (Except ErrorKind UInt16) :=
  Run.step fun env =>
    match env.entropy with
    | [] => (.error .unexpectedEof, env.record (.entropy (.error .unexpectedEof)))
    | id :: rest => (id, { env with entropy := rest }.record (.entropy id))

/-- Opens the next UDP socket. -/
def openUdp {ε : Type} : Run Env ε UdpScript :=
  Run.step fun env =>
    match env.udp with
    -- An exhausted script refuses every further socket.
    | [] => ({ bind := some (.other 0), connect := none, setWriteTimeout := none,
               send := none, incoming := [] }, env)
    | script :: rest => (script, { env with udp := rest })

/-- `TcpStream::connect_timeout`. -/
def connect (peer : SocketAddr) : Run Env IoError TcpStream := do
  let script ← Run.step fun env =>
    match env.tcp with
    | [] => ({ failure := some (.other 0), nodelay := [], incoming := [], outgoing := [] },
        env.record (.tcpConnect peer))
    | script :: rest => (script, { env with tcp := rest }.record (.tcpConnect peer))
  match script.failure with
  | some kind => throw (.os kind)
  | none => return {
      peer := peer
      nodelay := script.nodelay
      incoming := script.incoming
      outgoing := script.outgoing }

end Env

namespace TcpStream

/-- `set_nodelay`. -/
def setNodelay (stream : TcpStream) : Option ErrorKind × TcpStream :=
  match stream.nodelay with
  | [] => (none, stream)
  | answer :: rest => (answer, { stream with nodelay := rest })

/-- `set_read_timeout`. -/
def setReadTimeout (stream : TcpStream) : Option ErrorKind × TcpStream :=
  match stream.incoming with
  -- Only a refusal is taken here. Anything else waits for the call of `read`.
  | .timeoutRejected kind :: rest => (some kind, { stream with incoming := rest })
  | _ => (none, stream)

/-- `read` into a buffer of `length` bytes. Bytes that do not fit stay in the kernel, and
a stream with nothing left to deliver is at its end. -/
def read (stream : TcpStream) (length : Nat) : Except ErrorKind (List UInt8) × TcpStream :=
  match stream.incoming with
  | [] => (.ok [], stream)
  | .failed kind :: rest => (.error kind, { stream with incoming := rest })
  | .timeoutRejected kind :: rest => (.error kind, { stream with incoming := rest })
  | .data bytes :: rest =>
    if bytes.length ≤ length then (.ok bytes, { stream with incoming := rest })
    -- A delivery longer than the buffer is split over several calls.
    else (.ok (bytes.take length),
      { stream with incoming := .data (bytes.drop length) :: rest })

/-- `set_write_timeout`. -/
def setWriteTimeout (stream : TcpStream) : Option ErrorKind × TcpStream :=
  match stream.outgoing with
  | .timeoutRejected kind :: rest => (some kind, { stream with outgoing := rest })
  | _ => (none, stream)

/-- `write`, which returns how many bytes the kernel took. -/
def write (stream : TcpStream) (bytes : List UInt8) : Except ErrorKind Nat × TcpStream :=
  match stream.outgoing with
  | [] => (.ok bytes.length, stream)
  | .failed kind :: rest => (.error kind, { stream with outgoing := rest })
  | .timeoutRejected kind :: rest => (.error kind, { stream with outgoing := rest })
  | .accepted count :: rest => (.ok (min count bytes.length), { stream with outgoing := rest })

end TcpStream

end Sederial
