import Sederial.Transport

/-!
# `Sederial.Upstream`: correlated exchanges, failover and TCP connection reuse

The model of `src/upstream.rs`. The state of a `Forwarder` is its cached connection; the
entropy handle of the source is a script of the outside world. The model keeps the outside
world beside the cached connection, so that every method is a `Run` over one state.

The stop flag is part of every clock reading, so an `Exchange` holds only the sent query
and the deadline.
-/

set_option autoImplicit false

namespace Sederial

open Sederial.Lib
open Sederial.Dns (Packet Query Response ResponseCode SentQuery ServerCookieRetry
  TransactionId maxMessageLength)

/-- Two seconds, in nanoseconds. -/
def attemptTimeout : Nat := 2000000000

/-- `MAX_INVALID_RESPONSES`. -/
def maxInvalidResponses : Nat := 64
/-- Two seconds, in nanoseconds. -/
def tcpReuseIdle : Nat := 2000000000

/-- A stream retained only after a complete, correlated TCP exchange. -/
structure CachedConnection where
  address : UpstreamAddress
  stream : TcpStream
  lastUsed : Nat
  deriving DecidableEq

/-- One attempt keeps its query, rewritten ID and deadline across UDP/TCP fallback. -/
structure Exchange where
  sent : SentQuery
  deadline : Deadline
  deriving DecidableEq

/-- The cached connection of a forwarder, and the outside world. -/
structure Forwarder where
  tcp : Option CachedConnection
  env : Env
  deriving DecidableEq

/-- NOERROR and NXDOMAIN stop the walk; SERVFAIL and REFUSED are tried against the next
server. -/
def retriesInGroup (code : ResponseCode) : Bool :=
  code = .serverFailure || code = .refused

/-- The failure that a response code stands for. -/
def ForwardError.fromRcode : ResponseCode → ForwardError
  | .refused => .refused
  | _ => .serverFailure

/-- Sends one frame and accepts exactly one complete, correlated TCP response. -/
def Exchange.sendOverTcp (exchange : Exchange) : Run Session ForwardError Response := do
  Session.record fun stream => .tcpSend stream.peer exchange.sent.wire
  Run.mapError ForwardError.ofIo (writeFrame exchange.sent.wire exchange.deadline)
  match ← Run.mapError ForwardError.ofIo (readFrame exchange.deadline) with
  | none => throw .invalidResponse
  | some bytes =>
    discard (Run.mapError ForwardError.ofIo (Session.onEnv exchange.deadline.remaining))
    match Packet.parse bytes with
    | .error e => throw (.parse e)
    | .ok packet =>
      match exchange.sent.validateResponse packet with
      | none => throw .invalidResponse
      | some response =>
        Session.record fun stream => .accept stream.peer response
        return response

namespace Forwarder

/-- Runs a program of the outside world. -/
def onEnv {ε α : Type} (m : Run Env ε α) : Run Forwarder ε α := fun s =>
  match m.exec s.env with
  | (r, env) => (r, { s with env := env })

/-- Runs a fallible call of the outside world, converting its error with `?`. -/
def onIo {α : Type} (m : Run Env IoError α) : Run Forwarder ForwardError α :=
  Run.mapError ForwardError.ofIo (onEnv m)

/-- Records an event. -/
def record {ε : Type} (e : Event) : Run Forwarder ε Unit :=
  modify fun s => { s with env := s.env.record e }

/-- `exchange.deadline.remaining(exchange.stop)?`. -/
def checkDeadline (deadline : Deadline) : Run Forwarder ForwardError Unit :=
  discard (onIo deadline.remaining)

/-- Fails with the error of a call that has no other result. -/
def checkCall (answer : Option ErrorKind) : Run Forwarder ForwardError Unit :=
  match answer with
  | some kind => throw (ForwardError.ofIo (.os kind))
  | none => pure ()

/-- Drops an expired cached stream when called. -/
def expireIdle {ε : Type} : Run Forwarder ε Unit := do
  match (← get).tcp with
  | none => return
  | some connection =>
    let now ← onEnv Env.now
    if now - connection.lastUsed ≥ tcpReuseIdle then
      modify fun s => { s with tcp := none }

/-- A transaction ID from the entropy source. -/
def nextTransactionId : Run Forwarder ForwardError TransactionId := do
  match ← onEnv Env.readEntropy with
  | .ok id => return ⟨id⟩
  | .error kind => throw (ForwardError.ofIo (.os kind))

/-- `TcpStream::connect_timeout` within the deadline. -/
def connect (address : UpstreamAddress) (deadline : Deadline) :
    Run Forwarder ForwardError TcpStream := do
  checkDeadline deadline
  onIo (Env.connect address.socket)

/-- `stream.set_nodelay(true)?`. -/
def setNodelay (stream : TcpStream) : Run Forwarder ForwardError TcpStream :=
  match stream.setNodelay with
  | (some kind, _) => throw (ForwardError.ofIo (.os kind))
  | (none, stream) => pure stream

/-- Runs a framing program on a stream and returns how it ended, with the stream. -/
def onStream {α : Type} (stream : TcpStream) (m : Run Session ForwardError α) :
    Run Forwarder ForwardError (Except ForwardError α × TcpStream) :=
  Run.step fun s =>
    match m.exec { env := s.env, stream := stream } with
    | (r, session) => ((r, session.stream), { s with env := session.env })

/-- `self.tcp.take().filter(|connection| connection.address == address)`. -/
def takeCached (address : UpstreamAddress) :
    Run Forwarder ForwardError (Option CachedConnection) :=
  Run.step fun s =>
    (s.tcp.filter fun connection => decide (connection.address = address), { s with tcp := none })

/-- The stream of the cached connection, or a new one. -/
def streamFor (address : UpstreamAddress) (deadline : Deadline) :
    Option CachedConnection → Run Forwarder ForwardError TcpStream
  | some connection => do
    record (.tcpReuse connection.stream.peer)
    return connection.stream
  | none => connect address deadline

/-- `stream.set_nodelay(true)?` and `exchange.send_over_tcp(&mut stream)`. -/
def sendOn (exchange : Exchange) (stream : TcpStream) :
    Run Forwarder ForwardError (Except ForwardError Response × TcpStream) := do
  let stream ← setNodelay stream
  onStream stream exchange.sendOverTcp

/-- Returns the result of an exchange and caches the stream of a successful one. -/
def cacheSuccess (address : UpstreamAddress) (result : Except ForwardError Response)
    (stream : TcpStream) : Run Forwarder ForwardError Response :=
  match result with
  | .error e => throw e
  | .ok response => do
    let now ← onEnv Env.now
    modify fun s => { s with tcp := some { address, stream, lastUsed := now } }
    return response

/-- Reuses only a matching, unexpired stream and caches only successful exchanges. -/
def tcpExchange (address : UpstreamAddress) (exchange : Exchange) :
    Run Forwarder ForwardError Response := do
  expireIdle
  let cached ← takeCached address
  let stream ← streamFor address exchange.deadline cached
  let sent ← sendOn exchange stream
  -- A peer may close an idle reused connection. Reconnect once.
  if cached.isSome ∧ sent.1.isOk = false then do
    let stream ← connect address exchange.deadline
    let sent ← sendOn exchange stream
    cacheSuccess address sent.1 sent.2
  else cacheSuccess address sent.1 sent.2

/-- The receive loop of `udp_exchange`. A socket with nothing left to deliver times out. -/
def udpLoop (address : UpstreamAddress) (exchange : Exchange) :
    Nat → List UdpEvent → Nat → Run Forwarder ForwardError Response
  | turns, incoming, invalidResponses => do
    checkDeadline exchange.deadline
    match turns with
    | 0 => throw .timeout
    | turns + 1 =>
      match incoming with
      | [] => udpLoop address exchange turns [] invalidResponses
      | .timeoutRejected kind :: _ => throw (ForwardError.ofIo (.os kind))
      | .failed kind :: rest =>
        if transient kind then udpLoop address exchange turns rest invalidResponses
        else throw (ForwardError.ofIo (.os kind))
      | .datagram bytes :: rest =>
        checkDeadline exchange.deadline
        -- The receive buffer cuts a longer datagram.
        let bytes := bytes.take maxMessageLength
        if exchange.sent.matchesTruncated bytes then tcpExchange address exchange
        else
          match (Packet.parse bytes).toOption.bind exchange.sent.validateResponse with
          | some response =>
            record (.accept address.socket response)
            return response
          | none =>
            if invalidResponses + 1 = maxInvalidResponses then throw .invalidResponse
            else udpLoop address exchange turns rest (invalidResponses + 1)

/-- Uses a fresh connected UDP socket, ignoring bounded invalid responses. -/
def udpExchange (address : UpstreamAddress) (exchange : Exchange) :
    Run Forwarder ForwardError Response := do
  let socket ← onEnv Env.openUdp
  checkCall socket.bind
  checkCall socket.connect
  checkDeadline exchange.deadline
  checkCall socket.setWriteTimeout
  record (.udpSend address.socket exchange.sent.wire)
  checkCall socket.send
  let turns := (← get).env.clock.length
  udpLoop address exchange turns socket.incoming 0

/-- The exchange of a client transport. -/
def exchangeOver (transport : Transport) (address : UpstreamAddress) (exchange : Exchange) :
    Run Forwarder ForwardError Response :=
  match transport with
  | .tcp => tcpExchange address exchange
  | .udp => udpExchange address exchange

/-- The exchange that repeats the query with the cookie of the server. -/
def retryExchange (exchange : Exchange) (wire : List UInt8) :
    Run Forwarder ForwardError Exchange := do
  checkDeadline exchange.deadline
  let id ← nextTransactionId
  match exchange.sent.retry wire id with
  | .error e => throw (.parse e)
  | .ok sent => return { exchange with sent := sent }

/-- Retries this server with the returned server cookie, and if that UDP retry is still
BADCOOKIE, once over TCP. -/
def finishBadcookie (address : UpstreamAddress) (exchange : Exchange) (response : Response)
    (transport : Transport) : Run Forwarder ForwardError Response :=
  match exchange.sent.serverCookieRetry response with
  | .absent => pure response
  | .discard => throw .invalidResponse
  | .current | .tcp =>
    if transport = .tcp then pure response
    else do
      let retry ← retryExchange exchange exchange.sent.wire
      tcpExchange address retry
  | .rewrite wire => do
    let retry ← retryExchange exchange wire
    let retried ← exchangeOver transport address retry
    if retried.responseCode ≠ .badCookie ∨ transport = .tcp then return retried
    else
      let wire ← Run.ofExcept
        (match retry.sent.serverCookieRetry retried with
        | .rewrite wire => .ok wire
        | .current | .tcp => .ok retry.sent.wire
        | .absent | .discard => .error .invalidResponse)
      let retry ← retryExchange retry wire
      tcpExchange address retry

/-- The part of one turn of `forward` that talks to a server: the exchange, and the
BADCOOKIE completion when the response asks for it. -/
def visit (address : UpstreamAddress) (exchange : Exchange) (transport : Transport) :
    Run Forwarder ForwardError Response := do
  let response ← exchangeOver transport address exchange
  if response.responseCode = .badCookie then
    finishBadcookie address exchange response transport
  else return response

/-- The start of one turn of `forward`: a capped budget and a fresh ID. -/
def startAttempt (query : Query) (address : UpstreamAddress) (requestDeadline : Deadline) :
    Run Forwarder ForwardError Exchange := do
  record (.attempt address)
  let deadline ← onEnv (requestDeadline.capped attemptTimeout)
  checkDeadline deadline
  let id ← nextTransactionId
  return { sent := query.sent id, deadline := deadline }

/-- The loop of `forward` over the servers of a group. -/
def forwardLoop (query : Query) (transport : Transport) (requestDeadline : Deadline) :
    List UpstreamAddress → ForwardError → Option Response →
      Run Forwarder ForwardError Response
  | [], lastError, relayedFailure => do
    checkDeadline requestDeadline
    match relayedFailure with
    | some response => return response
    | none => throw lastError
  | address :: rest, _, relayedFailure => do
    let exchange ← startAttempt query address requestDeadline
    record (.visit address)
    let result ← Run.attempt (visit address exchange transport)
    record (.outcome address result)
    match result with
    | .error .cancelled => throw .cancelled
    | .error error => forwardLoop query transport requestDeadline rest error relayedFailure
    | .ok response =>
      checkDeadline requestDeadline
      let code := response.responseCode
      if code = .badCookie ∨ ¬ retriesInGroup code then return response
      else
        forwardLoop query transport requestDeadline rest (ForwardError.fromRcode code)
          (some response)

/-- Tries selected endpoints in order with fresh IDs and capped attempt budgets. -/
def forward (query : Query) (upstreams : UpstreamGroup) (transport : Transport)
    (requestDeadline : Deadline) : Run Forwarder ForwardError Response :=
  forwardLoop query transport requestDeadline upstreams.servers .timeout none

end Forwarder

end Sederial
