import Sederial.Crew
import Sederial.Proofs.TcpSession

/-!
# `Sederial.Service`: both transports, from start to shutdown

The model of the rest of `src/server.rs`. `Server::run` is the program of the main thread, which
receives datagrams; the closure it spawns is the program of the thread `tcp-listener`, which
accepts connections. Each of them has a program counter (`Main`, `Listener`), and each drives a
pool of workers. `Service.step` performs one action of one thread, so a run is any interleaving
of the two listeners, the workers of both pools and the signal handler.

What the code does not control is chosen by the action: what the kernel answers, what the clock
shows, when a wait times out, and which thread is next. What a worker will see of the world is
given by `Server`.

The stop flag is shared: an action that raises it for one pool raises it for the other one as well.
`Service.received` and `Service.arrived` record what came from the clients. Nothing in the service
reads them.
-/

set_option autoImplicit false

namespace Sederial

open Sederial.Lib
open Sederial.Dns (maxMessageLength)

/-- `UDP_WORKERS`. -/
def udpWorkers : Nat := 8

/-- `TCP_WORKERS`. -/
def tcpWorkers : Nat := 16

/-- `UDP_QUEUE`: how many datagrams wait for a worker at most. -/
def udpQueue : Nat := 64

/-- `TCP_QUEUE`: how many connections wait for a worker at most. -/
def tcpQueue : Nat := 16

/-- Owned packet bytes and the endpoint to which its reply must be sent. -/
structure Datagram where
  wire : List UInt8
  peer : SocketAddr
  deadline : Deadline

/-! ### Errors of `accept` -/

/-- The kinds that only `accept_error_is_retryable` names. -/
def ErrorKind.connectionAborted : ErrorKind := .other 1

/-- `ErrorKind::ConnectionReset`. -/
def ErrorKind.connectionReset : ErrorKind := .other 2

/-- `ErrorKind::NetworkDown`. -/
def ErrorKind.networkDown : ErrorKind := .other 3

/-- `ErrorKind::NetworkUnreachable`. -/
def ErrorKind.networkUnreachable : ErrorKind := .other 4

/-- `ErrorKind::HostUnreachable`. -/
def ErrorKind.hostUnreachable : ErrorKind := .other 5

/-- An error of `accept`, with its `raw_os_error`. -/
structure AcceptError where
  kind : ErrorKind
  errno : Option Int
  deriving DecidableEq

/-- Linux pending network errors without portable `ErrorKind` equivalents: `ENONET`, `EPROTO`,
`ENOPROTOOPT`, `EOPNOTSUPP`, `ENETDOWN`, `ENETUNREACH`, `ECONNABORTED`, `ECONNRESET`, `EHOSTDOWN`
and `EHOSTUNREACH`. -/
def linuxAcceptErrorIsRetryable (errno : Option Int) : Bool :=
  match errno with
  | none => false
  | some code => [64, 71, 92, 95, 100, 101, 103, 104, 112, 113].contains code

/-- An error of `accept` after which the listener goes on. -/
def acceptErrorIsRetryable (error : AcceptError) : Bool :=
  if transient error.kind then true
  else if error.kind = .connectionAborted ∨ error.kind = .connectionReset ∨
      error.kind = .networkDown ∨ error.kind = .networkUnreachable ∨
      error.kind = .hostUnreachable then true
  else linuxAcceptErrorIsRetryable error.errno

/-! ### The workers -/

/-- A reply given to `send_to`, and the error of that call, which is only logged. -/
structure Sent where
  peer : SocketAddr
  wire : List UInt8
  failure : Option ErrorKind

/-- Owns exchange state while sharing the socket used for UDP intake and replies. -/
structure UdpWorker where
  handler : Forwarder
  /-- How the socket will answer `send_to`. -/
  answers : List (Option ErrorKind)
  sent : List Sent

/-- `RequestHandler::expire_idle`. -/
def RequestHandler.expireIdle (handler : Forwarder) : Forwarder :=
  ((Forwarder.expireIdle : Run Forwarder NoReply Unit).exec handler).2

/-- One datagram: the handler makes a reply or none, and the reply is sent to the peer. -/
def UdpWorker.handle (routing : RoutingTable) (job : Datagram) (w : UdpWorker) : UdpWorker :=
  match (RequestHandler.respond routing job.wire .udp job.deadline).exec w.handler with
  | (.error .silent, handler) => { w with handler := handler }
  | (.ok wire, handler) => {
      handler := handler
      answers := w.answers.tail
      sent := w.sent ++ [⟨job.peer, wire, w.answers.head?.join⟩] }

/-- `Worker::maintain` for UDP. -/
def UdpWorker.maintain (w : UdpWorker) : UdpWorker :=
  { w with handler := RequestHandler.expireIdle w.handler }

/-- `impl Worker for UdpWorker`. -/
def udpWorker (routing : RoutingTable) : Worker UdpWorker Datagram where
  handle := UdpWorker.handle routing
  maintain := UdpWorker.maintain

/-- What one session will see of the clock and of the stop flag. -/
structure SessionWorld where
  env : Env
  /-- The stop flag when the session has failed. -/
  stop : Bool

/-- A session that is over. -/
structure TcpSession where
  client : Connection
  result : Except IoError Unit
  trace : List ServeEvent
  /-- The failure was logged. -/
  warned : Bool

/-- Holds one connection for its full framed session before accepting another job. -/
structure TcpWorker where
  handler : Forwarder
  worlds : List SessionWorld
  sessions : List TcpSession

/-- Without a world left every deadline has passed. -/
def SessionWorld.ended : SessionWorld := ⟨⟨[], [], [], [], []⟩, false⟩

/-- One connection: its whole session is served, and a failure is logged unless the service stops or
the client was too slow. -/
def TcpWorker.handle (routing : RoutingTable) (job : Connection) (w : TcpWorker) : TcpWorker :=
  let world := w.worlds.headD .ended
  match serveTcp (RequestHandler.handler routing) job world.env w.handler with
  | (result, serving) =>
    let warned := match result with
      | .ok _ => false
      | .error error => !world.stop && error.kind != .timedOut
    { handler := serving.handler
      worlds := w.worlds.tail
      sessions := w.sessions ++ [⟨job, result, serving.trace, warned⟩] }

/-- `Worker::maintain` for TCP. -/
def TcpWorker.maintain (w : TcpWorker) : TcpWorker :=
  { w with handler := RequestHandler.expireIdle w.handler }

/-- `impl Worker for TcpWorker`. -/
def tcpWorker (routing : RoutingTable) : Worker TcpWorker Connection where
  handle := TcpWorker.handle routing
  maintain := TcpWorker.maintain

/-- The routing policy shared by the workers, and what each worker will see of the world. -/
structure Server where
  routing : RoutingTable
  udpEnv : Nat → Env
  udpAnswers : Nat → List (Option ErrorKind)
  tcpEnv : Nat → Env
  tcpWorlds : Nat → List SessionWorld

/-- `RequestHandler::new` starts without a cached connection. -/
def Server.createUdp (server : Server) (index : Nat) : UdpWorker where
  handler := ⟨none, server.udpEnv index⟩
  answers := server.udpAnswers index
  sent := []

/-- A worker for TCP starts without a cached connection either. -/
def Server.createTcp (server : Server) (index : Nat) : TcpWorker where
  handler := ⟨none, server.tcpEnv index⟩
  worlds := server.tcpWorlds index
  sessions := []

/-! ### The threads -/

/-- What `shutdown`, the listeners and `run` return. -/
abbrev Outcome : Type := Except IoError Unit

/-- `Result::and`. -/
def Outcome.and (first second : Outcome) : Outcome :=
  match first with
  | .ok _ => second
  | .error error => .error error

/-- What the owner of a pool does next, with the answer of the call if it can fail. -/
inductive OwnerEvent where
  | create (failure : Option IoError)
  | spawn (failure : Option IoError)
  | proceed
  | expire

namespace OwnerEvent

/-- The action of the pool for this action of its owner. -/
def action {Job : Type} : OwnerEvent → Action Job
  | .create failure => .create failure.isNone
  | .spawn failure => .spawn failure.isNone
  | .proceed => .proceed
  | .expire => .expire

/-- The error with which `Pool::new` will return. -/
def failure : OwnerEvent → Option IoError
  | .create failure | .spawn failure => failure
  | .proceed | .expire => none

end OwnerEvent

/-- What `shutdown` returns with this action, if it returns. -/
def Pool.shutdownResult {Job : Type} (s : Pool Job) : OwnerEvent → Option Outcome
  | .proceed =>
    match s.owner, s.workers with
    | .joining _, [] => some (if s.failed then .error .workerTerminated else .ok ())
    | _, _ => none
  | .expire => some (.error .shutdownIncomplete)
  | .create _ | .spawn _ => none

/-- The next thing the main thread does. -/
inductive Main where
  /-- `Pool::new` for UDP. -/
  | openingUdp
  /-- `Pool::new` for UDP stops the workers it has and returns this error. -/
  | abortingUdp (error : IoError)
  /-- `Pool::new` for TCP. -/
  | openingTcp
  /-- `listener.local_addr()`. -/
  | addressing
  /-- `thread::Builder::spawn`. -/
  | spawning
  /-- The pool for TCP is dropped, or stops its workers in `Pool::new`. -/
  | leavingTcp (error : IoError)
  /-- `while !stop.load(..)` in `receive_udp`. -/
  | looking
  /-- `udp.recv_from(..)`. -/
  | receiving
  /-- The look at the stop flag behind `recv_from`. -/
  | received (datagram : Datagram)
  /-- `pool.submit(..)`. -/
  | submitting (datagram : Datagram)
  /-- `receive_udp` has returned: `stop.store(true, ..)`. -/
  | raising (result : Outcome)
  /-- `TcpStream::connect_timeout`, which wakes a blocking `accept`. -/
  | waking (result : Outcome)
  /-- `udp_pool.shutdown(..)`, with the text of the error of the wake connection. -/
  | closingUdp (result : Outcome) (wake : Option String)
  /-- `completion.recv_timeout(..)`. -/
  | awaiting (result udpWorkers : Outcome) (wake : Option String)
  /-- `tcp_thread.join()`. -/
  | joining (result udpWorkers : Outcome)
  /-- The end of `run`. -/
  | leaving (result : Outcome)
  /-- The pool for UDP is dropped. -/
  | droppingUdp (result : Outcome)
  | returned (result : Outcome)

namespace Main

/-- Where `Pool::new` for UDP gets, with the failure of the last call. -/
def openedUdp (failure : Option IoError) (owner : Owner) : Main :=
  match failure with
  | some error => .abortingUdp error
  | none => if owner = .serving then .openingTcp else .openingUdp

/-- Where the drop of the pool for UDP gets when `Pool::new` has failed. -/
def abortedUdp (error : IoError) (owner : Owner) : Main :=
  if owner = .gone then .returned (.error error) else .abortingUdp error

/-- Where `Pool::new` for TCP gets, with the failure of the last call. -/
def openedTcp (failure : Option IoError) (owner : Owner) : Main :=
  match failure with
  | some error => .leavingTcp error
  | none => if owner = .serving then .addressing else .openingTcp

/-- Where the drop of the pool for TCP gets when the start has failed. -/
def leftTcp (error : IoError) (owner : Owner) : Main :=
  if owner = .gone then .leaving (.error error) else .leavingTcp error

/-- Where `udp_pool.shutdown` gets, with its result once it returns. -/
def closedUdp (result : Outcome) (wake : Option String) (workers : Option Outcome) : Main :=
  match workers with
  | some workers => .awaiting result workers wake
  | none => .closingUdp result wake

/-- Where the drop of the pool for UDP gets at the end of `run`. -/
def droppedUdp (result : Outcome) (owner : Owner) : Main :=
  if owner = .gone then .returned result else .droppingUdp result

/-- What `run` has returned. -/
def result : Main → Option Outcome
  | .returned result => some result
  | _ => none

/-- Only a main thread that has returned has a result. -/
theorem result_eq_some {main : Main} {result : Outcome} (h : main.result = some result) :
    main = .returned result := by
  cases main with
  | returned result' => rw [Option.some.inj h]
  | _ => cases h

end Main

/-- What `accept` returns: a stream, and the answer of the kernel to `set_nonblocking` on it. -/
structure Arrival where
  stream : TcpStream
  setNonblocking : Option ErrorKind

/-- The next thing the thread `tcp-listener` does. -/
inductive Listener where
  /-- The thread is not spawned. -/
  | absent
  /-- `while !stop.load(..)` in `accept_clients`. -/
  | looking
  | accepting
  /-- The look at the stop flag behind `accept`. -/
  | accepted (arrival : Arrival)
  /-- `enqueue(stream)`. -/
  | submitting (arrival : Arrival)
  /-- `accept_tcp` has returned: `shutdown.store(true, ..)`. -/
  | raising (result : Outcome)
  /-- `tcp_pool.shutdown(..)` is called. -/
  | stopped (result : Outcome)
  | closing (result : Outcome)
  /-- `finished.send(())`. -/
  | completing (result : Outcome)
  /-- The end of the closure, where the pool for TCP is dropped. -/
  | dropping (result : Outcome)
  /-- The pool is dropped by a panic. -/
  | unwinding
  /-- The thread is over. Without a result it panicked. -/
  | ended (result : Option Outcome)

namespace Listener

/-- Where `tcp_pool.shutdown` gets, with its result once it returns. -/
def closed (result : Outcome) (workers : Option Outcome) : Listener :=
  match workers with
  | some workers => .completing (result.and workers)
  | none => .closing result

/-- Where the end of the thread gets, with its result unless it panicked. -/
def dropped (result : Option Outcome) (owner : Owner) : Listener :=
  if owner = .gone then .ended result
  else
    match result with
    | some result => .dropping result
    | none => .unwinding

end Listener

/-- A line of `logging::info` about the life of the service. -/
inductive Notice where
  | listening
  | stopping
  | complete
  deriving DecidableEq

/-- The state of `Server::run`: the two pools, the two threads, and what passes between them. -/
structure Service where
  udp : Crew UdpWorker Datagram
  tcp : Crew TcpWorker Connection
  main : Main
  listener : Listener
  /-- The message in the completion channel. -/
  completion : Bool
  /-- What `recv_from` returned. -/
  received : List Datagram
  /-- What `accept` returned. -/
  arrived : List Arrival
  notices : List Notice

/-- What the main thread does, with the answer of the kernel if there is one. -/
inductive MainEvent where
  /-- Nothing but the state of the service decides. -/
  | go
  | owner (event : OwnerEvent)
  | address (failure : Option IoError)
  | spawn (failure : Option IoError)
  /-- `recv_from` returns, at this time. -/
  | receive (answer : Except ErrorKind (List UInt8 × SocketAddr)) (now : Nat)
  | connect (failure : Option String)
  /-- `recv_timeout` gives up. -/
  | expire

/-- What the thread `tcp-listener` does, with the answer of the kernel if there is one. -/
inductive ListenerEvent where
  | go
  | owner (event : OwnerEvent)
  | accept (answer : Except AcceptError Arrival)
  /-- `enqueue` is called, at this time. -/
  | enqueue (now : Nat)
  /-- A panic in `accept_tcp`. -/
  | panic

/-- One action of a listener, of a worker or of the surroundings. -/
inductive ServiceAction where
  | main (event : MainEvent)
  | listener (event : ListenerEvent)
  | udpWorker (index : Nat) (move : Move)
  | tcpWorker (index : Nat) (move : Move)
  /-- SIGTERM or SIGINT sets the stop flag. -/
  | signal
  /-- A panic under the lock of a queue. -/
  | poisonUdp
  | poisonTcp

/-- The thread `tcp-listener` panicked. -/
def IoError.listenerTerminated : IoError :=
  ⟨.other 0, .message "TCP listener terminated unexpectedly"⟩

/-- `completion.recv_timeout` gave up. -/
def IoError.listenerTimedOut (wake : Option String) : IoError :=
  let detail := match wake with
    | none => "local wake connection succeeded"
    | some error => "local wake connection failed: " ++ error
  ⟨.timedOut, .message ("TCP listener shutdown timed out: " ++ detail)⟩

/-- The stop flag as a pool sees it. -/
def Crew.setStop {W Job : Type} (stop : Bool) (crew : Crew W Job) : Crew W Job :=
  { crew with pool := { crew.pool with stop := stop } }

namespace Service

/-- The service when `Server::run` is called. -/
def start (stop : Bool) : Service where
  udp := .start udpWorkers udpQueue stop
  tcp := .start tcpWorkers tcpQueue stop
  main := .openingUdp
  listener := .absent
  completion := false
  received := []
  arrived := []
  notices := []

/-- The shared stop flag. -/
def stop (s : Service) : Bool := s.udp.pool.stop

/-- An action of the pool for UDP. The other pool sees the stop flag. -/
def onUdp (server : Server) (a : Action Datagram) (s : Service) : Option Service :=
  (s.udp.step (udpWorker server.routing) server.createUdp a).map fun udp =>
    { s with udp := udp, tcp := s.tcp.setStop udp.pool.stop }

/-- An action of the pool for TCP. -/
def onTcp (server : Server) (a : Action Connection) (s : Service) : Option Service :=
  (s.tcp.step (tcpWorker server.routing) server.createTcp a).map fun tcp =>
    { s with tcp := tcp, udp := s.udp.setStop tcp.pool.stop }

/-- The main thread goes on. -/
def goto (main : Main) (s : Service) : Service := { s with main := main }

/-- The thread `tcp-listener` goes on. -/
def listen (listener : Listener) (s : Service) : Service := { s with listener := listener }

/-- `logging::info`. -/
def notify (notice : Notice) (s : Service) : Service := { s with notices := s.notices ++ [notice] }

/-- The pool for TCP is dropped by the main thread. -/
def leaveTcp (server : Server) (error : IoError) (s : Service) : Option Service :=
  (s.onTcp server .drop).map (goto (.leavingTcp error))

/-- What `tcp_thread.join()` makes of the end of the thread. -/
def joined (result : Option Outcome) : Outcome := result.getD (.error .listenerTerminated)

/-- The thread `tcp-listener` is over, so its end of the completion channel is gone. -/
def hungUp (s : Service) : Bool :=
  match s.listener with
  | .ended _ => true
  | _ => false

/-- One action of the main thread. -/
def mainStep (server : Server) (s : Service) : MainEvent → Option Service
  | .owner event =>
    match s.main with
    | .openingUdp =>
      (s.onUdp server event.action).map fun s' =>
        s'.goto (.openedUdp event.failure s'.udp.pool.owner)
    | .abortingUdp error =>
      (s.onUdp server event.action).map fun s' => s'.goto (.abortedUdp error s'.udp.pool.owner)
    | .openingTcp =>
      (s.onTcp server event.action).map fun s' =>
        s'.goto (.openedTcp event.failure s'.tcp.pool.owner)
    | .leavingTcp error =>
      (s.onTcp server event.action).map fun s' => s'.goto (.leftTcp error s'.tcp.pool.owner)
    | .closingUdp result wake =>
      (s.onUdp server event.action).map
        (goto (.closedUdp result wake (s.udp.pool.shutdownResult event)))
    | .droppingUdp result =>
      (s.onUdp server event.action).map fun s' => s'.goto (.droppedUdp result s'.udp.pool.owner)
    | _ => none
  | .address failure =>
    match s.main, failure with
    | .addressing, none => some (s.goto .spawning)
    | .addressing, some error => s.leaveTcp server error
    | _, _ => none
  | .spawn failure =>
    match s.main, failure with
    | .spawning, none => some (((s.listen .looking).notify .listening).goto .looking)
    -- The closure is dropped, and the pool with it.
    | .spawning, some error => s.leaveTcp server error
    | _, _ => none
  | .receive answer now =>
    match s.main, answer with
    | .receiving, .ok (bytes, peer) =>
      let datagram : Datagram := ⟨bytes.take maxMessageLength, peer, ⟨now + requestTimeout⟩⟩
      some ({ s with received := s.received ++ [datagram] }.goto (.received datagram))
    | .receiving, .error kind =>
      if transient kind then some (s.goto .looking)
      else some (s.goto (.raising (.error (.os kind))))
    | _, _ => none
  | .connect failure =>
    match s.main with
    | .waking result => (s.onUdp server .shutdown).map (goto (.closingUdp result failure))
    | _ => none
  | .expire =>
    match s.main with
    | .awaiting result workers wake =>
      -- A message that is there is received, even at the deadline.
      if s.completion || s.hungUp then none
      else some (s.goto (.leaving ((result.and workers).and (.error (.listenerTimedOut wake)))))
    | _ => none
  | .go =>
    match s.main with
    | .looking => some (s.goto (if s.stop then .raising (.ok ()) else .receiving))
    | .received datagram =>
      some (s.goto (if s.stop then .raising (.ok ()) else .submitting datagram))
    | .submitting datagram => (s.onUdp server (.submit datagram)).map (goto .looking)
    | .raising result =>
      (s.onUdp server .requestStop).map fun s' => (s'.notify .stopping).goto (.waking result)
    | .awaiting result workers _ =>
      if s.completion then some ({ s with completion := false }.goto (.joining result workers))
      else if s.hungUp then some (s.goto (.joining result workers))
      else none
    | .joining result workers =>
      match s.listener with
      | .ended left =>
        let leaving := Main.leaving ((result.and workers).and (joined left))
        match joined left with
        | .ok _ => some ((s.notify .complete).goto leaving)
        | .error _ => some (s.goto leaving)
      | _ => none
    | .leaving result => (s.onUdp server .drop).map (goto (.droppingUdp result))
    | _ => none

/-- One action of the thread `tcp-listener`. -/
def listenerStep (server : Server) (s : Service) : ListenerEvent → Option Service
  | .owner event =>
    match s.listener with
    | .closing result =>
      (s.onTcp server event.action).map
        (listen (.closed result (s.tcp.pool.shutdownResult event)))
    | .dropping result =>
      (s.onTcp server event.action).map fun s' =>
        s'.listen (.dropped (some result) s'.tcp.pool.owner)
    | .unwinding =>
      (s.onTcp server event.action).map fun s' => s'.listen (.dropped none s'.tcp.pool.owner)
    | _ => none
  | .accept answer =>
    match s.listener, answer with
    | .accepting, .ok arrival =>
      some ({ s with arrived := s.arrived ++ [arrival] }.listen (.accepted arrival))
    | .accepting, .error error =>
      if acceptErrorIsRetryable error then some (s.listen .looking)
      else some (s.listen (.raising (.error (.os error.kind))))
    | _, _ => none
  | .enqueue now =>
    match s.listener with
    | .submitting arrival =>
      (s.onTcp server (.submit ⟨arrival.stream, ⟨now + clientFrameTimeout⟩,
        arrival.setNonblocking⟩)).map (listen .looking)
    | _ => none
  | .panic =>
    match s.listener with
    | .looking | .accepting | .accepted _ | .submitting _ =>
      (s.onTcp server .drop).map (listen .unwinding)
    | _ => none
  | .go =>
    match s.listener with
    | .looking => some (s.listen (if s.stop then .raising (.ok ()) else .accepting))
    | .accepted arrival =>
      some (s.listen (if s.stop then .raising (.ok ()) else .submitting arrival))
    | .raising result => (s.onTcp server .requestStop).map (listen (.stopped result))
    | .stopped result => (s.onTcp server .shutdown).map (listen (.closing result))
    | .completing result =>
      (s.onTcp server .drop).map fun s' =>
        { s' with completion := true }.listen (.dropping result)
    | _ => none

/-- One action of the service, if it is possible. -/
def step (server : Server) (s : Service) : ServiceAction → Option Service
  | .main event => s.mainStep server event
  | .listener event => s.listenerStep server event
  | .udpWorker index move => s.onUdp server (.worker index move)
  | .tcpWorker index move => s.onTcp server (.worker index move)
  | .signal => s.onUdp server .requestStop
  | .poisonUdp => s.onUdp server .poison
  | .poisonTcp => s.onTcp server .poison

end Service

end Sederial
