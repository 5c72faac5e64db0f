import Sederial.Forwarding

/-!
# `Sederial.Server`: one TCP client session

The model of `serve_tcp` in `src/server.rs`. A session owns a client stream and calls a request
handler. The handler has a state of its own, which includes its own part of the outside world:
what it sees of the clock and of its peers is not what the session sees, so each of the two may
behave in any way.

The look at the stop flag at the head of the loop takes a reading of the clock script. With no
reading left every deadline has passed, so the flag does not matter: the next `read_frame` fails.
The number of readings left bounds the turns of the loop for this reason.

`Serving.trace` records what the session did, in order: each look at the stop flag, each call of
`read_frame` and `write_frame` with its deadline and what it logged, and each call of the
handler with its reply. Nothing in the service reads it.
-/

set_option autoImplicit false

namespace Sederial

open Sederial.Lib
open Sederial.Dns (headerLength maxMessageLength)

/-- Five seconds, in nanoseconds. -/
def requestTimeout : Nat := 5000000000
/-- Ten seconds, in nanoseconds. -/
def clientFrameTimeout : Nat := 10000000000
/-- Two seconds, in nanoseconds. -/
def clientWriteTimeout : Nat := 2000000000

/-- A request handler with a state of type `σ`. It may answer or not, and what it answers is a
complete DNS message. -/
structure Handler (σ : Type) where
  respond : List UInt8 → Transport → Deadline → σ → Option (List UInt8) × σ
  complete : ∀ wire transport deadline s reply,
    (respond wire transport deadline s).1 = some reply →
      headerLength ≤ reply.length ∧ reply.length ≤ maxMessageLength

/-- An accepted stream whose first-frame budget already includes queue time, with the answer of
the kernel to `set_nonblocking`. -/
structure Connection where
  stream : TcpStream
  firstDeadline : Deadline
  setNonblocking : Option ErrorKind
  deriving DecidableEq

/-- What a session did. -/
inductive ServeEvent where
  /-- `stop.load(..)` at the head of the loop. -/
  | look (stop : Bool)
  | read (deadline : Deadline) (events : List Event)
  | respond (wire : List UInt8) (reply : Option (List UInt8))
  | write (deadline : Deadline) (events : List Event)
  deriving DecidableEq

/-- A session: the client stream with the outside world, the handler, and the trace so far. -/
structure Serving (σ : Type) where
  session : Session
  handler : σ
  trace : List ServeEvent

namespace Serving

variable {σ α : Type}

/-- Runs a program of the outside world. -/
def onEnv (m : Run Env IoError α) : Run (Serving σ) IoError α := fun s =>
  match (Session.onEnv m).exec s.session with
  | (r, session) => (r, { s with session := session })

/-- Runs a framing program on the client stream and records what it logged. -/
def framing (event : List Event → ServeEvent) (m : Run Session IoError α) :
    Run (Serving σ) IoError α := fun s =>
  match m.exec s.session with
  | (r, session) =>
    -- The log only grows, so this is what the program added to it.
    let new := session.env.log.drop s.session.env.log.length
    (r, { s with session := session, trace := s.trace ++ [event new] })

/-- `stop.load(Ordering::Relaxed)`. -/
def stopped : Run (Serving σ) IoError Bool :=
  Run.step fun s =>
    let (reading, env) := s.session.env.tick
    let stop := (reading.map Reading.stop).getD false
    (stop, { s with
      session := { s.session with env := env }
      trace := s.trace ++ [.look stop] })

/-- `handler.respond(&wire, Transport::Tcp, request_deadline)`. -/
def respond (handler : Handler σ) (wire : List UInt8) (deadline : Deadline) :
    Run (Serving σ) IoError (Option (List UInt8)) :=
  Run.step fun s =>
    let (reply, state) := handler.respond wire .tcp deadline s.handler
    (reply, { s with handler := state, trace := s.trace ++ [.respond wire reply] })

/-- Fails with the error of a call that has no other result. -/
def check (answer : Option ErrorKind) : Run (Serving σ) IoError Unit :=
  match answer with
  | some kind => throw (.os kind)
  | none => pure ()

/-- `client.stream.set_nodelay(true)`. -/
def setNodelay : Run (Serving σ) IoError (Option ErrorKind) :=
  Run.step fun s =>
    match s.session.stream.setNodelay with
    | (answer, stream) => (answer, { s with session := { s.session with stream := stream } })

/-- The answer to one request: the handler is called, and its reply is written. -/
def answer (handler : Handler σ) (wire : List UInt8) : Run (Serving σ) IoError Unit := do
  let requestDeadline ← onEnv (Deadline.after requestTimeout)
  match ← respond handler wire requestDeadline with
  | none => pure ()
  | some response =>
    let deadline ← onEnv (requestDeadline.capped clientWriteTimeout)
    framing (.write deadline) (writeFrame response deadline)

/-- One turn of the loop of `serve_tcp`; `again` is the rest of the loop. -/
def turn (handler : Handler σ) (again : Deadline → Run (Serving σ) IoError Unit)
    (deadline : Deadline) : Run (Serving σ) IoError Unit := do
  if ← stopped then pure ()
  else
    match ← framing (.read deadline) (readFrame deadline) with
    | none => pure ()
    | some wire =>
      answer handler wire
      again (← onEnv (Deadline.after clientFrameTimeout))

/-- The loop of `serve_tcp`. -/
def loop (handler : Handler σ) : Nat → Deadline → Run (Serving σ) IoError Unit
  -- Without a reading left the turn fails in `read_frame`, and never gets this far.
  | 0 => turn handler fun _ => throw .expired
  | turns + 1 => turn handler (loop handler turns)

end Serving

/-- Processes a connection's frames in order until EOF, cancellation or I/O error. -/
def serveTcp {σ : Type} (handler : Handler σ) (client : Connection) (env : Env) (state : σ) :
    Except IoError Unit × Serving σ :=
  Run.exec (do
    Serving.check client.setNonblocking
    Serving.check (← Serving.setNodelay)
    Serving.loop handler env.clock.length client.firstDeadline)
    { session := { env := env, stream := client.stream }, handler := state, trace := [] }

end Sederial
