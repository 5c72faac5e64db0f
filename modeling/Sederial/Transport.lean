import Sederial.World

/-!
# `Sederial.Transport`: deadlines and TCP framing

The model of `src/transport.rs`. A framing function borrows a stream and consults the
clock, so it runs over a `Session`: the outside world and the stream.

Each loop consults its deadline on every turn, and a clock script that ends fails the
check. The number of readings left in the script therefore bounds the turns, and the
loops recurse on it. With no reading left the next turn would fail in its deadline check;
the base case of each loop performs exactly that check.
-/

set_option autoImplicit false

namespace Sederial

open Sederial.Lib
open Sederial.Dns (headerLength maxMessageLength)

/-- Client transport. -/
inductive Transport where
  | udp
  | tcp
  deriving DecidableEq, Repr

/-- An absolute time budget. -/
structure Deadline where
  instant : Nat
  deriving DecidableEq, Repr

/-- The error of a deadline check that found the stop flag set. -/
def IoError.cancelled : IoError := ⟨.interrupted, .cancelled⟩

/-- The error of a deadline check that found the budget exhausted. -/
def IoError.expired : IoError := ⟨.timedOut, .message "exchange deadline expired"⟩

namespace Deadline

/-- `Deadline::after`. -/
def after {ε : Type} (duration : Nat) : Run Env ε Deadline := do
  return ⟨(← Env.now) + duration⟩

/-- Caps an upstream attempt without extending the request budget. -/
def capped {ε : Type} (deadline : Deadline) (duration : Nat) : Run Env ε Deadline := do
  return ⟨min deadline.instant ((← Env.now) + duration)⟩

/-- What `remaining` returns for a reading. Cancellation takes precedence over expiry. -/
def left (deadline : Deadline) : Option Reading → Except IoError Nat
  | none => .error .expired
  | some reading =>
    if reading.stop then .error .cancelled
    else if reading.now < deadline.instant then .ok (deadline.instant - reading.now)
    else .error .expired

/-- Returns the positive remaining budget after checking cancellation. -/
def remaining (deadline : Deadline) : Run Env IoError Nat := do
  let reading ← Run.step fun env =>
    let (reading, env) := env.tick
    (reading, env.record (.check reading))
  Run.ofExcept (deadline.left reading)

end Deadline

/-- Socket outcomes that permit retry after rechecking stop and deadline. -/
def transient (kind : ErrorKind) : Bool :=
  kind = .wouldBlock || kind = .timedOut || kind = .interrupted

/-- A stream in use, with the outside world. -/
structure Session where
  env : Env
  stream : TcpStream
  deriving DecidableEq

namespace Session

/-- Runs a program that only needs the outside world. -/
def onEnv {ε α : Type} (m : Run Env ε α) : Run Session ε α := fun s =>
  match m.exec s.env with
  | (r, env) => (r, { s with env := env })

/-- Performs a call on the stream. -/
def call {ε α : Type} (f : TcpStream → α × TcpStream) : Run Session ε α :=
  Run.step fun s =>
    match f s.stream with
    | (a, stream) => (a, { s with stream := stream })

/-- Fails with the error of a call that has no other result. -/
def check (answer : Option ErrorKind) : Run Session IoError Unit :=
  match answer with
  | some kind => throw (.os kind)
  | none => pure ()

/-- Records an event about the stream. -/
def record {ε : Type} (e : TcpStream → Event) : Run Session ε Unit :=
  modify fun s => { s with env := s.env.record (e s.stream) }

/-- The turns a loop can still make. -/
def turns {ε : Type} : Run Session ε Nat := do
  return (← get).env.clock.length

end Session

/-- The loop of `read_exact`: `got` holds the bytes of the field read so far. The result
is `none` at the end of the stream before any byte of the field. -/
def readExactLoop (length : Nat) (deadline : Deadline) :
    Nat → List UInt8 → Run Session IoError (Option (List UInt8))
  | turns, got =>
    if got.length < length then do
      discard (Session.onEnv deadline.remaining)
      match turns with
      | 0 => throw .expired
      | turns + 1 =>
        Session.check (← Session.call TcpStream.setReadTimeout)
        match ← Session.call (TcpStream.read · (length - got.length)) with
        | .ok [] =>
          if got.length = 0 then return none
          else throw ⟨.unexpectedEof, .message "partial TCP frame"⟩
        | .ok bytes =>
          Session.record (fun stream => .tcpRead stream.peer bytes)
          readExactLoop length deadline turns (got ++ bytes)
        | .error kind =>
          if transient kind then readExactLoop length deadline turns got
          else throw (.os kind)
    -- The deadline is looked at once more when the field is full.
    else do
      discard (Session.onEnv deadline.remaining)
      return some got

/-- Fills a field of `length` bytes while retaining partial progress. -/
def readExact (length : Nat) (deadline : Deadline) :
    Run Session IoError (Option (List UInt8)) := do
  readExactLoop length deadline (← Session.turns) []

/-- Reads one length-prefixed DNS message, leaving subsequent frames in the stream. -/
def readFrame (deadline : Deadline) : Run Session IoError (Option (List UInt8)) := do
  match ← readExact 2 deadline with
  | none => return none
  | some lengthBytes =>
    let length := (word (lengthBytes.getD 0 0) (lengthBytes.getD 1 0)).toNat
    if length < headerLength then
      throw ⟨.invalidData, .message "TCP DNS frame shorter than header"⟩
    match ← readExact length deadline with
    | none => throw ⟨.unexpectedEof, .message "missing TCP frame body"⟩
    | some wire => return some wire

/-- The loop of `write_frame`: `rest` holds the bytes of the frame not yet written. -/
def writeLoop (deadline : Deadline) : Nat → List UInt8 → Run Session IoError Unit
  | turns, rest =>
    if rest ≠ [] then do
      discard (Session.onEnv deadline.remaining)
      match turns with
      | 0 => throw .expired
      | turns + 1 =>
        Session.check (← Session.call TcpStream.setWriteTimeout)
        match ← Session.call (TcpStream.write · rest) with
        | .ok 0 => throw ⟨.writeZero, .message "TCP write returned zero"⟩
        | .ok count =>
          Session.record (fun stream => .tcpWrite stream.peer (rest.take count))
          writeLoop deadline turns (rest.drop count)
        | .error kind =>
          if transient kind then writeLoop deadline turns rest
          else throw (.os kind)
    else discard (Session.onEnv deadline.remaining)

/-- The length-prefixed form of a message. -/
def frame (wire : List UInt8) : List UInt8 := wordBytes (UInt16.ofNat wire.length) ++ wire

/-- Writes a complete DNS frame under one deadline, including partial writes. -/
def writeFrame (wire : List UInt8) (deadline : Deadline) : Run Session IoError Unit := do
  if ¬ (headerLength ≤ wire.length ∧ wire.length ≤ maxMessageLength) then
    throw ⟨.invalidInput, .message "invalid TCP DNS frame length"⟩
  writeLoop deadline (← Session.turns) (frame wire)

end Sederial
