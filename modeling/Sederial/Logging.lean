import Sederial.Config

/-!
# `Sederial.Logging`: bounded diagnostics

The model of `src/logging.rs`. A line goes through one of two bounded channels to the thread
`logger`, which writes it to stderr. `info` and `error` use the important lane, `warn` the routine
one.

`Logger.step` performs one action of one thread, so a run is any interleaving of the threads that
emit lines, the logger thread and the thread that drops the guard. The sink may block: an action
that ends a write need never come. What it answers is ignored by the code and does not occur here.
`Logger.accepted` and `Logger.written` record what `try_send` accepted and what the sink was given.
Nothing in the service reads them.

`warn` decides under a lock, so its calls have an order. Each call reads the clock up to three
times.
-/

set_option autoImplicit false

namespace Sederial

/-! ### Lines -/

/-- The length of the longest line. -/
def maxLine : Nat := 2048

/-- The bytes of a line, without the newline. -/
abbrev Line : Type := List UInt8

/-- `str::is_char_boundary`: no continuation byte starts here. -/
def isCharBoundary (text : Line) (index : Nat) : Bool :=
  if index = 0 then true
  else
    match text[index]? with
    | none => index == text.length
    | some byte => byte < 0x80 || 0xc0 ≤ byte

/-- `while !line.is_char_boundary(end) { end -= 1; }`. -/
def charBoundary (line : Line) : Nat → Nat
  -- The start of a line is a boundary.
  | 0 => 0
  | last + 1 => if isCharBoundary line (last + 1) then last + 1 else charBoundary line last

/-- What `emit` sends. -/
def emitted (level message : String) : Line :=
  let line := utf8 (level ++ " " ++ message)
  if line.length > maxLine then line.take (charBoundary line maxLine) else line

/-! ### The logger thread -/

/-- The two queues of the logger. -/
inductive Lane where
  | routine
  | important
  deriving DecidableEq

/-- The capacity of the channel. -/
def Lane.capacity : Lane → Nat
  | .routine => 64
  | .important => 16

/-- The next thing the logger thread does. -/
inductive LoggerPhase where
  /-- `events.try_recv()`. -/
  | polling
  /-- `messages.try_recv()`. -/
  | falling
  /-- `writeln!(sink, ..)`, with a line from this lane. -/
  | writing (lane : Lane) (line : Line)
  /-- `stopping.load(..)`. -/
  | looking
  /-- `messages.recv_timeout(..)`. -/
  | waiting
  /-- `done.send(())`. -/
  | reporting
  /-- The end of the closure, where the receivers are dropped. -/
  | ending
  | ended
  deriving DecidableEq

/-- The next thing `drop` of the guard does. -/
inductive GuardPhase where
  | held
  /-- `finished.recv_timeout(FLUSH_TIMEOUT)`. -/
  | awaiting
  /-- `thread.join()`. -/
  | joining
  | dropped
  deriving DecidableEq

/-- The state of the logger, its queues and its output. -/
structure Logger where
  routine : List Line
  important : List Line
  stop : Bool
  phase : LoggerPhase
  /-- The message in the channel `finished`. -/
  finished : Bool
  guard : GuardPhase
  accepted : List (Lane × Line)
  written : List (Lane × Line)

/-- One action of a caller, of the writer or of the owner. -/
inductive LoggerAction where
  /-- `try_send` on a lane. -/
  | emit (lane : Lane) (line : Line)
  /-- The logger thread goes on. In a write, the sink returns. -/
  | run
  /-- `recv_timeout` of the logger thread gives up. -/
  | timeout
  /-- The guard is dropped, or its `drop` goes on. -/
  | drop
  /-- `recv_timeout` in `drop` gives up. -/
  | expire

namespace Logger

/-- The state after `Logger::start`. -/
def start : Logger where
  routine := []
  important := []
  stop := false
  phase := .polling
  finished := false
  guard := .held
  accepted := []
  written := []

/-- The lines in a channel. -/
def queue (s : Logger) : Lane → List Line
  | .routine => s.routine
  | .important => s.important

/-- The queue of a lane is replaced. -/
def setQueue (s : Logger) (lines : List Line) : Lane → Logger
  | .routine => { s with routine := lines }
  | .important => { s with important := lines }

/-- `sender.try_send(line)`. A line that is not accepted is lost. -/
def emit (lane : Lane) (line : Line) (s : Logger) : Logger :=
  if s.phase = .ended then s
  else if (s.queue lane).length < lane.capacity then
    { s.setQueue (s.queue lane ++ [line]) lane with accepted := s.accepted ++ [(lane, line)] }
  else s

/-- `try_recv`, or `recv_timeout` with a line in the channel: the thread takes a line and writes
it, or goes to another phase. -/
def take (lane : Lane) (otherwise : LoggerPhase) (s : Logger) : Logger :=
  match s.queue lane with
  | line :: lines => { s.setQueue lines lane with phase := .writing lane line }
  | [] => { s with phase := otherwise }

/-- One step of the logger thread. -/
def run (s : Logger) : Option Logger :=
  match s.phase with
  | .polling => some (s.take .important .falling)
  | .falling => some (s.take .routine .looking)
  | .writing lane line =>
    some { s with written := s.written ++ [(lane, line)], phase := .polling }
  | .looking => some { s with phase := if s.stop then .reporting else .waiting }
  | .waiting => if s.routine = [] then none else some (s.take .routine .polling)
  -- The channel has room, as this is its only message.
  | .reporting => some { s with finished := true, phase := .ending }
  | .ending => some { s with phase := .ended }
  | .ended => none

/-- One step of `drop`. -/
def drop (s : Logger) : Option Logger :=
  match s.guard with
  | .held => some { s with stop := true, guard := .awaiting }
  | .awaiting =>
    if s.finished then some { s with finished := false, guard := .joining } else none
  | .joining => if s.phase = .ended then some { s with guard := .dropped } else none
  | .dropped => none

/-- One action, if it is possible. -/
def step (s : Logger) : LoggerAction → Option Logger
  | .emit lane line => some (s.emit lane line)
  | .run => s.run
  | .timeout =>
    if s.phase = .waiting ∧ s.routine = [] then some { s with phase := .polling } else none
  | .drop => s.drop
  | .expire => if s.guard = .awaiting then some { s with guard := .dropped } else none

end Logger

/-! ### Warnings -/

/-- Five seconds, in nanoseconds. -/
def warningInterval : Nat := 5000000000

/-- How many routine warnings a window admits. -/
def warningBurst : Nat := 20

/-- The window of the routine warnings. -/
structure WarningWindow where
  startedAt : Nat
  emitted : Nat
  /-- A `u64`. -/
  suppressed : Nat

/-- What a call of `warn` reads of the clock. -/
structure WarningTimes where
  /-- The argument of `get_or_insert`. -/
  first : Nat
  /-- `started_at.elapsed()`. -/
  now : Nat
  /-- The start of the next window. -/
  restart : Nat

/-- What a call of `warn` decides under the lock. -/
structure Verdict where
  emit : Bool
  suppressed : Nat
  deriving DecidableEq

/-- The window of a call, and the warnings that the window before it suppressed, if it is new. -/
def WarningWindow.turn (window : Option WarningWindow) (times : WarningTimes) :
    WarningWindow × Nat :=
  let window := window.getD ⟨times.first, 0, 0⟩
  if times.now - window.startedAt ≥ warningInterval then
    (⟨times.restart, 0, 0⟩, window.suppressed)
  else (window, 0)

/-- The locked part of `warn`. -/
def WarningWindow.warn (window : Option WarningWindow) (times : WarningTimes) :
    Verdict × WarningWindow :=
  match WarningWindow.turn window times with
  | (window, suppressed) =>
    if window.emitted < warningBurst then
      (⟨true, suppressed⟩, { window with emitted := window.emitted + 1 })
    else
      (⟨false, suppressed⟩, { window with suppressed := min (window.suppressed + 1) (2 ^ 64 - 1) })

/-- The lines of a call of `warn`, all of them in the routine lane. -/
def Verdict.lines (verdict : Verdict) (message : String) : List Line :=
  (if verdict.suppressed > 0 then
    [emitted "WARN" ("suppressed " ++ toString verdict.suppressed ++ " repeated diagnostics")]
  else []) ++
  (if verdict.emit then [emitted "WARN" message] else [])

/-- Some calls of `warn`, in the order in which they took the lock. -/
def WarningWindow.warns : Option WarningWindow → List WarningTimes →
    List Verdict × Option WarningWindow
  | window, [] => ([], window)
  | window, times :: rest =>
    match WarningWindow.warn window times with
    | (verdict, window) =>
      match WarningWindow.warns (some window) rest with
      | (verdicts, window) => (verdict :: verdicts, window)

end Sederial
