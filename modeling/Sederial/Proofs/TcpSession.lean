import Sederial.Proofs.Framing
import Sederial.Proofs.ReplyShape
import Sederial.Server

/-!
# `Sederial.Proofs.TcpSession`: TCP sessions answer in order, once per frame

A session reads frames, calls its handler and writes replies. `Served messages replies trace`
is the shape of the trace of a session that met no deadline and no cancellation: for each
message one read of exactly its frame, one call of the handler, and one write of exactly the
frame of its reply if there is one; behind the last message one more read.

`Serving.loop_served` proves that the loop has this shape on every stream of frames, whatever its
fragmentation, by induction over the messages. It uses what `Proofs.Framing` says about one call
of `read_frame` and `write_frame`. `Serving.Handled` threads the state of the handler through the
calls of a trace, and `serveTcp_handled` proves it of every session, with any client and clock.
`RequestHandler.handler` is the handler of the service; that it only answers with complete messages
follows from the shape of its replies.
-/

set_option autoImplicit false

namespace Sederial

open Sederial.Lib
open Sederial.Dns (Packet headerLength maxMessageLength)

/-! ### What framing leaves alone -/

/-- Reading leaves the script of the writes alone. -/
theorem TcpStream.read_outgoing (stream : TcpStream) (n : Nat) :
    (stream.read n).2.outgoing = stream.outgoing := by
  unfold read
  split
  · rfl
  · rfl
  · rfl
  · split <;> rfl

/-- Reading writes nothing. -/
theorem ReadsField.written {length : Nat} {deadline : Deadline} {clock clock' : List Reading}
    {stream final : TcpStream} {got : List UInt8} {r : Except IoError (Option (List UInt8))}
    {new : List Event} (h : ReadsField length deadline clock stream got r new clock' final) :
    Event.written new = [] := by
  induction h with
  | late late => rfl
  | full full intime => rfl
  | refused part intime refused => rfl
  | eof part intime read => rfl
  | cut part some intime read => rfl
  | bytes part intime read some rest ih => exact ih
  | again part intime read transient rest ih => exact ih
  | failed part intime read permanent => rfl

/-- The reading of a frame writes nothing. -/
theorem ReadsFrame.written {deadline : Deadline} {clock clock' : List Reading}
    {stream final : TcpStream} {r : Except IoError (Option (List UInt8))} {new : List Event}
    (h : ReadsFrame deadline clock stream r new clock' final) : Event.written new = [] := by
  have hboth : ∀ {new new' : List Event}, Event.written new = [] → Event.written new' = [] →
      Event.written (new ++ new') = [] := by
    intro new new' hnew hnew'
    rw [Event.written_append, hnew, hnew']
    rfl
  cases h with
  | prefixFailed header => exact header.written
  | eof header => exact header.written
  | short header short => exact header.written
  | bodyFailed header long body => exact hboth header.written body.written
  | missing header long body => exact hboth header.written body.written
  | message header long body => exact hboth header.written body.written

/-- Writing leaves the script of the reads alone. -/
theorem TcpStream.write_incoming (stream : TcpStream) (bytes : List UInt8) :
    (stream.write bytes).2.incoming = stream.incoming := by
  unfold write
  split <;> rfl

/-- A field that was read used up clock readings, and what the stream takes is unchanged. -/
theorem ReadsField.clock_outgoing {length : Nat} {deadline : Deadline}
    {clock clock' : List Reading} {stream final : TcpStream} {got : List UInt8}
    {r : Except IoError (Option (List UInt8))} {new : List Event}
    (h : ReadsField length deadline clock stream got r new clock' final) :
    clock'.length ≤ clock.length ∧ (r.isOk → clock'.length < clock.length) ∧
      final.outgoing = stream.outgoing := by
  -- Each check of the deadline takes one reading, and the last one was a success.
  have hclock : ∀ clock : List Reading, clock.tail.length ≤ clock.length := by
    intro clock
    rw [List.length_tail]
    omega
  have hused : ∀ {clock : List Reading} {left : Nat}, deadline.left clock.head? = .ok left →
      clock.tail.length < clock.length := by
    intro clock left hleft
    cases clock with
    | nil => cases hleft
    | cons reading rest => simp
  -- A read takes nothing out of what the stream still accepts.
  induction h with
  | late late => exact ⟨hclock _, fun h => (nomatch h), rfl⟩
  | full full intime => exact ⟨hclock _, fun _ => hused intime, rfl⟩
  | refused part intime refused => exact ⟨hclock _, fun h => (nomatch h), rfl⟩
  | @eof clock stream left stream' part intime read =>
    have houtgoing := stream.read_outgoing length
    rw [read] at houtgoing
    exact ⟨hclock _, fun _ => hused intime, houtgoing⟩
  | @cut clock stream got left stream' part some intime read =>
    have houtgoing := stream.read_outgoing (length - got.length)
    rw [read] at houtgoing
    exact ⟨hclock _, fun h => (nomatch h), houtgoing⟩
  | @bytes clock stream got left chunk stream' r new clock' final part intime read some rest ih =>
    have houtgoing := stream.read_outgoing (length - got.length)
    rw [read] at houtgoing
    obtain ⟨hle, hlt, hfinal⟩ := ih
    have htail := hclock clock
    exact ⟨by omega, fun h => by have := hlt h; omega, hfinal.trans houtgoing⟩
  | @again clock stream got left kind stream' r new clock' final part intime read transient rest
      ih =>
    have houtgoing := stream.read_outgoing (length - got.length)
    rw [read] at houtgoing
    obtain ⟨hle, hlt, hfinal⟩ := ih
    have htail := hclock clock
    exact ⟨by omega, fun h => by have := hlt h; omega, hfinal.trans houtgoing⟩
  | @failed clock stream got left kind stream' part intime read permanent =>
    have houtgoing := stream.read_outgoing (length - got.length)
    rw [read] at houtgoing
    exact ⟨hclock _, fun h => (nomatch h), houtgoing⟩

/-- The reading of a frame takes readings of the clock, and leaves the writes alone. -/
theorem ReadsFrame.clock_outgoing {deadline : Deadline} {clock clock' : List Reading}
    {stream final : TcpStream} {r : Except IoError (Option (List UInt8))} {new : List Event}
    (h : ReadsFrame deadline clock stream r new clock' final) :
    (r.isOk → clock'.length < clock.length) ∧ final.outgoing = stream.outgoing := by
  cases h with
  | prefixFailed header => exact ⟨fun h => (nomatch h), header.clock_outgoing.2.2⟩
  | eof header => exact header.clock_outgoing.2
  | short header short => exact ⟨fun h => (nomatch h), header.clock_outgoing.2.2⟩
  | bodyFailed header long body =>
    exact ⟨fun h => (nomatch h), body.clock_outgoing.2.2.trans header.clock_outgoing.2.2⟩
  | missing header long body =>
    exact ⟨fun h => (nomatch h), body.clock_outgoing.2.2.trans header.clock_outgoing.2.2⟩
  | message header long body =>
    have hheader := header.clock_outgoing
    have hbody := body.clock_outgoing
    exact ⟨fun _ => Nat.lt_of_le_of_lt hbody.1 (hheader.2.1 rfl), hbody.2.2.trans hheader.2.2⟩

/-- Writing takes readings of the clock, and leaves the reads alone. -/
theorem WritesRest.clock_incoming {deadline : Deadline} {clock clock' : List Reading}
    {stream final : TcpStream} {rest : List UInt8} {r : Except IoError Unit} {new : List Event}
    (h : WritesRest deadline clock stream rest r new clock' final) :
    clock'.length ≤ clock.length ∧ final.incoming = stream.incoming := by
  have hclock : ∀ clock : List Reading, clock.tail.length ≤ clock.length := by
    intro clock
    rw [List.length_tail]
    omega
  induction h with
  | late late => exact ⟨hclock _, rfl⟩
  | done intime => exact ⟨hclock _, rfl⟩
  | refused some intime refused => exact ⟨hclock _, rfl⟩
  | @zero clock stream rest left stream' some intime write =>
    have hincoming := stream.write_incoming rest
    rw [write] at hincoming
    exact ⟨hclock _, hincoming⟩
  | @bytes clock stream rest left count stream' r new clock' final some intime write positive more
      ih =>
    have hincoming := stream.write_incoming rest
    rw [write] at hincoming
    exact ⟨Nat.le_trans ih.1 (hclock _), ih.2.trans hincoming⟩
  | @again clock stream rest left kind stream' r new clock' final some intime write transient more
      ih =>
    have hincoming := stream.write_incoming rest
    rw [write] at hincoming
    exact ⟨Nat.le_trans ih.1 (hclock _), ih.2.trans hincoming⟩
  | @failed clock stream rest left kind stream' some intime write permanent =>
    have hincoming := stream.write_incoming rest
    rw [write] at hincoming
    exact ⟨hclock _, hincoming⟩

/-- What a stream delivers is a matter of its incoming events. -/
theorem TcpStream.Delivers.congr {stream stream' : TcpStream} {bytes : List UInt8}
    (h : stream.Delivers bytes) (hincoming : stream'.incoming = stream.incoming) :
    stream'.Delivers bytes := by
  obtain ⟨hbenign, hbytes⟩ := h
  rw [← hincoming] at hbenign hbytes
  exact ⟨hbenign, hbytes⟩

/-- Nothing is no broken frame. -/
theorem not_broken_nil : ¬ Broken [] := by
  intro h
  cases h with
  | cut framed inside some part => exact some rfl

/-! ### The parts of a session -/

/-- The session saw no deadline pass and no cancellation here. -/
def ServeEvent.OnTime : ServeEvent → Prop
  | .look stop => stop = false
  | .read deadline events | .write deadline events => InTime deadline events
  | .respond _ _ => True

/-- Whether an event is in time can be decided. -/
instance : DecidablePred ServeEvent.OnTime
  | .look stop => inferInstanceAs (Decidable (stop = false))
  | .read deadline events | .write deadline events =>
    inferInstanceAs (Decidable (InTime deadline events))
  | .respond _ _ => inferInstanceAs (Decidable True)

namespace Serving

variable {σ : Type} {s : Serving σ}

/-- Nothing but the outside world changed, and its clock did not grow. -/
structure Untouched (s s' : Serving σ) : Prop where
  stream : s'.session.stream = s.session.stream
  trace : s'.trace = s.trace
  clock : s'.session.env.clock.length ≤ s.session.env.clock.length

/-- What an operation of the world does to a session. -/
theorem onEnv_exec {α : Type} (m : Run Env IoError α) (s : Serving σ) :
    (onEnv m).exec s = ((m.exec s.session.env).1,
      { s with session := { s.session with env := (m.exec s.session.env).2 } }) :=
  rfl

/-- What the framing does to a session, with its event. -/
theorem framing_exec {α : Type} (event : List Event → ServeEvent) (m : Run Session IoError α)
    (s : Serving σ) :
    (framing event m).exec s = ((m.exec s.session).1,
      { s with
        session := (m.exec s.session).2
        trace := s.trace ++
          [event ((m.exec s.session).2.env.log.drop s.session.env.log.length)] }) :=
  rfl

/-- A look at the time takes no reading of the clock back. -/
theorem Env.now_exec {ε : Type} (env : Env) :
    ∃ time env', (Env.now : Run Env ε Nat).exec env = (.ok time, env') ∧
      env'.clock.length ≤ env.clock.length := by
  obtain ⟨clock, entropy, udp, tcp, log⟩ := env
  cases clock with
  | nil => exact ⟨_, _, rfl, Nat.le_refl _⟩
  | cons reading rest => exact ⟨_, _, rfl, Nat.le_succ _⟩

/-- A new deadline is one look at the clock. -/
theorem deadline_exec (f : Nat → Deadline) (s : Serving σ) :
    ∃ deadline s', (onEnv (do return f (← Env.now))).exec s = (.ok deadline, s') ∧
      s.Untouched s' := by
  obtain ⟨time, env', hnow, hclock⟩ := @Env.now_exec IoError s.session.env
  have hf : (do return f (← Env.now) : Run Env IoError Deadline).exec s.session.env
      = (.ok (f time), env') := by
    rw [Run.exec_bind, hnow]
    rfl
  refine ⟨f time, { s with session := { s.session with env := env' } }, ?_, ⟨rfl, rfl, hclock⟩⟩
  rw [onEnv_exec, hf]

/-- A look at the stop flag. -/
theorem stopped_exec (s : Serving σ) :
    ∃ stop s', (stopped : Run (Serving σ) IoError Bool).exec s = (.ok stop, s') ∧
      s'.session.stream = s.session.stream ∧ s'.trace = s.trace ++ [.look stop] ∧
      s'.session.env.clock.length ≤ s.session.env.clock.length := by
  obtain ⟨⟨⟨clock, entropy, udp, tcp, log⟩, stream⟩, handler, trace⟩ := s
  cases clock with
  | nil => exact ⟨_, _, rfl, rfl, rfl, Nat.le_refl _⟩
  | cons reading rest => exact ⟨_, _, rfl, rfl, rfl, Nat.le_succ _⟩

/-- A framing program records what it logged. -/
theorem framing_exec_of_moved {α : Type} (event : List Event → ServeEvent)
    {m : Run Session IoError α} {s : Serving σ} {new : List Event} {clock : List Reading}
    (h : (m.exec s.session).2.env = s.session.env.moved new clock) :
    (framing event m).exec s = ((m.exec s.session).1,
      { s with
        session := { env := s.session.env.moved new clock, stream := (m.exec s.session).2.stream }
        trace := s.trace ++ [event new] }) := by
  have hnew : (m.exec s.session).2.env.log.drop s.session.env.log.length = new := by
    rw [h]
    exact List.drop_left
  rw [framing_exec, hnew, ← h]

/-- The answer to one message. When the reply is written in time, it is written whole, and the
next message is still to come. -/
theorem answer_exec (handler : Handler σ) {bytes : List UInt8} (wire : List UInt8)
    (hdelivers : s.session.stream.Delivers bytes) (htakes : s.session.stream.TakesBytes) :
    ∃ r s' reply, (answer handler wire).exec s = (r, s') ∧
      s'.session.env.clock.length ≤ s.session.env.clock.length ∧
      s'.session.stream.Delivers bytes ∧
      ((reply = none ∧ s'.trace = s.trace ++ [.respond wire none] ∧ r = .ok () ∧
          s'.session.stream.TakesBytes) ∨
        ∃ response deadline events, reply = some response ∧
          s'.trace = s.trace ++ [.respond wire (some response), .write deadline events] ∧
          (InTime deadline events →
            r = .ok () ∧ s'.session.stream.TakesBytes ∧
              Event.written events = frame response)) := by
  unfold answer
  obtain ⟨requestDeadline, s₁, hrequest, hquiet⟩ :=
    deadline_exec (fun time => ⟨time + requestTimeout⟩) s
  have hrequest : (onEnv (Deadline.after requestTimeout)).exec s = (.ok requestDeadline, s₁) :=
    hrequest
  rw [Run.exec_bind, hrequest]
  dsimp only
  rw [Run.exec_bind]
  have hstream : s₁.session.stream = s.session.stream := hquiet.stream
  -- The request is handled under its own deadline.
  cases hreply : handler.respond wire .tcp requestDeadline s₁.handler with
  | mk reply state =>
    have hrespond : (respond handler wire requestDeadline).exec s₁
        = (.ok reply, { s₁ with
            handler := state
            trace := s₁.trace ++ [.respond wire reply] }) := by
      unfold respond
      rw [Run.exec_step, hreply]
    rw [hrespond]
    cases reply with
    | none =>
      refine ⟨_, _, none, rfl, hquiet.clock, ?_, .inl ⟨rfl, ?_, rfl, ?_⟩⟩
      · rw [hstream]
        exact hdelivers
      · rw [hquiet.trace]
      · rw [hstream]
        exact htakes
    -- The frame is written under the smaller one of the two deadlines.
    | some response =>
      have hcomplete : Framed response :=
        handler.complete wire .tcp requestDeadline s₁.handler response (by rw [hreply])
      dsimp only
      obtain ⟨deadline, s₂, hcapped, hquiet'⟩ := deadline_exec
        (fun time => ⟨min requestDeadline.instant (time + clientWriteTimeout)⟩)
        { s₁ with handler := state, trace := s₁.trace ++ [.respond wire (some response)] }
      have hcapped : (onEnv (requestDeadline.capped clientWriteTimeout)).exec
          { s₁ with handler := state, trace := s₁.trace ++ [.respond wire (some response)] }
            = (.ok deadline, s₂) := hcapped
      have hstream' : s₂.session.stream = s.session.stream := hquiet'.stream.trans hstream
      rw [Run.exec_bind, hcapped]
      dsimp only
      obtain ⟨events, clock, hrun, henv⟩ := writeFrame_run deadline hcomplete s₂.session
      rw [hstream'] at hrun
      obtain ⟨hclock, hincoming⟩ := hrun.clock_incoming
      rw [framing_exec_of_moved _ henv]
      refine ⟨_, _, some response, rfl, ?_, hdelivers.congr hincoming,
        .inr ⟨response, deadline, events, rfl, ?_, fun hintime => ?_⟩⟩
      · exact Nat.le_trans hclock (Nat.le_trans hquiet'.clock hquiet.clock)
      · dsimp only
        rw [hquiet'.trace, hquiet.trace, List.append_assoc]
        rfl
      · obtain ⟨hok, hfinal⟩ := hrun.completes htakes hintime
        exact ⟨hok, hfinal, hrun.written.2 hok⟩

/-! ### The shape of a session -/

/-- The trace of a session that read the messages and gave these replies. -/
inductive Served : List (List UInt8) → List (Option (List UInt8)) → List ServeEvent → Prop
  | done {deadline : Deadline} {events : List Event} (silent : Event.written events = []) :
      Served [] [] [.look false, .read deadline events]
  | skipped {wire : List UInt8} {deadline : Deadline} {events : List Event}
      {messages : List (List UInt8)} {replies : List (Option (List UInt8))}
      {trace : List ServeEvent} (whole : Event.received events = frame wire)
      (silent : Event.written events = []) (rest : Served messages replies trace) :
      Served (wire :: messages) (none :: replies)
        (.look false :: .read deadline events :: .respond wire none :: trace)
  | answered {wire response : List UInt8} {deadline deadline' : Deadline}
      {events events' : List Event} {messages : List (List UInt8)}
      {replies : List (Option (List UInt8))} {trace : List ServeEvent}
      (whole : Event.received events = frame wire) (silent : Event.written events = [])
      (written : Event.written events' = frame response) (rest : Served messages replies trace) :
      Served (wire :: messages) (some response :: replies)
        (.look false :: .read deadline events :: .respond wire (some response) ::
          .write deadline' events' :: trace)

/-- A program only appends to the trace. -/
def Grows {α : Type} (m : Run (Serving σ) IoError α) : Prop :=
  ∀ s, s.trace <+: (m.exec s).2.trace

/-- The trace grows along two programs. -/
theorem Grows.bind {α β : Type} {m : Run (Serving σ) IoError α}
    {f : α → Run (Serving σ) IoError β} (hm : Grows m) (hf : ∀ a, Grows (f a)) :
    Grows (m >>= f) := by
  intro s
  have hfirst := hm s
  rw [Run.exec_bind]
  rcases hexec : m.exec s with ⟨e | a, s'⟩
  · rw [hexec] at hfirst
    exact hfirst
  · rw [hexec] at hfirst
    exact hfirst.trans (hf a s')

/-- Framing adds an event. -/
theorem Grows.framing {α : Type} {event : List Event → ServeEvent} {m : Run Session IoError α} :
    Grows (Serving.framing event m : Run (Serving σ) IoError α) :=
  fun s => List.prefix_append s.trace _

/-- An operation of the world adds none. -/
theorem Grows.onEnv {α : Type} {m : Run Env IoError α} :
    Grows (Serving.onEnv m : Run (Serving σ) IoError α) :=
  fun s => List.prefix_refl s.trace

/-- The answer to a request only adds to the trace. -/
theorem answer_grows (handler : Handler σ) (wire : List UInt8) : Grows (answer handler wire) := by
  refine .bind .onEnv fun deadline => .bind (fun s => List.prefix_append s.trace _) fun reply => ?_
  cases reply with
  | none => exact fun s => List.prefix_refl s.trace
  | some response => exact .bind .onEnv fun _ => .framing

/-- What follows a message: the answer and the rest of the loop. -/
def proceed (handler : Handler σ) (again : Deadline → Run (Serving σ) IoError Unit)
    (wire : List UInt8) : Run (Serving σ) IoError Unit := do
  answer handler wire
  again (← onEnv (Deadline.after clientFrameTimeout))

/-- So does what follows a request. -/
theorem proceed_grows (handler : Handler σ) {again : Deadline → Run (Serving σ) IoError Unit}
    (hagain : ∀ deadline, Grows (again deadline)) (wire : List UInt8) :
    Grows (proceed handler again wire) :=
  (answer_grows handler wire).bind fun _ => .bind .onEnv fun deadline => hagain deadline

/-- So does one turn of the loop. -/
theorem turn_grows (handler : Handler σ) {again : Deadline → Run (Serving σ) IoError Unit}
    (hagain : ∀ deadline, Grows (again deadline)) (deadline : Deadline) :
    Grows (turn handler again deadline) := by
  refine .bind (fun s => List.prefix_append s.trace _) fun stop => ?_
  split
  · exact fun s => List.prefix_refl s.trace
  · refine .bind .framing fun message => ?_
    cases message with
    | none => exact fun s => List.prefix_refl s.trace
    | some wire => exact proceed_grows handler hagain wire

/-- So does the loop. -/
theorem loop_grows (handler : Handler σ) (turns : Nat) (deadline : Deadline) :
    Grows (loop handler turns deadline) := by
  induction turns generalizing deadline with
  | zero =>
    rw [loop]
    refine turn_grows handler (fun _ => ?_) deadline
    intro s
    rw [Run.exec_throw]
  | succ turns ih =>
    rw [loop]
    exact turn_grows handler ih deadline

/-- A turn of the loop sees the stop flag, or it calls `read_frame` once. -/
theorem turn_exec (handler : Handler σ) (again : Deadline → Run (Serving σ) IoError Unit)
    (deadline : Deadline) (s : Serving σ) :
    (∃ s', (turn handler again deadline).exec s = (.ok (), s') ∧
        s'.trace = s.trace ++ [.look true]) ∨
      ∃ r new clock s', ReadsFrame deadline clock s.session.stream r new s'.session.env.clock
          s'.session.stream ∧
        clock.length ≤ s.session.env.clock.length ∧
        s'.trace = s.trace ++ [.look false, .read deadline new] ∧
        (∀ e, r = .error e → (turn handler again deadline).exec s = (.error e, s')) ∧
        (r = .ok none → (turn handler again deadline).exec s = (.ok (), s')) ∧
        ∀ wire, r = .ok (some wire) →
          (turn handler again deadline).exec s = (proceed handler again wire).exec s' := by
  obtain ⟨stop, s₁, hstopped, hstream, htrace, hclock⟩ := stopped_exec s
  unfold turn
  rw [Run.exec_bind, hstopped]
  cases stop with
  | true => exact .inl ⟨s₁, rfl, htrace⟩
  | false =>
    -- `read_frame` runs on the stream that the look at the flag has left.
    obtain ⟨new, clock, hrun, henv⟩ := readFrame_run deadline s₁.session
    have hread := framing_exec_of_moved (.read deadline) henv
    rw [hstream] at hrun
    rcases hexec : (readFrame deadline).exec s₁.session with ⟨r, session⟩
    rw [hexec] at hrun hread
    refine .inr ⟨r, new, s₁.session.env.clock, { s₁ with
      session := { env := s₁.session.env.moved new clock, stream := session.stream }
      trace := s₁.trace ++ [.read deadline new] }, hrun, hclock, ?_, ?_, ?_, ?_⟩
    -- The trace, and what the turn does with each of the three results.
    · dsimp only
      rw [htrace, List.append_assoc]
      rfl
    · rintro e rfl
      show (framing (.read deadline) (readFrame deadline) >>= _ :
        Run (Serving σ) IoError Unit).exec s₁ = _
      rw [Run.exec_bind, hread]
    · rintro rfl
      show (framing (.read deadline) (readFrame deadline) >>= _ :
        Run (Serving σ) IoError Unit).exec s₁ = _
      rw [Run.exec_bind, hread]
      rfl
    · rintro wire rfl
      show (framing (.read deadline) (readFrame deadline) >>= _ :
        Run (Serving σ) IoError Unit).exec s₁ = _
      rw [Run.exec_bind, hread]
      rfl

/-- The first events of a session that saw no stop flag: whatever follows, the call of
`read_frame` stands in the trace. -/
theorem turn_onTime {handler : Handler σ} {again : Deadline → Run (Serving σ) IoError Unit}
    (hagain : ∀ deadline, Grows (again deadline)) {deadline : Deadline} {r : Except IoError Unit}
    {s' : Serving σ} {new : List ServeEvent}
    (hexec : (turn handler again deadline).exec s = (r, s')) (htrace : s'.trace = s.trace ++ new)
    (hontime : ∀ e ∈ new, e.OnTime) :
    ∃ r' events clock s₁ rest, ReadsFrame deadline clock s.session.stream r' events
        s₁.session.env.clock s₁.session.stream ∧ InTime deadline events ∧
      clock.length ≤ s.session.env.clock.length ∧
      s₁.trace = s.trace ++ [.look false, .read deadline events] ∧
      new = [.look false, .read deadline events] ++ rest ∧
      (∀ e, r' = .error e → r = .error e ∧ rest = []) ∧
      (r' = .ok none → r = .ok () ∧ rest = []) ∧
      ∀ wire, r' = .ok (some wire) → (proceed handler again wire).exec s₁ = (r, s') := by
  rcases turn_exec handler again deadline s with ⟨s₁, hstop, hlook⟩ |
    ⟨r', events, clock, s₁, hrun, hclock, hread, herror, hend, hmore⟩
  · -- A look that saw the stop flag is not on time.
    rw [hexec] at hstop
    cases hstop
    rw [htrace] at hlook
    rw [List.append_cancel_left hlook] at hontime
    cases hontime _ List.mem_cons_self
  -- The trace only grows, so what is behind the read is the rest of it.
  · have hgrows : s₁.trace <+: s'.trace := by
      cases r' with
      | error e =>
        rw [hexec] at herror
        cases herror e rfl
        exact List.prefix_refl _
      | ok message =>
        cases message with
        | none =>
          rw [hexec] at hend
          cases hend rfl
          exact List.prefix_refl _
        | some wire =>
          rw [hexec] at hmore
          have := proceed_grows handler hagain wire s₁
          rwa [← hmore wire rfl] at this
    obtain ⟨rest, hrest⟩ := hgrows
    have hnew : new = [.look false, .read deadline events] ++ rest := by
      rw [hread, htrace, List.append_assoc] at hrest
      exact (List.append_cancel_left hrest).symm
    have hnothing : s₁ = s' → rest = [] := by
      rintro rfl
      exact List.append_right_eq_self.mp hrest
    rw [hexec] at herror hend hmore
    refine ⟨r', events, clock, s₁, rest, hrun, ?_, hclock, hread, hnew, ?_, ?_, ?_⟩
    · exact hontime (.read deadline events) (by rw [hnew]; simp)
    · intro e he
      cases herror e he
      exact ⟨rfl, hnothing rfl⟩
    · intro he
      cases hend he
      exact ⟨rfl, hnothing rfl⟩
    · intro wire he
      exact (hmore wire he).symm

/-- The answer of a session that is on time, and the turn behind it. -/
theorem proceed_onTime {handler : Handler σ} {again : Deadline → Run (Serving σ) IoError Unit}
    (hagain : ∀ deadline, Grows (again deadline)) {bytes wire : List UInt8}
    {r : Except IoError Unit} {s' : Serving σ} {new : List ServeEvent}
    (hdelivers : s.session.stream.Delivers bytes) (htakes : s.session.stream.TakesBytes)
    (hexec : (proceed handler again wire).exec s = (r, s')) (htrace : s'.trace = s.trace ++ new)
    (hontime : ∀ e ∈ new, e.OnTime) :
    ∃ s₁ deadline rest, (again deadline).exec s₁ = (r, s') ∧ s'.trace = s₁.trace ++ rest ∧
      s₁.session.stream.Delivers bytes ∧ s₁.session.stream.TakesBytes ∧
      s₁.session.env.clock.length ≤ s.session.env.clock.length ∧
      (new = .respond wire none :: rest ∨
        ∃ response deadline' events, Event.written events = frame response ∧
          new = .respond wire (some response) :: .write deadline' events :: rest) := by
  obtain ⟨r₁, s₁, reply, hanswer, hclock, hdelivers₁, hreply⟩ :=
    answer_exec handler wire hdelivers htakes
  unfold proceed at hexec
  rw [Run.exec_bind, hanswer] at hexec
  -- The session continues behind the answer when the answer succeeded.
  have hcontinue : r₁ = .ok () → ∃ s₂ deadline rest, (again deadline).exec s₂ = (r, s') ∧
      s'.trace = s₂.trace ++ rest ∧ s₁.Untouched s₂ := by
    rintro rfl
    obtain ⟨deadline, s₂, hafter, hquiet⟩ :=
      deadline_exec (fun time => ⟨time + clientFrameTimeout⟩) s₁
    have hafter : (onEnv (Deadline.after clientFrameTimeout)).exec s₁ = (.ok deadline, s₂) :=
      hafter
    dsimp only at hexec
    rw [Run.exec_bind, hafter] at hexec
    dsimp only at hexec
    obtain ⟨rest, hrest⟩ := hagain deadline s₂
    rw [hexec] at hrest
    exact ⟨s₂, deadline, rest, hexec, hrest.symm, hquiet⟩
  rcases hreply with ⟨-, hsilent, hok, htakes₁⟩ | ⟨response, deadline', events, -, hwrite, hintime⟩
  · obtain ⟨s₂, deadline, rest, hagain, hrest, hquiet⟩ := hcontinue hok
    refine ⟨s₂, deadline, rest, hagain, hrest, ?_, ?_, Nat.le_trans hquiet.clock hclock, .inl ?_⟩
    · rw [hquiet.stream]
      exact hdelivers₁
    · rw [hquiet.stream]
      exact htakes₁
    · rw [hrest, hquiet.trace, hsilent, List.append_assoc] at htrace
      exact (List.append_cancel_left htrace).symm
  · -- The write stands in the trace whether it succeeded or not, so it was in time.
    have hin : InTime deadline' events := by
      have hmem : ServeEvent.write deadline' events ∈ new := by
        cases r₁ with
        | error e =>
          cases hexec
          rw [hwrite] at htrace
          rw [← List.append_cancel_left htrace]
          simp
        | ok _ =>
          obtain ⟨s₂, deadline, rest, -, hrest, hquiet⟩ := hcontinue rfl
          rw [hrest, hquiet.trace, hwrite, List.append_assoc] at htrace
          rw [← List.append_cancel_left htrace]
          simp
      exact hontime _ hmem
    obtain ⟨hok, htakes₁, hwritten⟩ := hintime hin
    obtain ⟨s₂, deadline, rest, hagain, hrest, hquiet⟩ := hcontinue hok
    refine ⟨s₂, deadline, rest, hagain, hrest, ?_, ?_, Nat.le_trans hquiet.clock hclock,
      .inr ⟨response, deadline', events, hwritten, ?_⟩⟩
    · rw [hquiet.stream]
      exact hdelivers₁
    · rw [hquiet.stream]
      exact htakes₁
    · rw [hrest, hquiet.trace, hwrite, List.append_assoc] at htrace
      exact (List.append_cancel_left htrace).symm

/-- The loop is a turn and the rest of the loop. -/
theorem loop_eq_turn (handler : Handler σ) (turns : Nat) :
    ∃ again, (∀ deadline, Grows (again deadline)) ∧ loop handler turns = turn handler again ∧
      ∀ turns', turns = turns' + 1 → again = loop handler turns' := by
  cases turns with
  | zero =>
    refine ⟨fun _ => throw .expired, fun _ s => ?_, by rw [loop], fun turns' h => nomatch h⟩
    rw [Run.exec_throw]
  | succ turns =>
    refine ⟨loop handler turns, loop_grows handler turns, by rw [loop], fun turns' h => ?_⟩
    cases h
    rfl

/-- The loop of `serve_tcp` on a stream of frames. -/
theorem loop_served (handler : Handler σ) {messages : List (List UInt8)} {tail : List UInt8}
    {turns : Nat} {deadline : Deadline} {r : Except IoError Unit} {s' : Serving σ}
    {new : List ServeEvent} (hmessages : ∀ wire ∈ messages, Framed wire)
    (hdelivers : s.session.stream.Delivers (messages.flatMap frame ++ tail))
    (htakes : s.session.stream.TakesBytes) (hturns : s.session.env.clock.length ≤ turns)
    (htail : tail = [] ∨ Broken tail)
    (hexec : (loop handler turns deadline).exec s = (r, s')) (htrace : s'.trace = s.trace ++ new)
    (hontime : ∀ e ∈ new, e.OnTime) :
    ∃ replies, Served messages replies new ∧
      (tail = [] → r = .ok ()) ∧ (Broken tail → ∃ e, r = .error e) := by
  -- The induction is on the messages. The turns are as many as the readings of the clock, and each
  -- turn takes one.
  induction messages generalizing s turns deadline new with
  | nil =>
    obtain ⟨again, hagain, hloop, -⟩ := loop_eq_turn handler turns
    rw [hloop] at hexec
    obtain ⟨r', events, clock, s₁, rest, hrun, hintime, -, -, rfl, herror, hend, -⟩ :=
      turn_onTime hagain hexec htrace hontime
    have hfound := hrun.next hdelivers hintime
    -- Behind the last message comes the end of the stream, or a frame that is broken.
    rcases htail with rfl | hbroken
    · obtain ⟨rfl, rfl⟩ := hend hfound
      exact ⟨[], .done hrun.written, fun _ => rfl, fun h => absurd h not_broken_nil⟩
    · obtain ⟨e, he⟩ := hbroken.next
      rw [List.flatMap_nil, List.nil_append, he] at hfound
      obtain ⟨rfl, rfl⟩ := herror e hfound
      refine ⟨[], .done hrun.written, ?_, fun _ => ⟨e, rfl⟩⟩
      rintro rfl
      exact absurd hbroken not_broken_nil
  | cons wire messages ih =>
    obtain ⟨again, hagain, hloop, hsucc⟩ := loop_eq_turn handler turns
    rw [hloop] at hexec
    obtain ⟨r', events, clock, s₁, rest, hrun, hintime, hclock, hread, rfl, -, -, hmore⟩ :=
      turn_onTime hagain hexec htrace hontime
    -- The read finds the frame of `wire`, whatever its fragmentation.
    have hfound := hrun.next hdelivers hintime
    rw [List.flatMap_cons, List.append_assoc,
      nextFrame_frame (hmessages wire List.mem_cons_self)] at hfound
    obtain ⟨rfl, hdelivers₁⟩ := hfound
    obtain ⟨hused, houtgoing⟩ := hrun.clock_outgoing
    have hlt := hused rfl
    have htakes₁ : s₁.session.stream.TakesBytes := by
      unfold TcpStream.TakesBytes
      rw [houtgoing]
      exact htakes
    obtain ⟨turns, rfl⟩ : ∃ turns', turns = turns' + 1 :=
      Nat.exists_eq_add_one_of_ne_zero (by omega)
    obtain rfl := hsucc turns rfl
    have htrace₁ : s'.trace = s₁.trace ++ rest := by
      rw [htrace, hread, List.append_assoc]
    have hrest : ∀ e ∈ rest, e.OnTime := fun e he => hontime e (List.mem_append_right _ he)
    -- The handler is called, and its reply is written.
    obtain ⟨s₂, deadline₂, rest₂, hagain₂, htrace₂, hdelivers₂, htakes₂, hclock₂, hshape⟩ :=
      proceed_onTime hagain hdelivers₁ htakes₁ (hmore wire rfl) htrace₁ hrest
    have hrest₂ : ∀ e ∈ rest₂, e.OnTime := by
      intro e he
      apply hrest
      rcases hshape with rfl | ⟨_, _, _, -, rfl⟩
      · exact List.mem_cons_of_mem _ he
      · exact List.mem_cons_of_mem _ (List.mem_cons_of_mem _ he)
    obtain ⟨replies, hserved, hresult⟩ := ih
      (fun wire hwire => hmessages wire (List.mem_cons_of_mem _ hwire)) hdelivers₂ htakes₂
      (by omega) hagain₂ htrace₂ hrest₂
    have hwhole := hrun.received.2
    have hsilent := hrun.written
    -- The handler has a reply or none.
    rcases hshape with rfl | ⟨response, deadline', events', hwritten, rfl⟩
    · exact ⟨none :: replies, .skipped hwhole hsilent hserved, hresult⟩
    · exact ⟨some response :: replies, .answered hwhole hsilent hwritten hserved, hresult⟩

end Serving

/-! ### Sessions -/

/-- The calls of the handler in a trace, in order. -/
def ServeEvent.calls (trace : List ServeEvent) : List (List UInt8 × Option (List UInt8)) :=
  trace.filterMap fun
    | .respond wire reply => some (wire, reply)
    | .look _ | .read _ _ | .write _ _ => none

/-- The bytes put on the client stream in a trace, in order. -/
def ServeEvent.written (trace : List ServeEvent) : List UInt8 :=
  trace.flatMap fun
    | .read _ events | .write _ events => Event.written events
    | .look _ | .respond _ _ => []

/-- The calls of two traces in a row. -/
theorem ServeEvent.calls_append {trace trace' : List ServeEvent} :
    calls (trace ++ trace') = calls trace ++ calls trace' :=
  List.filterMap_append

namespace Serving.Served

variable {messages : List (List UInt8)} {replies : List (Option (List UInt8))}
  {trace : List ServeEvent}

/-- The handler was called once for each message, in order. -/
theorem calls (h : Served messages replies trace) :
    replies.length = messages.length ∧ ServeEvent.calls trace = messages.zip replies := by
  induction h with
  | done silent => exact ⟨rfl, rfl⟩
  | skipped whole silent rest ih =>
    exact ⟨congrArg (· + 1) ih.1, congrArg (_ :: ·) ih.2⟩
  | answered whole silent written rest ih =>
    exact ⟨congrArg (· + 1) ih.1, congrArg (_ :: ·) ih.2⟩

/-- The replies were written as frames, in order. -/
theorem written (h : Served messages replies trace) :
    ServeEvent.written trace = (replies.filterMap id).flatMap frame := by
  induction h with
  | @done deadline events silent =>
    show Event.written events ++ [] = []
    rw [silent]
    rfl
  | @skipped wire deadline events messages replies trace whole silent rest ih =>
    show Event.written events ++ ServeEvent.written trace = (replies.filterMap id).flatMap frame
    rw [silent, ih]
    rfl
  | @answered wire response deadline deadline' events events' messages replies trace whole silent
      written rest ih =>
    show Event.written events ++ (Event.written events' ++ ServeEvent.written trace)
      = frame response ++ (replies.filterMap id).flatMap frame
    rw [silent, written, ih]
    rfl

end Serving.Served

/-! ### The state of the handler -/

namespace Serving

variable {σ : Type}

/-- A handler that was called with these messages over TCP, and that gave these replies. -/
inductive Handled (handler : Handler σ) (state : σ) :
    List (List UInt8 × Option (List UInt8)) → σ → Prop
  | none : Handled handler state [] state
  | call {calls : List (List UInt8 × Option (List UInt8))} {state' : σ}
      (before : Handled handler state calls state') (wire : List UInt8) (deadline : Deadline) :
      Handled handler state (calls ++ [(wire, (handler.respond wire .tcp deadline state').1)])
        (handler.respond wire .tcp deadline state').2

/-- The handler of a session was called as its trace says. -/
def Faithful (handler : Handler σ) (state : σ) (s : Serving σ) : Prop :=
  Handled handler state (ServeEvent.calls s.trace) s.handler

section

variable {α : Type} {handler : Handler σ} {state : σ}

/-- An event that is no call of the handler. -/
theorem Faithful.event {s : Serving σ} {event : ServeEvent} (h : Faithful handler state s)
    (hevent : ServeEvent.calls [event] = []) (session : Session) :
    Faithful handler state { s with session := session, trace := s.trace ++ [event] } := by
  show Handled handler state (ServeEvent.calls (s.trace ++ [event])) s.handler
  rw [ServeEvent.calls_append, hevent, List.append_nil]
  exact h

/-- An operation of the world does not call the handler. -/
theorem onEnv_keeps (m : Run Env IoError α) :
    Run.Keeps (Faithful handler state) (onEnv m : Run (Serving σ) IoError α) := fun _ hs => hs

/-- Nor does the framing. -/
theorem framing_keeps {event : List Event → ServeEvent}
    (hevent : ∀ new, ServeEvent.calls [event new] = []) (m : Run Session IoError α) :
    Run.Keeps (Faithful handler state) (framing event m : Run (Serving σ) IoError α) :=
  fun _ hs => hs.event (hevent _) _

/-- Nor does a look at the stop flag. -/
theorem stopped_keeps :
    Run.Keeps (Faithful handler state) (stopped : Run (Serving σ) IoError Bool) :=
  fun _ hs => hs.event rfl _

/-- A call of the handler is in the trace, with its reply. -/
theorem respond_keeps (wire : List UInt8) (deadline : Deadline) :
    Run.Keeps (Faithful handler state) (respond handler wire deadline) := by
  intro s hs
  show Handled handler state (ServeEvent.calls (s.trace ++ [.respond wire _])) _
  rw [ServeEvent.calls_append]
  exact Handled.call hs wire deadline

/-- The answer to a request calls the handler once. -/
theorem answer_keeps (wire : List UInt8) :
    Run.Keeps (Faithful handler state) (answer handler wire) := by
  refine (onEnv_keeps _).bind fun deadline _ => ?_
  refine (respond_keeps wire deadline).bind fun reply _ => ?_
  cases reply with
  | none => exact .pure
  | some response =>
    refine (onEnv_keeps _).bind fun deadline' _ => ?_
    exact framing_keeps (fun _ => rfl) _

/-- One turn of the loop calls the handler once at most. -/
theorem turn_keeps {again : Deadline → Run (Serving σ) IoError Unit}
    (hagain : ∀ deadline, Run.Keeps (Faithful handler state) (again deadline))
    (deadline : Deadline) :
    Run.Keeps (Faithful handler state) (turn handler again deadline) := by
  refine stopped_keeps.bind fun stop _ => ?_
  split
  · exact .pure
  · refine (framing_keeps (fun _ => rfl) _).bind fun message _ => ?_
    cases message with
    | none => exact .pure
    | some wire =>
      refine (answer_keeps wire).bind fun _ _ => ?_
      exact (onEnv_keeps _).bind fun deadline' _ => hagain deadline'

/-- The loop calls the handler as its trace says. -/
theorem loop_keeps (turns : Nat) (deadline : Deadline) :
    Run.Keeps (Faithful handler state) (loop handler turns deadline) := by
  induction turns generalizing deadline with
  | zero => exact turn_keeps (fun _ => .throw) deadline
  | succ turns ih => exact turn_keeps ih deadline

end

end Serving

/-- The handler of a session went from its state to the state it is in by the calls in the trace. -/
theorem serveTcp_handled {σ : Type} (handler : Handler σ) (client : Connection) (env : Env)
    (state : σ) :
    Serving.Handled handler state (ServeEvent.calls (serveTcp handler client env state).2.trace)
      (serveTcp handler client env state).2.handler := by
  have hcheck : ∀ answer, Run.Keeps (Serving.Faithful handler state)
      (Serving.check answer : Run (Serving σ) IoError Unit) := by
    intro answer
    cases answer with
    | none => exact .pure
    | some kind => exact .throw
  have hnodelay : Run.Keeps (Serving.Faithful handler state)
      (Serving.setNodelay : Run (Serving σ) IoError (Option ErrorKind)) := fun _ hs => hs
  have hloop : Run.Keeps (Serving.Faithful handler state)
      (Serving.loop handler env.clock.length client.firstDeadline) := Serving.loop_keeps _ _
  have hall := (hcheck client.setNonblocking).bind fun _ _ =>
    hnodelay.bind fun answer _ => (hcheck answer).bind fun _ _ => hloop
  exact hall ⟨⟨env, client.stream⟩, state, []⟩ .none

/-! ### The session -/

/-- TCP sessions answer in order, once per frame. The client sends any bytes in any
fragmentation, its socket takes bytes in pieces of any size, and no deadline passes. Then the
bytes are a sequence of messages and perhaps a broken tail, the handler is called once for each
message before the next one is read, and the replies are written whole and in order. The calls are
calls of this handler: the first one starts in the state of the session, each one in the state that
the last one left, and the replies are what they return (`Serving.Handled`). -/
theorem serveTcp_answers {σ : Type} (handler : Handler σ) {client : Connection} {env : Env}
    {state : σ} {bytes : List UInt8} (hnonblocking : client.setNonblocking = none)
    (hnodelay : client.stream.setNodelay.1 = none) (hdelivers : client.stream.Delivers bytes)
    (htakes : client.stream.TakesBytes)
    (hontime : ∀ e ∈ (serveTcp handler client env state).2.trace, e.OnTime) :
    ∃ messages tail replies, bytes = messages.flatMap frame ++ tail ∧
      (∀ wire ∈ messages, 12 ≤ wire.length ∧ wire.length ≤ 65535) ∧
      (tail = [] ∨ Broken tail) ∧ replies.length = messages.length ∧
      Serving.Served messages replies (serveTcp handler client env state).2.trace ∧
      ServeEvent.calls (serveTcp handler client env state).2.trace = messages.zip replies ∧
      Serving.Handled handler state (messages.zip replies)
        (serveTcp handler client env state).2.handler ∧
      ServeEvent.written (serveTcp handler client env state).2.trace
        = (replies.filterMap id).flatMap frame ∧
      (tail = [] → (serveTcp handler client env state).1 = .ok ()) ∧
      (Broken tail → ∃ e, (serveTcp handler client env state).1 = .error e) := by
  obtain ⟨messages, tail, hmessages, htail, rfl⟩ := exists_frames bytes
  have hhandled := serveTcp_handled handler client env state
  have hstream : client.stream.setNodelay.2.incoming = client.stream.incoming ∧
      client.stream.setNodelay.2.outgoing = client.stream.outgoing := by
    unfold TcpStream.setNodelay
    split <;> exact ⟨rfl, rfl⟩
  have hserve : serveTcp handler client env state
      = (Serving.loop handler env.clock.length client.firstDeadline).exec
          ⟨⟨env, client.stream.setNodelay.2⟩, state, []⟩ := by
    have hset : (Serving.setNodelay : Run (Serving σ) IoError (Option ErrorKind)).exec
        ⟨⟨env, client.stream⟩, state, []⟩
          = (.ok none, ⟨⟨env, client.stream.setNodelay.2⟩, state, []⟩) := by
      rw [← hnodelay]
      rfl
    unfold serveTcp
    rw [hnonblocking]
    show (Serving.setNodelay >>= fun answer => Serving.check answer >>= fun _ =>
      Serving.loop handler env.clock.length client.firstDeadline).exec _ = _
    rw [Run.exec_bind, hset]
    rfl
  rw [hserve] at hontime hhandled ⊢
  rcases hexec : (Serving.loop handler env.clock.length client.firstDeadline).exec
    ⟨⟨env, client.stream.setNodelay.2⟩, state, []⟩ with ⟨r, s'⟩
  rw [hexec] at hontime hhandled
  have htakes' : client.stream.setNodelay.2.TakesBytes := by
    unfold TcpStream.TakesBytes
    rw [hstream.2]
    exact htakes
  obtain ⟨replies, hserved, hresult⟩ := @Serving.loop_served _
    ⟨⟨env, client.stream.setNodelay.2⟩, state, []⟩ handler _ _ _ _ _ _ s'.trace hmessages
    (hdelivers.congr hstream.1) htakes' (Nat.le_refl _) htail hexec rfl hontime
  rw [hserved.calls.2] at hhandled
  exact ⟨messages, tail, replies, rfl, hmessages, htail, hserved.calls.1, hserved,
    hserved.calls.2, hhandled, hserved.written, hresult⟩

namespace RequestHandler

/-- The request handler of the service. Its replies parse, so they are complete messages. -/
def handler (routing : RoutingTable) : Handler Forwarder where
  respond wire transport deadline s :=
    (((respond routing wire transport deadline).exec s).1.toOption,
      ((respond routing wire transport deadline).exec s).2)
  complete := by
    intro wire transport deadline s reply h
    have hok : ((respond routing wire transport deadline).exec s).1 = .ok reply := by
      dsimp only at h
      cases hr : ((respond routing wire transport deadline).exec s).1 with
      | error e =>
        rw [hr] at h
        cases h
      | ok reply' =>
        rw [hr] at h
        cases h
        rfl
    obtain ⟨header, p, hp⟩ := respond_repliesTo hok
    have hlength := (Packet.parsed_of_parse hp.parse).length_le
    rw [Packet.wire_of_parse hp.parse] at hlength
    exact hlength

end RequestHandler

/-- No suffixes are distinct. -/
theorem noRules_distinct : DistinctSuffixes [] [] := .nil

/-- No routes are sorted. -/
theorem noRoutes_sorted :
    ([] : List Route).Pairwise fun a b => b.suffix.labelCount ≤ a.suffix.labelCount := .nil

/-- No records are sorted. -/
theorem noRecords_sorted :
    ([] : List LocalRecord).Pairwise fun a b => b.suffix.labelCount ≤ a.suffix.labelCount := .nil

/-- A table without upstream servers, routes and local records. -/
def emptyTable : RoutingTable where
  default := none
  routes := []
  localRecords := []
  distinct := noRules_distinct
  routesSorted := noRoutes_sorted
  localSorted := noRecords_sorted

/-- A client that sends the query for the root twice, in three pieces, and then one byte. -/
def pipelined : Connection where
  stream := {
    peer := SocketAddr.new (.v4 ⟨192, 0, 2, 9⟩) 5353
    nodelay := []
    incoming := [.data [0], .failed .wouldBlock,
      .data ([17] ++ Dns.rootQuery.wire ++ [0, 17, 0, 1, 1]),
      .data ([0, 0, 1, 0, 0, 0, 0, 0, 0, 0, 0, 1, 0, 1] ++ [0])]
    outgoing := [.accepted 3, .failed .interrupted] }
  firstDeadline := ⟨1⟩
  setNonblocking := none

/-- A world with forty looks at the clock, none of which finds that time passed. -/
def idle : Env := ⟨List.replicate 40 ⟨false, 0⟩, [], [], [], []⟩

/-- Both queries of the pipelining client are answered by the handler of the service, and the
session ends at the byte behind them. -/
theorem serveTcp_answers_pipelined :
    ∃ messages replies,
      Serving.Served messages replies (serveTcp (RequestHandler.handler emptyTable) pipelined idle
        ⟨none, idle⟩).2.trace ∧
      Serving.Handled (RequestHandler.handler emptyTable) ⟨none, idle⟩ (messages.zip replies)
        (serveTcp (RequestHandler.handler emptyTable) pipelined idle ⟨none, idle⟩).2.handler ∧
      ServeEvent.written (serveTcp (RequestHandler.handler emptyTable) pipelined idle
        ⟨none, idle⟩).2.trace = (replies.filterMap id).flatMap frame := by
  have hdelivers : pipelined.stream.Delivers
      ([Dns.rootQuery.wire, Dns.rootQuery.wire].flatMap frame ++ [0]) := by
    refine ⟨?_, by decide⟩
    simp [pipelined, ReadEvent.Benign, transient]
  have htakes : pipelined.stream.TakesBytes := by
    simp [TcpStream.TakesBytes, pipelined, WriteEvent.Benign, transient]
  obtain ⟨messages, tail, replies, -, -, -, -, hserved, -, hhandled, hwritten, -⟩ :=
    serveTcp_answers (RequestHandler.handler emptyTable) rfl rfl hdelivers htakes
      (by decide +kernel : ∀ e ∈ (serveTcp (RequestHandler.handler emptyTable) pipelined idle
        ⟨none, idle⟩).2.trace, e.OnTime)
  exact ⟨messages, replies, hserved, hhandled, hwritten⟩

end Sederial
