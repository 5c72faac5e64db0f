import Sederial.Proofs.TcpSession

/-!
# `Sederial.Proofs.SessionTrace`: a TCP session with any client

`Serving.Served` is about clients whose streams work. Here the stream and the clock may do anything:
reads and writes fail, arrive in pieces or end, deadlines pass, and the stop flag goes up between
two requests. `Attempted` are the traces that are left, and `loop_attempted` is the run lemma.

A trace of a session is a sequence of requests that were read whole, each followed by the one call
of the handler and by the reply. Only the last reply can be cut, and then the session is over.
`Ordered` is what a client sees of it: at every moment, what is on its stream is a prefix of the
replies to the requests it has sent so far, in their order.
-/

set_option autoImplicit false

namespace Sederial

open Sederial.Lib

/-- `read_exact` finds the end of the stream before the first byte. -/
theorem ReadsField.eof_received {length : Nat} {deadline : Deadline} {clock clock' : List Reading}
    {stream final : TcpStream} {got : List UInt8} {r : Except IoError (Option (List UInt8))}
    {new : List Event} (h : ReadsField length deadline clock stream got r new clock' final)
    (hr : r = .ok none) : got = [] ∧ Event.received new = [] := by
  induction h with
  | late | full | refused | cut | failed => cases hr
  | eof => exact ⟨rfl, rfl⟩
  | bytes part intime read some rest ih =>
    obtain ⟨hgot, -⟩ := ih hr
    exact (some (List.append_eq_nil_iff.mp hgot).2).elim
  | again part intime read transient rest ih => exact ih hr

/-- A client that closes the connection has sent no part of a frame. -/
theorem ReadsFrame.eof_received {deadline : Deadline} {clock clock' : List Reading}
    {stream final : TcpStream} {new : List Event}
    (h : ReadsFrame deadline clock stream (.ok none) new clock' final) :
    Event.received new = [] := by
  cases h with
  | eof header => exact (header.eof_received rfl).2

namespace Serving

variable {σ : Type}

/-- A call of the handler with this message gave this reply. -/
def Asked (handler : Handler σ) (wire : List UInt8) (reply : Option (List UInt8)) : Prop :=
  ∃ deadline state, (handler.respond wire .tcp deadline state).1 = reply

/-- The trace of a session that called the handler with these messages, which gave these replies,
and that ended with this result. -/
inductive Attempted (handler : Handler σ) :
    List (List UInt8 × Option (List UInt8)) → Except IoError Unit → List ServeEvent → Prop
  | stopped : Attempted handler [] (.ok ()) [.look true]
  | ended {deadline : Deadline} {events : List Event} (silent : Event.written events = [])
      (nothing : Event.received events = []) :
      Attempted handler [] (.ok ()) [.look false, .read deadline events]
  | failed {deadline : Deadline} {events : List Event} {e : IoError}
      (silent : Event.written events = []) :
      Attempted handler [] (.error e) [.look false, .read deadline events]
  | skipped {wire : List UInt8} {deadline : Deadline} {events : List Event}
      {calls : List (List UInt8 × Option (List UInt8))} {r : Except IoError Unit}
      {trace : List ServeEvent} (framed : Framed wire) (whole : Event.received events = frame wire)
      (silent : Event.written events = []) (asked : Asked handler wire none)
      (rest : Attempted handler calls r trace) :
      Attempted handler ((wire, none) :: calls) r
        (.look false :: .read deadline events :: .respond wire none :: trace)
  | answered {wire response : List UInt8} {deadline deadline' : Deadline}
      {events events' : List Event} {calls : List (List UInt8 × Option (List UInt8))}
      {r : Except IoError Unit} {trace : List ServeEvent} (framed : Framed wire)
      (whole : Event.received events = frame wire) (silent : Event.written events = [])
      (asked : Asked handler wire (some response))
      (written : Event.written events' = frame response) (rest : Attempted handler calls r trace) :
      Attempted handler ((wire, some response) :: calls) r
        (.look false :: .read deadline events :: .respond wire (some response) ::
          .write deadline' events' :: trace)
  | cut {wire response : List UInt8} {deadline deadline' : Deadline} {events events' : List Event}
      {e : IoError} (framed : Framed wire) (whole : Event.received events = frame wire)
      (silent : Event.written events = []) (asked : Asked handler wire (some response))
      (part : Event.written events' <+: frame response) :
      Attempted handler [(wire, some response)] (.error e)
        [.look false, .read deadline events, .respond wire (some response),
          .write deadline' events']

/-- The answer to one message, on any stream. -/
theorem answer_attempted (handler : Handler σ) (wire : List UInt8) (s : Serving σ) :
    ∃ r s' reply, (answer handler wire).exec s = (r, s') ∧ Asked handler wire reply ∧
      s'.session.env.clock.length ≤ s.session.env.clock.length ∧
      ((reply = none ∧ s'.trace = s.trace ++ [.respond wire none] ∧ r = .ok ()) ∨
        ∃ response deadline events, reply = some response ∧
          s'.trace = s.trace ++ [.respond wire (some response), .write deadline events] ∧
          Event.written events <+: frame response ∧
          (r = .ok () → Event.written events = frame response)) := by
  unfold answer
  obtain ⟨requestDeadline, s₁, hrequest, hquiet⟩ :=
    deadline_exec (fun time => ⟨time + requestTimeout⟩) s
  have hrequest : (onEnv (Deadline.after requestTimeout)).exec s = (.ok requestDeadline, s₁) :=
    hrequest
  rw [Run.exec_bind, hrequest]
  dsimp only
  rw [Run.exec_bind]
  -- The handler is called once, and what it returns is in the trace.
  cases hreply : handler.respond wire .tcp requestDeadline s₁.handler with
  | mk reply state =>
    have hasked : Asked handler wire reply := ⟨requestDeadline, s₁.handler, by rw [hreply]⟩
    have hrespond : (respond handler wire requestDeadline).exec s₁
        = (.ok reply, { s₁ with
            handler := state
            trace := s₁.trace ++ [.respond wire reply] }) := by
      unfold respond
      rw [Run.exec_step, hreply]
    rw [hrespond]
    cases reply with
    | none =>
      refine ⟨_, _, none, rfl, hasked, hquiet.clock, .inl ⟨rfl, ?_, rfl⟩⟩
      rw [hquiet.trace]
    -- The reply is framed and written, as far as the client and the clock allow.
    | some response =>
      have hcomplete : Framed response :=
        handler.complete wire .tcp requestDeadline s₁.handler response (by rw [hreply])
      dsimp only
      obtain ⟨deadline, s₂, hcapped, hquiet'⟩ := deadline_exec
        (fun time => ⟨min requestDeadline.instant (time + clientWriteTimeout)⟩)
        { s₁ with handler := state, trace := s₁.trace ++ [.respond wire (some response)] }
      have hcapped : (onEnv (requestDeadline.capped clientWriteTimeout)).exec
          { s₁ with handler := state, trace := s₁.trace ++ [.respond wire (some response)] }
            = (.ok deadline, s₂) := hcapped
      rw [Run.exec_bind, hcapped]
      dsimp only
      obtain ⟨events, clock, hrun, henv⟩ := writeFrame_run deadline hcomplete s₂.session
      rw [framing_exec_of_moved _ henv]
      refine ⟨_, _, some response, rfl, hasked, ?_,
        .inr ⟨response, deadline, events, rfl, ?_, hrun.written.1, hrun.written.2⟩⟩
      · exact Nat.le_trans hrun.clock_incoming.1 (Nat.le_trans hquiet'.clock hquiet.clock)
      · dsimp only
        rw [hquiet'.trace, hquiet.trace, List.append_assoc]
        rfl

/-- What follows a message, when it was answered. -/
theorem proceed_exec (handler : Handler σ) (again : Deadline → Run (Serving σ) IoError Unit)
    {wire : List UInt8} {s s₁ : Serving σ}
    (hanswer : (answer handler wire).exec s = (.ok (), s₁)) :
    ∃ deadline s₂, (proceed handler again wire).exec s = (again deadline).exec s₂ ∧
      s₁.Untouched s₂ := by
  obtain ⟨deadline, s₂, hafter, hquiet⟩ :=
    deadline_exec (fun time => ⟨time + clientFrameTimeout⟩) s₁
  have hafter : (onEnv (Deadline.after clientFrameTimeout)).exec s₁ = (.ok deadline, s₂) := hafter
  refine ⟨deadline, s₂, ?_, hquiet⟩
  unfold proceed
  rw [Run.exec_bind, hanswer]
  dsimp only
  rw [Run.exec_bind, hafter]

/-- The loop of `serve_tcp`, on any stream. -/
theorem loop_attempted (handler : Handler σ) {turns : Nat} {deadline : Deadline} {s s' : Serving σ}
    {r : Except IoError Unit} (hturns : s.session.env.clock.length ≤ turns)
    (hexec : (loop handler turns deadline).exec s = (r, s')) :
    ∃ calls new, s'.trace = s.trace ++ new ∧ Attempted handler calls r new := by
  -- A message takes a reading of the clock, and the readings are as many as the turns.
  induction turns using Nat.strongRecOn generalizing s deadline with
  | ind turns ih =>
    obtain ⟨again, -, hloop, hsucc⟩ := loop_eq_turn handler turns
    rw [hloop] at hexec
    rcases turn_exec handler again deadline s with ⟨s₁, hstop, hlook⟩ |
      ⟨r', events, clock, s₁, hrun, hclock, hread, herror, hend, hmore⟩
    · rw [hexec] at hstop
      cases hstop
      exact ⟨[], _, hlook, .stopped⟩
    · rw [hexec] at herror hend
      have hsilent := hrun.written
      cases r' with
      | error e =>
        cases herror e rfl
        exact ⟨[], _, hread, .failed hsilent⟩
      | ok message =>
        cases message with
        | none =>
          cases hend rfl
          exact ⟨[], _, hread, .ended hsilent hrun.eof_received⟩
        | some wire =>
          obtain ⟨hframed, hwhole⟩ := hrun.received
          have hlt := hrun.clock_outgoing.1 rfl
          obtain ⟨turns, rfl⟩ : ∃ turns', turns = turns' + 1 :=
            Nat.exists_eq_add_one_of_ne_zero (by omega)
          obtain rfl := hsucc turns rfl
          have hproceed := hexec.symm.trans (hmore wire rfl)
          obtain ⟨r₁, s₂, reply, hanswer, hasked, hclock₂, hreply⟩ :=
            answer_attempted handler wire s₁
          -- Behind an answer that succeeded the loop goes on.
          have hcontinue : r₁ = .ok () → ∃ calls new, s'.trace = s₂.trace ++ new ∧
              Attempted handler calls r new := by
            intro hok
            subst hok
            obtain ⟨deadline₃, s₃, hrest, hquiet⟩ :=
              proceed_exec handler (loop handler turns) hanswer
            rw [hrest] at hproceed
            have hclock₃ := hquiet.clock
            obtain ⟨calls, new, htrace, hattempted⟩ :=
              ih turns (Nat.lt_succ_self _) (by omega) hproceed.symm
            rw [hquiet.trace] at htrace
            exact ⟨calls, new, htrace, hattempted⟩
          rcases hreply with ⟨rfl, htrace, hok⟩ |
            ⟨response, deadline', events', rfl, htrace, hpart, hwritten⟩
          · obtain ⟨calls, new, hnew, hattempted⟩ := hcontinue hok
            have hall : s'.trace = s.trace ++ (.look false :: .read deadline events ::
                .respond wire none :: new) := by
              rw [hnew, htrace, hread]
              simp only [List.append_assoc, List.cons_append, List.nil_append]
            exact ⟨_, _, hall, .skipped hframed hwhole hsilent hasked hattempted⟩
          · cases r₁ with
            | ok _ =>
              obtain ⟨calls, new, hnew, hattempted⟩ := hcontinue rfl
              have hall : s'.trace = s.trace ++ (.look false :: .read deadline events ::
                  .respond wire (some response) :: .write deadline' events' :: new) := by
                rw [hnew, htrace, hread]
                simp only [List.append_assoc, List.cons_append, List.nil_append]
              exact ⟨_, _, hall,
                .answered hframed hwhole hsilent hasked (hwritten rfl) hattempted⟩
            | error e =>
              have hover :
                  (proceed handler (loop handler turns) wire).exec s₁ = (.error e, s₂) := by
                unfold proceed
                rw [Run.exec_bind, hanswer]
              rw [hover] at hproceed
              cases hproceed
              have hall : s'.trace = s.trace ++ [.look false, .read deadline events,
                  .respond wire (some response), .write deadline' events'] := by
                rw [htrace, hread]
                simp only [List.append_assoc, List.cons_append, List.nil_append]
              exact ⟨_, _, hall, .cut hframed hwhole hsilent hasked hpart⟩

end Serving

/-! ### What the client sees -/

/-- The bytes that `read_frame` took from the client stream in a trace, in order. -/
def ServeEvent.received (trace : List ServeEvent) : List UInt8 :=
  trace.flatMap fun
    | .read _ events => Event.received events
    | .look _ | .respond _ _ | .write _ _ => []

/-- The frames of the messages with which the handler was called. -/
def ServeEvent.requests (trace : List ServeEvent) : List UInt8 :=
  (calls trace).flatMap fun call => frame call.1

/-- The frames of the replies. -/
def ServeEvent.replies (trace : List ServeEvent) : List UInt8 :=
  (calls trace).flatMap fun call => (call.2.map frame).getD []

namespace ServeEvent

variable {trace trace' before block : List ServeEvent}

/-- The bytes received in two stretches. -/
theorem received_append : received (trace ++ trace') = received trace ++ received trace' :=
  List.flatMap_append

/-- The bytes written in two stretches. -/
theorem written_append : written (trace ++ trace') = written trace ++ written trace' :=
  List.flatMap_append

/-- The requests of two stretches. -/
theorem requests_append : requests (trace ++ trace') = requests trace ++ requests trace' := by
  unfold requests
  rw [calls_append, List.flatMap_append]

/-- The replies of two stretches. -/
theorem replies_append : replies (trace ++ trace') = replies trace ++ replies trace' := by
  unfold replies
  rw [calls_append, List.flatMap_append]

/-- Whatever the handler was called with has come from the client before, and whatever was written
is a reply that the handler gave before. -/
structure Caused (trace : List ServeEvent) : Prop where
  requests : requests trace <+: received trace
  replies : written trace <+: replies trace

/-- All that has come was a request, and each reply was written whole. -/
structure Balanced (trace : List ServeEvent) : Prop where
  requests : received trace = requests trace
  replies : written trace = replies trace

/-- Two balanced stretches. -/
theorem Balanced.append (h : Balanced block) (h' : Balanced trace) : Balanced (block ++ trace) where
  requests := by rw [received_append, requests_append, h.requests, h'.requests]
  replies := by rw [written_append, replies_append, h.replies, h'.replies]

/-- A balanced stretch may come before. -/
theorem Caused.append (h : Balanced block) (h' : Caused trace) : Caused (block ++ trace) where
  requests := by
    rw [received_append, requests_append, h.requests]
    exact (List.prefix_append_right_inj _).mpr h'.requests
  replies := by
    rw [written_append, replies_append, h.replies]
    exact (List.prefix_append_right_inj _).mpr h'.replies

/-- A prefix of two traces in a row ends in the first one or in the second one. -/
theorem prefix_cases (h : before <+: block ++ trace) :
    before <+: block ∨ ∃ rest, before = block ++ rest ∧ rest <+: trace := by
  rcases Nat.le_total before.length block.length with hle | hle
  · exact .inl (List.prefix_of_prefix_length_le h (List.prefix_append _ _) hle)
  · obtain ⟨rest, rfl⟩ := List.prefix_of_prefix_length_le (List.prefix_append block trace) h hle
    exact .inr ⟨rest, rfl, (List.prefix_append_right_inj _).mp h⟩

/-- Every moment of a trace that follows a balanced one. -/
theorem caused_append (hblock : ∀ before, before <+: block → Caused before)
    (hbalanced : Balanced block) (htrace : ∀ before, before <+: trace → Caused before) :
    ∀ before, before <+: block ++ trace → Caused before := by
  intro before hbefore
  rcases prefix_cases hbefore with hfirst | ⟨rest, rfl, hrest⟩
  · exact hblock before hfirst
  · exact .append hbalanced (htrace rest hrest)

/-- Nothing is caused by nothing. -/
theorem caused_nil : Caused [] := ⟨List.nil_prefix, List.nil_prefix⟩

/-- A list with one event has two prefixes. -/
theorem prefix_singleton_cases {e : ServeEvent} (h : before <+: [e]) :
    before = [] ∨ before = [e] := by
  rcases List.prefix_cons_iff.mp h with hnil | ⟨rest, hrest, hprefix⟩
  · exact .inl hnil
  · rw [List.prefix_nil.mp hprefix] at hrest
    exact .inr hrest

/-- One more event. -/
theorem caused_concat {e : ServeEvent} (hblock : ∀ before, before <+: block → Caused before)
    (hall : Caused (block ++ [e])) : ∀ before, before <+: block ++ [e] → Caused before := by
  intro before hbefore
  rcases prefix_cases hbefore with hfirst | ⟨rest, rfl, hrest⟩
  · exact hblock before hfirst
  · rcases prefix_singleton_cases hrest with rfl | rfl
    · rw [List.append_nil]
      exact hblock block (List.prefix_refl _)
    · exact hall

/-- The events of a turn that ends in `read_frame`. -/
theorem caused_read {stop : Bool} {deadline : Deadline} {events : List Event}
    (silent : Event.written events = []) :
    ∀ before, before <+: ([] ++ [.look stop]) ++ [.read deadline events] → Caused before := by
  refine caused_concat (caused_concat (fun before h => ?_) ⟨List.nil_prefix, List.nil_prefix⟩)
    ⟨List.nil_prefix, ?_⟩
  · rw [List.prefix_nil.mp h]
    exact caused_nil
  · show Event.written events ++ [] <+: []
    rw [silent]
    exact List.nil_prefix

/-- The events of a turn up to the call of the handler. -/
theorem caused_respond {wire : List UInt8} {reply : Option (List UInt8)} {deadline : Deadline}
    {events : List Event} (whole : Event.received events = frame wire)
    (silent : Event.written events = []) :
    ∀ before, before <+: (([] ++ [.look false]) ++ [.read deadline events]) ++
      [.respond wire reply] → Caused before := by
  refine caused_concat (caused_read silent) ⟨?_, ?_⟩
  · show frame wire ++ [] <+: Event.received events ++ []
    rw [whole]
  · show Event.written events ++ [] <+: _
    rw [silent]
    exact List.nil_prefix

/-- The events of a turn with the reply, of which a part may be written. -/
theorem caused_write {wire response : List UInt8} {deadline deadline' : Deadline}
    {events events' : List Event} (whole : Event.received events = frame wire)
    (silent : Event.written events = []) (part : Event.written events' <+: frame response) :
    ∀ before, before <+: ((([] ++ [.look false]) ++ [.read deadline events]) ++
      [.respond wire (some response)]) ++ [.write deadline' events'] → Caused before := by
  refine caused_concat (caused_respond whole silent) ⟨?_, ?_⟩
  · show frame wire ++ [] <+: Event.received events ++ []
    rw [whole]
  · show Event.written events ++ (Event.written events' ++ []) <+: frame response ++ []
    rw [silent, List.append_nil, List.append_nil]
    exact part

end ServeEvent

/-- What a client can rely on in a session, whatever its stream does. -/
structure Serving.Ordered {σ : Type} (handler : Handler σ) (result : Except IoError Unit)
    (trace : List ServeEvent) : Prop where
  /-- At every moment, the requests that were handled have come, in this order, and what was
  written is a prefix of the replies to them, in this order. -/
  caused : ∀ before, before <+: trace → ServeEvent.Caused before
  /-- A request is handled as it is, and the reply is the one of the handler. -/
  asked : ∀ call ∈ ServeEvent.calls trace, Framed call.1 ∧ Serving.Asked handler call.1 call.2
  /-- A session that ends without an error has answered all that has come. -/
  balanced : result = .ok () → ServeEvent.Balanced trace

namespace Serving

variable {σ : Type} {handler : Handler σ} {calls : List (List UInt8 × Option (List UInt8))}
  {r : Except IoError Unit} {trace : List ServeEvent}

/-- What was attempted is in order. -/
theorem Attempted.ordered (h : Attempted handler calls r trace) : Ordered handler r trace := by
  induction h with
  -- The induction follows the session. A request that is over is balanced, so what comes behind it
  -- is in order when the rest is.
  | stopped =>
    refine ⟨fun before hbefore => ?_, nofun, fun _ => ⟨rfl, rfl⟩⟩
    rcases ServeEvent.prefix_singleton_cases hbefore with rfl | rfl
    · exact ServeEvent.caused_nil
    · exact ⟨List.nil_prefix, List.nil_prefix⟩
  | @ended deadline events silent nothing =>
    refine ⟨ServeEvent.caused_read silent, nofun, fun _ => ⟨?_, ?_⟩⟩
    · show Event.received events ++ [] = []
      rw [nothing]
      rfl
    · show Event.written events ++ [] = []
      rw [silent]
      rfl
  | failed silent => exact ⟨ServeEvent.caused_read silent, nofun, nofun⟩
  | @skipped wire deadline events calls r trace framed whole silent asked rest ih =>
    have hbalanced : ServeEvent.Balanced
        ((([] ++ [.look false]) ++ [.read deadline events]) ++ [.respond wire none]) := by
      refine ⟨?_, ?_⟩
      · show Event.received events ++ [] = frame wire ++ []
        rw [whole]
      · show Event.written events ++ [] = []
        rw [silent]
        rfl
    refine ⟨ServeEvent.caused_append (ServeEvent.caused_respond whole silent) hbalanced ih.caused,
      ?_, fun hok => hbalanced.append (ih.balanced hok)⟩
    intro call hcall
    rcases List.mem_cons.mp hcall with rfl | hcall
    · exact ⟨framed, asked⟩
    · exact ih.asked call hcall
  | @answered wire response deadline deadline' events events' calls r trace framed whole silent
      asked written rest ih =>
    have hbalanced : ServeEvent.Balanced ((((([] ++ [.look false]) ++ [.read deadline events]) ++
        [.respond wire (some response)])) ++ [.write deadline' events']) := by
      refine ⟨?_, ?_⟩
      · show Event.received events ++ [] = frame wire ++ []
        rw [whole]
      · show Event.written events ++ (Event.written events' ++ []) = frame response ++ []
        rw [silent, written]
        rfl
    have hpart : Event.written events' <+: frame response := by rw [written]
    refine ⟨ServeEvent.caused_append (ServeEvent.caused_write whole silent hpart) hbalanced
      ih.caused, ?_, fun hok => hbalanced.append (ih.balanced hok)⟩
    intro call hcall
    rcases List.mem_cons.mp hcall with rfl | hcall
    · exact ⟨framed, asked⟩
    · exact ih.asked call hcall
  -- The last frame may be cut: what was written is a prefix of it.
  | cut framed whole silent asked part =>
    refine ⟨ServeEvent.caused_write whole silent part, ?_, nofun⟩
    intro call hcall
    obtain rfl := List.mem_singleton.mp hcall
    exact ⟨framed, asked⟩

/-- A session that the kernel refuses has no trace. -/
theorem ordered_nil (e : IoError) : Ordered handler (.error e) [] := by
  refine ⟨fun before hbefore => ?_, nofun, nofun⟩
  rw [List.prefix_nil.mp hbefore]
  exact ServeEvent.caused_nil

end Serving

/-- Every session is in order, with any handler, client and clock. -/
theorem serveTcp_ordered {σ : Type} (handler : Handler σ) (client : Connection) (env : Env)
    (state : σ) :
    Serving.Ordered handler (serveTcp handler client env state).1
      (serveTcp handler client env state).2.trace := by
  let start : Serving σ := ⟨⟨env, client.stream.setNodelay.2⟩, state, []⟩
  have hset : (Serving.setNodelay : Run (Serving σ) IoError (Option ErrorKind)).exec
      ⟨⟨env, client.stream⟩, state, []⟩ = (.ok client.stream.setNodelay.1, start) := rfl
  unfold serveTcp
  -- If a socket option cannot be set there is no request.
  cases client.setNonblocking with
  | some kind => exact Serving.ordered_nil _
  | none =>
    have hexec : (Serving.check none >>= fun _ => Serving.setNodelay >>= fun answer =>
        Serving.check answer >>= fun _ =>
          Serving.loop handler env.clock.length client.firstDeadline :
            Run (Serving σ) IoError Unit).exec ⟨⟨env, client.stream⟩, state, []⟩ =
        (Serving.check client.stream.setNodelay.1 >>= fun _ =>
          Serving.loop handler env.clock.length client.firstDeadline :
            Run (Serving σ) IoError Unit).exec start := by
      rw [Run.exec_bind]
      show (Serving.setNodelay >>= _ : Run (Serving σ) IoError Unit).exec _ = _
      rw [Run.exec_bind, hset]
    rw [hexec]
    cases client.stream.setNodelay.1 with
    | some kind => exact Serving.ordered_nil _
    | none =>
      show Serving.Ordered handler
        ((Serving.loop handler env.clock.length client.firstDeadline).exec start).1
        ((Serving.loop handler env.clock.length client.firstDeadline).exec start).2.trace
      rcases hloop : (Serving.loop handler env.clock.length client.firstDeadline).exec start with
        ⟨r, s'⟩
      obtain ⟨calls, new, htrace, hattempted⟩ :=
        Serving.loop_attempted handler (Nat.le_refl start.session.env.clock.length) hloop
      have htrace : s'.trace = new := htrace
      rw [htrace]
      exact hattempted.ordered

end Sederial
