import Sederial.Proofs.Exchange

/-!
# `Sederial.Proofs.FrameRuns`: the runs of the framing loops

`ReadsField` and `WritesRest` describe every run of the two loops of `src/transport.rs`, one
constructor for each way a turn can end. They say which clock readings the run used, what it
logged, and what is left of the scripts of the stream. `readExactLoop_run` and `writeLoop_run`
prove that the loops do nothing else. `ReadsFrame` puts two fields together.

Every later result about framing is an induction over these relations and does not look at the
loops again.
-/

set_option autoImplicit false

namespace Sederial

open Sederial.Lib
open Sederial.Dns (headerLength maxMessageLength)

/-- The outside world after a deadline check. -/
def Env.checked (env : Env) : Env :=
  { env with clock := env.clock.tail, log := env.log ++ [.check env.clock.head?] }

/-- A deadline check decides on the next reading. -/
theorem Deadline.remaining_exec (deadline : Deadline) (env : Env) :
    deadline.remaining.exec env = (deadline.left env.clock.head?, env.checked) := by
  obtain ⟨clock, entropy, udp, tcp, log⟩ := env
  cases clock <;> rfl

/-- What an operation of the world does to a session. -/
theorem Session.onEnv_exec {ε α : Type} (m : Run Env ε α) (s : Session) :
    (onEnv m).exec s = ((m.exec s.env).1, { s with env := (m.exec s.env).2 }) := rfl

/-- A deadline check of a framing loop. -/
theorem Session.remaining_exec (deadline : Deadline) (s : Session) :
    (discard (onEnv deadline.remaining) : Run Session IoError PUnit).exec s
      = ((deadline.left s.env.clock.head?).map fun _ => ⟨⟩, { s with env := s.env.checked }) := by
  show (onEnv deadline.remaining >>= fun _ => pure PUnit.unit).exec s = _
  rw [Run.exec_bind, onEnv_exec, deadline.remaining_exec]
  cases deadline.left s.env.clock.head? <;> rfl

/-- What a call on the stream does to a session. -/
theorem Session.call_exec {ε α : Type} (f : TcpStream → α × TcpStream) (s : Session) :
    (call f : Run Session ε α).exec s = (.ok (f s.stream).1, { s with stream := (f s.stream).2 }) :=
  rfl

/-- What a session does when it records an event. -/
theorem Session.record_exec {ε : Type} (e : TcpStream → Event) (s : Session) :
    (record e : Run Session ε Unit).exec s
      = (.ok (), { s with env := s.env.record (e s.stream) }) :=
  rfl

/-! ### Reading a field -/

/-- The runs of the loop of `read_exact` with the given field length and deadline. -/
inductive ReadsField (length : Nat) (deadline : Deadline) :
    List Reading → TcpStream → List UInt8 → Except IoError (Option (List UInt8)) →
      List Event → List Reading → TcpStream → Prop
  | late {clock stream got e} (late : deadline.left clock.head? = .error e) :
      ReadsField length deadline clock stream got (.error e) [.check clock.head?] clock.tail stream
  | full {clock stream got left} (full : length ≤ got.length)
      (intime : deadline.left clock.head? = .ok left) :
      ReadsField length deadline clock stream got (.ok (some got)) [.check clock.head?]
        clock.tail stream
  | refused {clock stream got left kind rest} (part : got.length < length)
      (intime : deadline.left clock.head? = .ok left)
      (refused : stream.incoming = .timeoutRejected kind :: rest) :
      ReadsField length deadline clock stream got (.error (.os kind)) [.check clock.head?]
        clock.tail { stream with incoming := rest }
  | eof {clock stream left stream'} (part : 0 < length)
      (intime : deadline.left clock.head? = .ok left)
      (read : stream.read length = (.ok [], stream')) :
      ReadsField length deadline clock stream [] (.ok none) [.check clock.head?] clock.tail stream'
  | cut {clock stream got left stream'} (part : got.length < length) (some : got ≠ [])
      (intime : deadline.left clock.head? = .ok left)
      (read : stream.read (length - got.length) = (.ok [], stream')) :
      ReadsField length deadline clock stream got
        (.error ⟨.unexpectedEof, .message "partial TCP frame"⟩) [.check clock.head?] clock.tail
        stream'
  | bytes {clock stream got left bytes stream' r new clock' final} (part : got.length < length)
      (intime : deadline.left clock.head? = .ok left)
      (read : stream.read (length - got.length) = (.ok bytes, stream')) (some : bytes ≠ [])
      (rest : ReadsField length deadline clock.tail stream' (got ++ bytes) r new clock' final) :
      ReadsField length deadline clock stream got r
        (.check clock.head? :: .tcpRead stream.peer bytes :: new) clock' final
  | again {clock stream got left kind stream' r new clock' final} (part : got.length < length)
      (intime : deadline.left clock.head? = .ok left)
      (read : stream.read (length - got.length) = (.error kind, stream'))
      (transient : transient kind)
      (rest : ReadsField length deadline clock.tail stream' got r new clock' final) :
      ReadsField length deadline clock stream got r (.check clock.head? :: new) clock' final
  | failed {clock stream got left kind stream'} (part : got.length < length)
      (intime : deadline.left clock.head? = .ok left)
      (read : stream.read (length - got.length) = (.error kind, stream'))
      (permanent : transient kind = false) :
      ReadsField length deadline clock stream got (.error (.os kind)) [.check clock.head?]
        clock.tail stream'

/-- The outside world after a framing program: the clock moved and the log grew. -/
def Env.moved (env : Env) (new : List Event) (clock : List Reading) : Env :=
  { env with clock := clock, log := env.log ++ new }

/-- A deadline check is a move of the world. -/
theorem Env.checked_eq_moved (env : Env) :
    env.checked = env.moved [.check env.clock.head?] env.clock.tail := rfl

/-- Two moves of the world are one. -/
theorem Env.moved_moved (env : Env) (new new' : List Event) (clock clock' : List Reading) :
    (env.moved new clock).moved new' clock' = env.moved (new ++ new') clock' := by
  simp [moved]

/-- What the next reading says about the deadline. -/
theorem Session.remaining_bind {α : Type} (deadline : Deadline) (m : Run Session IoError α)
    (s : Session) :
    ((discard (onEnv deadline.remaining) >>= fun _ => m) : Run Session IoError α).exec s
      = match deadline.left s.env.clock.head? with
        | .error e => (.error e, { s with env := s.env.checked })
        | .ok _ => m.exec { s with env := s.env.checked } := by
  rw [Run.exec_bind, Session.remaining_exec]
  cases deadline.left s.env.clock.head? <;> rfl

/-- How `set_read_timeout` ends. -/
theorem TcpStream.setReadTimeout_cases (stream : TcpStream) :
    (∃ kind rest, stream.incoming = .timeoutRejected kind :: rest ∧
        stream.setReadTimeout = (some kind, { stream with incoming := rest })) ∨
      stream.setReadTimeout = (none, stream) := by
  unfold setReadTimeout
  split
  · rename_i kind rest hincoming
    exact .inl ⟨kind, rest, hincoming, rfl⟩
  · exact .inr rfl

/-- What a run of the loop of `read_exact` from `s` ends with. -/
def FieldRun (length : Nat) (deadline : Deadline) (got : List UInt8) (s : Session)
    (out : Except IoError (Option (List UInt8)) × Session) : Prop :=
  ∃ new clock, ReadsField length deadline s.env.clock s.stream got out.1 new clock out.2.stream ∧
    out.2.env = s.env.moved new clock

/-- The loop of `read_exact`, turn by turn. -/
theorem readExactLoop_run (length : Nat) (deadline : Deadline) {turns : Nat} {got : List UInt8}
    {s : Session} (hturns : s.env.clock.length ≤ turns) :
    FieldRun length deadline got s ((readExactLoop length deadline turns got).exec s) := by
  induction turns generalizing got s with
  | zero =>
    have hclock : s.env.clock = [] := List.eq_nil_of_length_eq_zero (Nat.le_zero.mp hturns)
    -- The clock script is at its end, so the check of this turn ends the loop.
    have hlate : deadline.left s.env.clock.head? = .error .expired := by rw [hclock]; rfl
    unfold readExactLoop
    split
    · rw [Session.remaining_bind, hlate]
      exact ⟨_, _, .late hlate, rfl⟩
    · rw [Session.remaining_bind, hlate]
      exact ⟨_, _, .late hlate, rfl⟩
  | succ turns ih =>
    have hnext : s.env.checked.clock.length ≤ turns := by
      show s.env.clock.tail.length ≤ turns
      rw [List.length_tail]
      omega
    unfold readExactLoop
    split
    · rename_i hpart
      rw [Session.remaining_bind]
      cases hleft : deadline.left s.env.clock.head? with
      | error e => exact ⟨_, _, .late hleft, rfl⟩
      | ok left =>
        dsimp only
        rw [Run.exec_bind, Session.call_exec]
        dsimp only
        rcases s.stream.setReadTimeout_cases with ⟨kind, rest, hincoming, hset⟩ | hset
        · rw [hset]
          exact ⟨_, _, .refused hpart hleft hincoming, rfl⟩
        · rw [hset]
          dsimp only [Session.check]
          rw [Run.exec_bind, Run.exec_pure]
          dsimp only
          rw [Run.exec_bind, Session.call_exec]
          dsimp only
          rcases hread : s.stream.read (length - got.length) with ⟨kind | bytes, stream'⟩
          · dsimp only
            split
            · rename_i htransient
              obtain ⟨new, clock, hrun, henv⟩ := @ih got ⟨s.env.checked, stream'⟩ hnext
              refine ⟨_, _, .again hpart hleft hread htransient hrun, ?_⟩
              rw [henv, Env.checked_eq_moved, Env.moved_moved]
              rfl
            · rename_i hpermanent
              exact ⟨_, _, .failed hpart hleft hread (by simpa using hpermanent), rfl⟩
          · cases bytes with
            | nil =>
              dsimp only
              split
              · rename_i hempty
                obtain rfl : got = [] := List.eq_nil_of_length_eq_zero hempty
                exact ⟨_, _, .eof hpart hleft hread, rfl⟩
              · rename_i hsome
                exact ⟨_, _, .cut hpart (fun h => hsome (by rw [h]; rfl)) hleft hread, rfl⟩
            | cons b bytes =>
              have hpeer : stream'.peer = s.stream.peer := by
                have := s.stream.peer_read (length - got.length)
                rwa [hread] at this
              dsimp only
              rw [Run.exec_bind, Session.record_exec]
              obtain ⟨new, clock, hrun, henv⟩ := @ih (got ++ b :: bytes)
                ⟨s.env.checked.record (.tcpRead stream'.peer (b :: bytes)), stream'⟩ hnext
              refine ⟨_, _, .bytes hpart hleft hread (List.cons_ne_nil b bytes) hrun, ?_⟩
              rw [henv, hpeer]
              simp [Env.moved, Env.record, Env.checked]
    · rename_i hfull
      rw [Session.remaining_bind]
      cases hleft : deadline.left s.env.clock.head? with
      | error e => exact ⟨_, _, .late hleft, rfl⟩
      | ok left => exact ⟨_, _, .full (Nat.not_lt.mp hfull) hleft, rfl⟩

/-- The number of turns is the number of clock readings left. -/
theorem Session.turns_exec {ε : Type} (s : Session) :
    (turns : Run Session ε Nat).exec s = (.ok s.env.clock.length, s) := rfl

/-- `read_exact`, from nothing. -/
theorem readExact_run (length : Nat) (deadline : Deadline) (s : Session) :
    FieldRun length deadline [] s ((readExact length deadline).exec s) := by
  unfold readExact
  rw [Run.exec_bind, Session.turns_exec]
  exact readExactLoop_run length deadline (Nat.le_refl _)

/-! ### Reading a frame -/

/-- The length a prefix stands for. -/
def frameLength (lengthBytes : List UInt8) : Nat :=
  (word (lengthBytes.getD 0 0) (lengthBytes.getD 1 0)).toNat

/-- The runs of `read_frame` with the given deadline. -/
inductive ReadsFrame (deadline : Deadline) :
    List Reading → TcpStream → Except IoError (Option (List UInt8)) → List Event →
      List Reading → TcpStream → Prop
  | prefixFailed {clock stream e new clock' final}
      (header : ReadsField 2 deadline clock stream [] (.error e) new clock' final) :
      ReadsFrame deadline clock stream (.error e) new clock' final
  | eof {clock stream new clock' final}
      (header : ReadsField 2 deadline clock stream [] (.ok none) new clock' final) :
      ReadsFrame deadline clock stream (.ok none) new clock' final
  | short {clock stream field new clock' final}
      (header : ReadsField 2 deadline clock stream [] (.ok (some field)) new clock' final)
      (short : frameLength field < headerLength) :
      ReadsFrame deadline clock stream
        (.error ⟨.invalidData, .message "TCP DNS frame shorter than header"⟩) new clock' final
  | bodyFailed {clock stream field new clock' stream' e new' clock'' final}
      (header : ReadsField 2 deadline clock stream [] (.ok (some field)) new clock' stream')
      (long : headerLength ≤ frameLength field)
      (body : ReadsField (frameLength field) deadline clock' stream' [] (.error e) new' clock''
        final) :
      ReadsFrame deadline clock stream (.error e) (new ++ new') clock'' final
  | missing {clock stream field new clock' stream' new' clock'' final}
      (header : ReadsField 2 deadline clock stream [] (.ok (some field)) new clock' stream')
      (long : headerLength ≤ frameLength field)
      (body : ReadsField (frameLength field) deadline clock' stream' [] (.ok none) new' clock''
        final) :
      ReadsFrame deadline clock stream
        (.error ⟨.unexpectedEof, .message "missing TCP frame body"⟩) (new ++ new') clock'' final
  | message {clock stream field new clock' stream' wire new' clock'' final}
      (header : ReadsField 2 deadline clock stream [] (.ok (some field)) new clock' stream')
      (long : headerLength ≤ frameLength field)
      (body : ReadsField (frameLength field) deadline clock' stream' [] (.ok (some wire)) new'
        clock'' final) :
      ReadsFrame deadline clock stream (.ok (some wire)) (new ++ new') clock'' final

/-- What a run of `read_frame` from `s` ends with. -/
def FrameRun (deadline : Deadline) (s : Session)
    (out : Except IoError (Option (List UInt8)) × Session) : Prop :=
  ∃ new clock, ReadsFrame deadline s.env.clock s.stream out.1 new clock out.2.stream ∧
    out.2.env = s.env.moved new clock

/-- `read_frame`: the length and then the message. -/
theorem readFrame_run (deadline : Deadline) (s : Session) :
    FrameRun deadline s ((readFrame deadline).exec s) := by
  unfold readFrame
  rw [Run.exec_bind]
  obtain ⟨new, clock, hheader, henv⟩ := readExact_run 2 deadline s
  rcases hexec : (readExact 2 deadline).exec s with ⟨e | _ | field, s₁⟩
  · rw [hexec] at hheader henv
    exact ⟨_, _, .prefixFailed hheader, henv⟩
  · rw [hexec] at hheader henv
    exact ⟨_, _, .eof hheader, henv⟩
  · rw [hexec] at hheader henv
    dsimp only at hheader henv ⊢
    split
    · rename_i hshort
      exact ⟨_, _, .short hheader hshort, henv⟩
    · rename_i hlong
      have hlong := Nat.not_lt.mp hlong
      rw [Run.exec_bind]
      obtain ⟨new', clock', hbody, henv'⟩ := readExact_run (frameLength field) deadline s₁
      have hclock : s₁.env.clock = clock := by rw [henv]; rfl
      have hmoved : (s₁.env.moved new' clock') = s.env.moved (new ++ new') clock' := by
        rw [henv, Env.moved_moved]
      rw [hclock] at hbody
      rw [hmoved] at henv'
      have hframeLength : (word (field.getD 0 0) (field.getD 1 0)).toNat = frameLength field := rfl
      rw [hframeLength]
      rcases hexec' : (readExact (frameLength field) deadline).exec s₁ with ⟨e | _ | wire, s₂⟩
      · rw [hexec'] at hbody henv'
        exact ⟨_, _, .bodyFailed hheader hlong hbody, henv'⟩
      · rw [hexec'] at hbody henv'
        exact ⟨_, _, .missing hheader hlong hbody, henv'⟩
      · rw [hexec'] at hbody henv'
        exact ⟨_, _, .message hheader hlong hbody, henv'⟩

/-! ### Writing a frame -/

/-- The runs of the loop of `write_frame` with the given deadline. -/
inductive WritesRest (deadline : Deadline) :
    List Reading → TcpStream → List UInt8 → Except IoError Unit → List Event → List Reading →
      TcpStream → Prop
  | late {clock stream rest e} (late : deadline.left clock.head? = .error e) :
      WritesRest deadline clock stream rest (.error e) [.check clock.head?] clock.tail stream
  | done {clock stream left} (intime : deadline.left clock.head? = .ok left) :
      WritesRest deadline clock stream [] (.ok ()) [.check clock.head?] clock.tail stream
  | refused {clock stream rest left kind events} (some : rest ≠ [])
      (intime : deadline.left clock.head? = .ok left)
      (refused : stream.outgoing = .timeoutRejected kind :: events) :
      WritesRest deadline clock stream rest (.error (.os kind)) [.check clock.head?] clock.tail
        { stream with outgoing := events }
  | zero {clock stream rest left stream'} (some : rest ≠ [])
      (intime : deadline.left clock.head? = .ok left)
      (write : stream.write rest = (.ok 0, stream')) :
      WritesRest deadline clock stream rest
        (.error ⟨.writeZero, .message "TCP write returned zero"⟩) [.check clock.head?] clock.tail
        stream'
  | bytes {clock stream rest left count stream' r new clock' final} (some : rest ≠ [])
      (intime : deadline.left clock.head? = .ok left)
      (write : stream.write rest = (.ok count, stream')) (positive : 0 < count)
      (more : WritesRest deadline clock.tail stream' (rest.drop count) r new clock' final) :
      WritesRest deadline clock stream rest r
        (.check clock.head? :: .tcpWrite stream.peer (rest.take count) :: new) clock' final
  | again {clock stream rest left kind stream' r new clock' final} (some : rest ≠ [])
      (intime : deadline.left clock.head? = .ok left)
      (write : stream.write rest = (.error kind, stream')) (transient : transient kind)
      (more : WritesRest deadline clock.tail stream' rest r new clock' final) :
      WritesRest deadline clock stream rest r (.check clock.head? :: new) clock' final
  | failed {clock stream rest left kind stream'} (some : rest ≠ [])
      (intime : deadline.left clock.head? = .ok left)
      (write : stream.write rest = (.error kind, stream')) (permanent : transient kind = false) :
      WritesRest deadline clock stream rest (.error (.os kind)) [.check clock.head?] clock.tail
        stream'

/-- How `set_write_timeout` ends. -/
theorem TcpStream.setWriteTimeout_cases (stream : TcpStream) :
    (∃ kind events, stream.outgoing = .timeoutRejected kind :: events ∧
        stream.setWriteTimeout = (some kind, { stream with outgoing := events })) ∨
      stream.setWriteTimeout = (none, stream) := by
  unfold setWriteTimeout
  split
  · rename_i kind events houtgoing
    exact .inl ⟨kind, events, houtgoing, rfl⟩
  · exact .inr rfl

/-- What a run of the loop of `write_frame` from `s` ends with. -/
def RestRun (deadline : Deadline) (rest : List UInt8) (s : Session)
    (out : Except IoError Unit × Session) : Prop :=
  ∃ new clock, WritesRest deadline s.env.clock s.stream rest out.1 new clock out.2.stream ∧
    out.2.env = s.env.moved new clock

/-- The loop of `write_all`, turn by turn. -/
theorem writeLoop_run (deadline : Deadline) {turns : Nat} {rest : List UInt8} {s : Session}
    (hturns : s.env.clock.length ≤ turns) :
    RestRun deadline rest s ((writeLoop deadline turns rest).exec s) := by
  -- The induction is on the turns. Each turn looks at the clock once, so the readings of the clock
  -- run out with the turns.
  induction turns generalizing rest s with
  | zero =>
    have hclock : s.env.clock = [] := List.eq_nil_of_length_eq_zero (Nat.le_zero.mp hturns)
    have hlate : deadline.left s.env.clock.head? = .error .expired := by rw [hclock]; rfl
    unfold writeLoop
    split
    · rw [Session.remaining_bind, hlate]
      exact ⟨_, _, .late hlate, rfl⟩
    · rw [Session.remaining_exec, hlate]
      exact ⟨_, _, .late hlate, rfl⟩
  | succ turns ih =>
    have hnext : s.env.checked.clock.length ≤ turns := by
      show s.env.clock.tail.length ≤ turns
      rw [List.length_tail]
      omega
    unfold writeLoop
    split
    · rename_i hsome
      rw [Session.remaining_bind]
      cases hleft : deadline.left s.env.clock.head? with
      | error e => exact ⟨_, _, .late hleft, rfl⟩
      | ok left =>
        dsimp only
        rw [Run.exec_bind, Session.call_exec]
        dsimp only
        rcases s.stream.setWriteTimeout_cases with ⟨kind, events, houtgoing, hset⟩ | hset
        -- The timeout of the socket cannot be set.
        · rw [hset]
          exact ⟨_, _, .refused hsome hleft houtgoing, rfl⟩
        · rw [hset]
          dsimp only [Session.check]
          rw [Run.exec_bind, Run.exec_pure]
          dsimp only
          rw [Run.exec_bind, Session.call_exec]
          dsimp only
          rcases hwrite : s.stream.write rest with ⟨kind | count, stream'⟩
          · dsimp only
            split
            -- A transient error is tried again with the same bytes.
            · rename_i htransient
              obtain ⟨new, clock, hrun, henv⟩ := @ih rest ⟨s.env.checked, stream'⟩ hnext
              refine ⟨_, _, .again hsome hleft hwrite htransient hrun, ?_⟩
              rw [henv, Env.checked_eq_moved, Env.moved_moved]
              rfl
            · rename_i hpermanent
              exact ⟨_, _, .failed hsome hleft hwrite (by simpa using hpermanent), rfl⟩
          · cases count with
            | zero => exact ⟨_, _, .zero hsome hleft hwrite, rfl⟩
            -- The written bytes are recorded, and the loop goes on with the rest.
            | succ count =>
              have hpeer : stream'.peer = s.stream.peer := by
                have := s.stream.peer_write rest
                rwa [hwrite] at this
              show RestRun deadline rest s
                ((Session.record (fun stream => .tcpWrite stream.peer (rest.take (count + 1))) >>=
                  fun _ => writeLoop deadline turns (rest.drop (count + 1))).exec _)
              rw [Run.exec_bind, Session.record_exec]
              obtain ⟨new, clock, hrun, henv⟩ := @ih (rest.drop (count + 1))
                ⟨s.env.checked.record (.tcpWrite stream'.peer (rest.take (count + 1))), stream'⟩
                hnext
              refine ⟨_, _, .bytes hsome hleft hwrite (Nat.succ_pos count) hrun, ?_⟩
              rw [henv, hpeer]
              simp [Env.moved, Env.record, Env.checked]
    -- The last check of the deadline stands behind the last byte.
    · rename_i hempty
      obtain rfl : rest = [] := not_not.mp hempty
      rw [Session.remaining_exec]
      cases hleft : deadline.left s.env.clock.head? with
      | error e => exact ⟨_, _, .late hleft, rfl⟩
      | ok left => exact ⟨_, _, .done hleft, rfl⟩

/-- A message of a legal length is written as its frame. -/
theorem writeFrame_run {wire : List UInt8} (deadline : Deadline)
    (hlength : headerLength ≤ wire.length ∧ wire.length ≤ maxMessageLength) (s : Session) :
    RestRun deadline (frame wire) s ((writeFrame wire deadline).exec s) := by
  unfold writeFrame
  rw [if_neg (not_not_intro hlength), Run.exec_bind, Session.turns_exec]
  exact writeLoop_run deadline (Nat.le_refl _)

/-- A message of another length is not written at all. -/
theorem writeFrame_exec_of_not {wire : List UInt8} (deadline : Deadline)
    (hlength : ¬ (headerLength ≤ wire.length ∧ wire.length ≤ maxMessageLength)) (s : Session) :
    (writeFrame wire deadline).exec s
      = (.error ⟨.invalidInput, .message "invalid TCP DNS frame length"⟩, s) := by
  unfold writeFrame
  rw [if_pos hlength]
  rfl

end Sederial
