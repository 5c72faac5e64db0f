import Mathlib.Data.List.Flatten
import Sederial.Proofs.ServicePhases

/-!
# `Sederial.Proofs.ServiceIntake`: what comes in is submitted once and in order

The listeners are the only ones that call `submit`. `UdpIntake` compares what `recv_from` returned
with the calls of `submit` on the pool for UDP: they agree in order, up to one datagram that the
main thread holds in its hands or dropped because the stop flag was up. `TcpIntake` says the same
about connections.

`Pool.submissions` is read off the log of the pool. It is connected to the actions by
`step_submissions`: a call of `submit` adds its job, and nothing else adds one.
-/

set_option autoImplicit false

namespace Sederial

open Sederial.Lib

variable {Job : Type}

/-- The job of a call of `submit`, whatever it returned. -/
def PoolEvent.submits : PoolEvent Job → List (Ticket Job)
  | .accepted ticket | .rejected ticket => [ticket]
  | _ => []

/-- What is accepted was submitted. -/
theorem PoolEvent.accepts_sublist (e : PoolEvent Job) : e.accepts.Sublist e.submits := by
  cases e with
  | accepted ticket => exact .refl _
  | _ => exact List.nil_sublist _

namespace Pool

variable {s s' : Pool Job}

/-- The jobs of all calls of `submit`, in order. -/
def submissions (s : Pool Job) : List (Ticket Job) := s.log.flatMap PoolEvent.submits

/-- The accepted jobs are among the submitted ones, in the same order. -/
theorem accepted_sublist (s : Pool Job) : s.ledger.accepted.Sublist s.submissions :=
  List.Sublist.flatMap_right s.log fun e _ => e.accepts_sublist

/-- The submissions, one event later. -/
theorem submissions_record (e : PoolEvent Job) (s : Pool Job) :
    (s.record e).submissions = s.submissions ++ e.submits := by
  show (s.log ++ [e]).flatMap PoolEvent.submits = _
  rw [List.flatMap_append, List.flatMap_singleton]
  rfl

/-- An event that is no call of `submit`. -/
theorem submissions_record_of_nil {e : PoolEvent Job} (he : e.submits = []) (s : Pool Job) :
    (s.record e).submissions = s.submissions := by
  rw [submissions_record, he, List.append_nil]

/-- An action of a worker submits nothing. -/
theorem Works.submissions {index : Nat} {thread : Thread Job} (h : Works index thread s s') :
    s'.submissions = s.submissions ∧ s'.submitted = s.submitted := by
  cases h with
  | panics | takes | lockFails | discards | keeps | handles =>
    exact ⟨submissions_record_of_nil rfl s, rfl⟩
  | goes | fails | stops | raisesFailed | raisesStop | reports => exact ⟨rfl, rfl⟩

/-- Only a call of `submit` counts one. -/
theorem Acts.submissions {a : Action Job} (h : Acts s a s') :
    s'.submissions = s.submissions ∨ s'.submitted = s.submitted + 1 := by
  cases h with
  | works found works => exact .inl works.submissions.1
  | accepts | rejects | submitFails => exact .inr rfl
  | spawns owner =>
    exact .inl (submissions_record_of_nil (e := .spawned s.threads.length) rfl s)
  | clears | closeFails | receives | expires | concludes =>
    exact .inl (submissions_record_of_nil rfl s)
  | turns | stops | collected | joins | detaches | requestStop | poison => exact .inl rfl

/-- Only `submit` counts a job. -/
theorem step_submitted {a : Action Job} (h : s.step a = some s')
    (ha : ∀ job, a ≠ .submit job) : s'.submitted = s.submitted := by
  cases step_acts h with
  | works found works => exact works.submissions.2
  | accepts | rejects | submitFails => exact (ha _ rfl).elim
  | _ => rfl

/-- An action that is no call of `submit` submits nothing. -/
theorem step_submissions {a : Action Job} (h : s.step a = some s')
    (ha : ∀ job, a ≠ .submit job) : s'.submissions = s.submissions := by
  rcases (step_acts h).submissions with hsame | hcounted
  · exact hsame
  · rw [step_submitted h ha] at hcounted
    omega

/-- A call of `submit` adds its job. -/
theorem submit_submissions {job : Job} (h : s.step (.submit job) = some s') :
    s'.submissions.map Ticket.job = s.submissions.map Ticket.job ++ [job] := by
  have hone : ∀ (t : Pool Job) (e : PoolEvent Job), t.submissions = s.submissions →
      e.submits = [⟨s.submitted, job⟩] →
      (t.record e).submissions.map Ticket.job = s.submissions.map Ticket.job ++ [job] := by
    intro t e ht he
    rw [submissions_record, ht, he, List.map_append]
    rfl
  cases step_acts h with
  | turns _ turn => cases turn
  | accepts | rejects => exact hone _ _ rfl rfl
  | submitFails => exact hone _ _ (submissions_record_of_nil rfl _) rfl

end Pool

/-- What the main thread has received and not yet submitted: the datagram in its hands, or one that
it dropped when it saw the stop flag. -/
def Main.Holds (stop : Bool) (rest : List Datagram) : Main → Prop
  | .received datagram | .submitting datagram => rest = [datagram]
  | .openingUdp | .abortingUdp _ | .openingTcp | .addressing | .spawning | .leavingTcp _
  | .looking | .receiving => rest = []
  | .raising _ | .waking _ | .closingUdp _ _ | .awaiting _ _ _ | .joining _ _ | .leaving _
  | .droppingUdp _ | .returned _ => rest = [] ∨ rest.length = 1 ∧ stop = true

/-- What the TCP listener has accepted and not yet submitted. -/
def Listener.Holds (stop : Bool) (rest : List Arrival) : Listener → Prop
  | .accepted arrival | .submitting arrival => rest = [arrival]
  | .absent | .looking | .accepting => rest = []
  | .raising _ | .stopped _ | .closing _ | .completing _ | .dropping _ =>
    rest = [] ∨ rest.length = 1 ∧ stop = true
  -- A panic can strike between `accept` and `submit`.
  | .unwinding | .ended _ => rest.length ≤ 1

namespace Main

variable {main main' : Main} {stop stop' hungUp : Bool} {rest : List Datagram}

/-- The stop flag may be raised meanwhile. -/
theorem Holds.mono (h : main.Holds stop rest) (hstop : stop = true → stop' = true) :
    main.Holds stop' rest := by
  cases main with
  | raising | waking | closingUdp | awaiting | joining | leaving | droppingUdp | returned =>
    exact h.imp_right fun ⟨hone, hraised⟩ => ⟨hone, hstop hraised⟩
  | _ => exact h

/-- A move that touches nothing but the program counter keeps what the main thread holds, or drops
it at the stop flag. -/
theorem Goes.holds (h : main.Goes stop hungUp main') (hrest : main.Holds stop rest) :
    main'.Holds stop rest := by
  cases h with
  | addressed | receives | retries | keeps | hangsUp | expires => exact hrest
  | stopped | fails => exact .inl hrest
  | discards raised =>
    rw [show rest = [_] from hrest]
    exact .inr ⟨rfl, raised⟩

/-- At the start of the pool for UDP nothing has come in. -/
theorem openedUdp_holds (failure : Option IoError) (owner : Owner) (stop : Bool) :
    (openedUdp failure owner).Holds stop [] := by
  unfold openedUdp
  split
  · rfl
  · split <;> rfl

/-- Nor when that has failed. -/
theorem abortedUdp_holds (error : IoError) (owner : Owner) (stop : Bool) :
    (abortedUdp error owner).Holds stop [] := by
  unfold abortedUdp
  split
  · exact .inl rfl
  · rfl

/-- At the start of the pool for TCP nothing has come in. -/
theorem openedTcp_holds (failure : Option IoError) (owner : Owner) (stop : Bool) :
    (openedTcp failure owner).Holds stop [] := by
  unfold openedTcp
  split
  · rfl
  · split <;> rfl

/-- Nor when that has failed. -/
theorem leftTcp_holds (error : IoError) (owner : Owner) (stop : Bool) :
    (leftTcp error owner).Holds stop [] := by
  unfold leftTcp
  split
  · exact .inl rfl
  · rfl

/-- `shutdown` leaves what was dropped behind. -/
theorem closedUdp_holds {result : Outcome} {wake : Option String} (workers : Option Outcome)
    (h : (closingUdp result wake).Holds stop rest) :
    (closedUdp result wake workers).Holds stop rest := by
  unfold closedUdp
  split <;> exact h

/-- So does the drop of the pool. -/
theorem droppedUdp_holds {result : Outcome} (owner : Owner)
    (h : (droppingUdp result).Holds stop rest) : (droppedUdp result owner).Holds stop rest := by
  unfold droppedUdp
  split <;> exact h

/-- The moves of the main thread other than `recv_from` and `submit`. -/
theorem Moves.holds {s s' : Service} (h : main.Moves s s' main') (hrest : main.Holds s.stop rest) :
    main'.Holds s.stop rest := by
  cases h with
  | goes goes => exact goes.holds hrest
  | completes | joins | raises | wakes | leaves => exact hrest
  | opensUdp =>
    rw [show rest = [] from hrest]
    exact openedUdp_holds ..
  | abortsUdp =>
    rw [show rest = [] from hrest]
    exact abortedUdp_holds ..
  | opensTcp =>
    rw [show rest = [] from hrest]
    exact openedTcp_holds ..
  | dropsTcp early =>
    rcases early with rfl | rfl
    · exact hrest
    · exact hrest
  | leavesTcp =>
    rw [show rest = [] from hrest]
    exact leftTcp_holds ..
  | closesUdp => exact closedUdp_holds _ hrest
  | dropsUdp => exact droppedUdp_holds _ hrest

end Main

namespace Listener

variable {listener listener' : Listener} {stop stop' : Bool} {rest : List Arrival}

/-- The stop flag may be raised meanwhile. -/
theorem Holds.mono (h : listener.Holds stop rest) (hstop : stop = true → stop' = true) :
    listener.Holds stop' rest := by
  cases listener with
  | raising | stopped | closing | completing | dropping =>
    exact h.imp_right fun ⟨hone, hraised⟩ => ⟨hone, hstop hraised⟩
  | _ => exact h

/-- A move that touches nothing but the program counter keeps what the listener holds, or drops it
at the stop flag. -/
theorem Goes.holds (h : listener.Goes stop listener') (hrest : listener.Holds stop rest) :
    listener'.Holds stop rest := by
  cases h with
  | accepts | retries | keeps => exact hrest
  | stopped | fails => exact .inl hrest
  | discards raised =>
    rw [show rest = [_] from hrest]
    exact .inr ⟨rfl, raised⟩

/-- `shutdown` leaves what was dropped behind. -/
theorem closed_holds {result : Outcome} (workers : Option Outcome)
    (h : (closing result).Holds stop rest) : (closed result workers).Holds stop rest := by
  unfold closed
  split <;> exact h

/-- A listener in `accept_tcp` holds one connection at most. -/
theorem InAccept.holds (h : listener.InAccept) (hrest : listener.Holds stop rest) :
    unwinding.Holds stop rest := by
  show rest.length ≤ 1
  cases h with
  | looking | accepting =>
    rw [show rest = [] from hrest]
    exact Nat.zero_le 1
  | accepted | submitting =>
    rw [show rest = [_] from hrest]
    exact Nat.le_refl 1

/-- So does the drop of the pool. -/
theorem dropped_holds {result : Option Outcome} (owner : Owner)
    (h : (drops result).Holds stop rest) : (dropped result owner).Holds stop rest := by
  cases result with
  | none =>
    unfold dropped
    split <;> exact h
  | some result =>
    unfold dropped
    split
    · show rest.length ≤ 1
      rcases h with hnone | ⟨hone, -⟩
      · rw [hnone]
        exact Nat.zero_le 1
      · exact Nat.le_of_eq hone
    · exact h

/-- The moves of the listener other than `accept` and `submit`. -/
theorem Moves.holds {s s' : Service} (h : listener.Moves s s' listener')
    (hrest : listener.Holds s.stop rest) : listener'.Holds s.stop rest := by
  cases h with
  | goes goes => exact goes.holds hrest
  | raises | stops | sends => exact hrest
  | closes => exact closed_holds _ hrest
  | drops => exact dropped_holds _ hrest
  | panics accepts => exact accepts.holds hrest

end Listener

namespace Service

variable {server : Server} {s s' t : Service} {actor : Actor}

/-- What `recv_from` returned was submitted in order, up to what the main thread holds. -/
def UdpIntake (s : Service) : Prop :=
  ∃ rest, s.received = s.udp.pool.submissions.map Ticket.job ++ rest ∧ s.main.Holds s.stop rest

/-- What `enqueue` makes of what `accept` returned. -/
def Arrival.Enqueued (arrival : Arrival) (client : Connection) : Prop :=
  ∃ now, client = ⟨arrival.stream, ⟨now + clientFrameTimeout⟩, arrival.setNonblocking⟩

/-- What `accept` returned was submitted in order, up to what the listener holds. -/
def TcpIntake (s : Service) : Prop :=
  ∃ done rest, s.arrived = done ++ rest ∧
    List.Forall₂ Arrival.Enqueued done (s.tcp.pool.submissions.map Ticket.job) ∧
    s.listener.Holds s.stop rest

/-- Pools that are handed no job have seen no call of `submit`. -/
theorem Idles.submissions (h : s.Idles s') :
    s'.udp.pool.submissions = s.udp.pool.submissions ∧
      s'.tcp.pool.submissions = s.tcp.pool.submissions := by
  cases h with
  | still still =>
    rw [still.udp, still.tcp]
    exact ⟨rfl, rfl⟩
  | udp idle acts =>
    rw [acts.tcp]
    exact ⟨Pool.step_submissions acts.step idle, rfl⟩
  | tcp idle acts =>
    rw [acts.udp]
    exact ⟨rfl, Pool.step_submissions acts.step idle⟩

/-- Nothing is received and nothing is submitted. -/
theorem UdpIntake.next (hs : s.UdpIntake) (hreceived : s'.received = s.received)
    (hsubmissions : s'.udp.pool.submissions = s.udp.pool.submissions)
    (hmain : ∀ rest, s.main.Holds s.stop rest → s'.main.Holds s.stop rest)
    (hstop : s.stop = true → s'.stop = true) : s'.UdpIntake := by
  obtain ⟨rest, heq, hrest⟩ := hs
  refine ⟨rest, ?_, (hmain rest hrest).mono hstop⟩
  rw [hreceived, hsubmissions, heq]

/-- Nothing is accepted and nothing is submitted. -/
theorem TcpIntake.next (hs : s.TcpIntake) (harrived : s'.arrived = s.arrived)
    (hsubmissions : s'.tcp.pool.submissions = s.tcp.pool.submissions)
    (hlistener : ∀ rest, s.listener.Holds s.stop rest → s'.listener.Holds s.stop rest)
    (hstop : s.stop = true → s'.stop = true) : s'.TcpIntake := by
  obtain ⟨done, rest, heq, hdone, hrest⟩ := hs
  refine ⟨done, rest, ?_, ?_, (hlistener rest hrest).mono hstop⟩
  · rw [harrived, heq]
  · rw [hsubmissions]
    exact hdone

/-- One move keeps what was received in step with what was submitted. -/
theorem Moves.received (h : s.Moves actor s') (hstop : s.stop = true → s'.stop = true)
    (hs : s.UdpIntake) : s'.UdpIntake := by
  cases h with
  | receives main =>
    obtain ⟨rest, heq, hrest⟩ := hs
    rw [main] at hrest
    have hnone : rest = [] := hrest
    subst hnone
    rw [List.append_nil] at heq
    exact ⟨[_], congrArg (· ++ [_]) heq, rfl⟩
  | @submitsUdp datagram t main acts sets =>
    -- The datagram in the hands of the main thread goes to the pool.
    obtain ⟨rest, heq, hrest⟩ := hs
    rw [main] at hrest
    have hone : rest = [datagram] := hrest
    refine ⟨[], ?_, rfl⟩
    show t.received = t.udp.pool.submissions.map Ticket.job ++ []
    rw [List.append_nil, Pool.submit_submissions acts.step, sets.quiet.received, heq, hone]
  | arrives => exact hs.next rfl rfl (fun _ hrest => hrest) hstop
  | @submitsTcp arrival now t listener acts sets =>
    refine hs.next sets.quiet.received ?_ (fun _ hrest => sets.main.symm ▸ hrest) hstop
    show t.udp.pool.submissions = s.udp.pool.submissions
    rw [acts.udp]
    rfl
  | spawns main =>
    refine hs.next rfl rfl (fun rest hrest => ?_) hstop
    rw [main] at hrest
    exact hrest
  | main moves listener quiet =>
    exact hs.next quiet.received moves.idles.submissions.1 (fun _ => moves.holds) hstop
  | listener moves main quiet =>
    exact hs.next quiet.received moves.idles.submissions.1 (fun _ hrest => main.symm ▸ hrest) hstop
  | udp foreign acts sets =>
    exact hs.next sets.quiet.received (Idles.udp foreign.action_ne acts).submissions.1
      (fun _ hrest => sets.main.symm ▸ hrest) hstop
  | tcp foreign acts sets =>
    exact hs.next sets.quiet.received (Idles.tcp foreign.action_ne acts).submissions.1
      (fun _ hrest => sets.main.symm ▸ hrest) hstop

/-- One move keeps what was accepted in step with what was submitted. -/
theorem Moves.accepted (h : s.Moves actor s') (hstop : s.stop = true → s'.stop = true)
    (hplaced : s.Placed) (hs : s.TcpIntake) : s'.TcpIntake := by
  cases h with
  | receives => exact hs.next rfl rfl (fun _ hrest => hrest) hstop
  | @submitsUdp datagram t main acts sets =>
    refine hs.next sets.quiet.arrived ?_ (fun _ hrest => sets.listener.symm ▸ hrest) hstop
    show t.tcp.pool.submissions = s.tcp.pool.submissions
    rw [acts.tcp]
    rfl
  | @arrives arrival listener =>
    obtain ⟨done, rest, heq, hdone, hrest⟩ := hs
    rw [listener] at hrest
    have hnone : rest = [] := hrest
    subst hnone
    rw [List.append_nil] at heq
    exact ⟨done, [arrival], congrArg (· ++ [arrival]) heq, hdone, rfl⟩
  | @submitsTcp arrival now t listener acts sets =>
    -- The connection in the hands of the listener goes to the pool.
    obtain ⟨done, rest, heq, hdone, hrest⟩ := hs
    rw [listener] at hrest
    have hone : rest = [arrival] := hrest
    refine ⟨done ++ [arrival], [], ?_, ?_, rfl⟩
    · show t.arrived = _
      rw [List.append_nil, sets.quiet.arrived, heq, hone]
    · show List.Forall₂ _ _ (t.tcp.pool.submissions.map Ticket.job)
      rw [Pool.submit_submissions acts.step]
      exact List.rel_append hdone (.cons ⟨now, rfl⟩ .nil)
  | spawns main =>
    -- The thread did not exist before, and it has accepted nothing yet.
    refine hs.next rfl rfl (fun rest hrest => ?_) hstop
    rw [hplaced.absent main] at hrest
    exact hrest
  | main moves listener quiet =>
    exact hs.next quiet.arrived moves.idles.submissions.2 (fun _ hrest => listener.symm ▸ hrest)
      hstop
  | listener moves main quiet =>
    exact hs.next quiet.arrived moves.idles.submissions.2 (fun _ => moves.holds) hstop
  | udp foreign acts sets =>
    exact hs.next sets.quiet.arrived (Idles.udp foreign.action_ne acts).submissions.2
      (fun _ hrest => sets.listener.symm ▸ hrest) hstop
  | tcp foreign acts sets =>
    exact hs.next sets.quiet.arrived (Idles.tcp foreign.action_ne acts).submissions.2
      (fun _ hrest => sets.listener.symm ▸ hrest) hstop

/-- The invariant of both listeners. -/
theorem reaches_intake {stop : Bool} (h : Reaches (Service.step server) (· = start stop) s) :
    s.UdpIntake ∧ s.TcpIntake := by
  induction h with
  | start hs =>
    subst hs
    exact ⟨⟨[], rfl, rfl⟩, [], [], rfl, .nil, rfl⟩
  | next before hstep ih =>
    have hacts := step_acts hstep
    have hstop := hacts.touches.stop_raised (reaches_synced before)
    exact ⟨hacts.moves.received hstop ih.1, hacts.moves.accepted hstop (reaches_placed before) ih.2⟩

/-- Nothing is submitted that did not come in. -/
theorem UdpIntake.accepted_sublist (h : s.UdpIntake) :
    (s.udp.pool.ledger.accepted.map Ticket.job).Sublist s.received := by
  obtain ⟨rest, heq, -⟩ := h
  rw [heq]
  exact (s.udp.pool.accepted_sublist.map Ticket.job).trans (List.sublist_append_left ..)

/-- Clients are taken in once and in order, however the threads interleave. Over UDP the calls of
`submit` are what `recv_from` returned, and over TCP they are what `accept` returned, up to the one
datagram or connection that a listener holds in its hands, dropped at the stop flag, or lost in a
panic. What the queue for UDP accepted is among what came in, in the same order. -/
theorem intake_inOrder (server : Server) (stop : Bool)
    (h : Reaches (Service.step server) (· = start stop) s) :
    s.UdpIntake ∧ s.TcpIntake ∧
      (s.udp.pool.ledger.accepted.map Ticket.job).Sublist s.received := by
  obtain ⟨hreceived, haccepted⟩ := reaches_intake h
  exact ⟨hreceived, haccepted, hreceived.accepted_sublist⟩

/-- A server without upstream servers, in a world where time stands still. -/
def idleServer : Server where
  routing := emptyTable
  udpEnv := fun _ => idle
  udpAnswers := fun _ => []
  tcpEnv := fun _ => idle
  tcpWorlds := fun _ => []

/-- Both pools are built, and the TCP listener is spawned. -/
def boot : List ServiceAction :=
  (List.replicate (udpWorkers + tcpWorkers)
      [.main (.owner (.create none)), .main (.owner (.spawn none))]).flatten ++
    [.main (.address none), .main (.spawn none)]

/-- A client of the service. -/
def someClient : SocketAddr := SocketAddr.new (.v4 ⟨192, 0, 2, 9⟩) 5353

/-- A datagram is received and submitted, and another one is dropped at the stop flag. A failed
handshake is retried, and a connection is in the hands of its listener. -/
def intakeRun : List ServiceAction :=
  boot ++ [.main .go, .main (.receive (.ok (Dns.rootQuery.wire, someClient)) 0), .main .go,
    .main .go, .main .go, .main (.receive (.error .timedOut) 0), .main .go,
    .listener .go, .listener (.accept (.error ⟨.other 9, some 71⟩)), .listener .go,
    .listener (.accept (.ok ⟨pipelined.stream, none⟩)),
    .main (.receive (.ok ([1, 2, 3], someClient)) 1), .signal, .main .go]

/-- A run in which the main thread drops a datagram at the stop flag, and the listener has a
connection in its hands. -/
theorem intake_inOrder_dropped : ∃ s, runActions (Service.step idleServer) (start false) intakeRun =
      some s ∧ s.received.length = 2 ∧ s.udp.pool.submissions.length = 1 ∧ s.arrived.length = 1 ∧
        s.UdpIntake ∧ s.TcpIntake ∧
          (s.udp.pool.ledger.accepted.map Ticket.job).Sublist s.received := by
  have hcounts : (runActions (Service.step idleServer) (start false) intakeRun).map (fun s =>
      (s.received.length, s.udp.pool.submissions.length, s.arrived.length)) = some (2, 1, 1) := by
    decide +kernel
  obtain ⟨s, hs, heq⟩ := Option.map_eq_some_iff.mp hcounts
  simp only [Prod.mk.injEq] at heq
  exact ⟨s, hs, heq.1, heq.2.1, heq.2.2,
    intake_inOrder idleServer false (Reaches.of_run (.start rfl) hs)⟩

end Service

end Sederial
