import Sederial.Proofs.CrewRuns
import Sederial.Proofs.PoolShutdown
import Sederial.Service

/-!
# `Sederial.Proofs.ServiceSteps`: what one action of the service does

`Main.Goes` and `Listener.Goes` are the moves of a listener that touch nothing but its own program
counter. `Acts` lists what any action does to the service, and `step_acts` proves that
`Service.step` does nothing else. An action performs at most one action of one pool, and the other
pool sees the stop flag.

`Service.Moves` is the same action seen from the two threads: one of them moves (`Main.Moves`,
`Listener.Moves`) with what its pool does, and the other stays where it is. An invariant of the
threads is proved once for each of the two kinds of moves.

`reaches_udp` and `reaches_tcp` are the connection to the pools: in every run of the service each
crew is in a state of a run of its own. So what holds of every run of a pool holds of the two
pools of the service.
-/

set_option autoImplicit false

namespace Sederial

open Sederial.Lib

/-- A move of the main thread that touches nothing but its program counter. -/
inductive Main.Goes (stop hungUp : Bool) : Main → Main → Prop
  | addressed : Goes stop hungUp .addressing .spawning
  | stopped (raised : stop = true) : Goes stop hungUp .looking (.raising (.ok ()))
  | receives (unraised : stop = false) : Goes stop hungUp .looking .receiving
  | retries {kind : ErrorKind} (transient : transient kind = true) :
      Goes stop hungUp .receiving .looking
  | fails {kind : ErrorKind} (fatal : transient kind = false) :
      Goes stop hungUp .receiving (.raising (.error (.os kind)))
  | discards {datagram : Datagram} (raised : stop = true) :
      Goes stop hungUp (.received datagram) (.raising (.ok ()))
  | keeps {datagram : Datagram} (unraised : stop = false) :
      Goes stop hungUp (.received datagram) (.submitting datagram)
  | hangsUp {result workers : Outcome} {wake : Option String} (gone : hungUp = true) :
      Goes stop hungUp (.awaiting result workers wake) (.joining result workers)
  | expires {result workers : Outcome} {wake : Option String} (running : hungUp = false) :
      Goes stop hungUp (.awaiting result workers wake)
        (.leaving ((result.and workers).and (.error (.listenerTimedOut wake))))

/-- A move of the TCP listener that touches nothing but its program counter. -/
inductive Listener.Goes (stop : Bool) : Listener → Listener → Prop
  | stopped (raised : stop = true) : Goes stop .looking (.raising (.ok ()))
  | accepts (unraised : stop = false) : Goes stop .looking .accepting
  | retries {error : AcceptError} (retryable : acceptErrorIsRetryable error = true) :
      Goes stop .accepting .looking
  | fails {error : AcceptError} (fatal : acceptErrorIsRetryable error = false) :
      Goes stop .accepting (.raising (.error (.os error.kind)))
  | discards {arrival : Arrival} (raised : stop = true) :
      Goes stop (.accepted arrival) (.raising (.ok ()))
  | keeps {arrival : Arrival} (unraised : stop = false) :
      Goes stop (.accepted arrival) (.submitting arrival)

/-- The TCP listener is in `accept_tcp`. -/
inductive Listener.InAccept : Listener → Prop
  | looking : InAccept .looking
  | accepting : InAccept .accepting
  | accepted (arrival : Arrival) : InAccept (.accepted arrival)
  | submitting (arrival : Arrival) : InAccept (.submitting arrival)

/-- The TCP listener drops its pool. Without a result it panicked. -/
def Listener.drops : Option Outcome → Listener
  | some result => .dropping result
  | none => .unwinding

/-- What the surroundings and the workers do to a pool. -/
inductive Action.Foreign {Job : Type} : Action Job → Prop
  | worker (index : Nat) (move : Move) : Foreign (.worker index move)
  | requestStop : Foreign .requestStop
  | poison : Foreign .poison

/-- Who acts: a listener, or anyone else. -/
inductive Actor where
  | main
  | listener
  | foreign

/-- The actor of an action. -/
def ServiceAction.actor : ServiceAction → Actor
  | .main _ => .main
  | .listener _ => .listener
  | .udpWorker _ _ | .tcpWorker _ _ | .signal | .poisonUdp | .poisonTcp => .foreign

namespace Service

/-- What an action does to the service. -/
inductive Acts (server : Server) (s : Service) : Actor → Service → Prop
  | mainGoes {main : Main} (goes : s.main.Goes s.stop s.hungUp main) :
      Acts server s .main (s.goto main)
  | spawns (main : s.main = .spawning) :
      Acts server s .main (((s.listen .looking).notify .listening).goto .looking)
  | receives {datagram : Datagram} (main : s.main = .receiving) :
      Acts server s .main
        ({ s with received := s.received ++ [datagram] }.goto (.received datagram))
  | completes {result workers : Outcome} {wake : Option String}
      (main : s.main = .awaiting result workers wake) (sent : s.completion = true) :
      Acts server s .main ({ s with completion := false }.goto (.joining result workers))
  | joins {result workers : Outcome} {left : Option Outcome} {notices : List Notice}
      (main : s.main = .joining result workers) (listener : s.listener = .ended left)
      (said : notices = s.notices ∨
        notices = s.notices ++ [.complete] ∧ (joined left).isOk = true) :
      Acts server s .main
        ({ s with notices := notices }.goto (.leaving ((result.and workers).and (joined left))))
  /-- `Pool::new` for UDP. -/
  | opensUdp {event : OwnerEvent} {t : Service} (main : s.main = .openingUdp)
      (acts : s.onUdp server event.action = some t) :
      Acts server s .main (t.goto (.openedUdp event.failure t.udp.pool.owner))
  | abortsUdp {event : OwnerEvent} {t : Service} {error : IoError}
      (main : s.main = .abortingUdp error) (acts : s.onUdp server event.action = some t) :
      Acts server s .main (t.goto (.abortedUdp error t.udp.pool.owner))
  /-- `Pool::new` for TCP. -/
  | opensTcp {event : OwnerEvent} {t : Service} (main : s.main = .openingTcp)
      (acts : s.onTcp server event.action = some t) :
      Acts server s .main (t.goto (.openedTcp event.failure t.tcp.pool.owner))
  | dropsTcp {error : IoError} {t : Service} (main : s.main = .addressing ∨ s.main = .spawning)
      (acts : s.onTcp server .drop = some t) : Acts server s .main (t.goto (.leavingTcp error))
  | leavesTcp {event : OwnerEvent} {t : Service} {error : IoError}
      (main : s.main = .leavingTcp error) (acts : s.onTcp server event.action = some t) :
      Acts server s .main (t.goto (.leftTcp error t.tcp.pool.owner))
  | submitsUdp {datagram : Datagram} {t : Service} (main : s.main = .submitting datagram)
      (acts : s.onUdp server (.submit datagram) = some t) : Acts server s .main (t.goto .looking)
  | raises {result : Outcome} {t : Service} (main : s.main = .raising result)
      (acts : s.onUdp server .requestStop = some t) :
      Acts server s .main ((t.notify .stopping).goto (.waking result))
  | wakes {result : Outcome} {failure : Option String} {t : Service}
      (main : s.main = .waking result) (acts : s.onUdp server .shutdown = some t) :
      Acts server s .main (t.goto (.closingUdp result failure))
  | closesUdp {event : OwnerEvent} {t : Service} {result : Outcome} {wake : Option String}
      (main : s.main = .closingUdp result wake) (acts : s.onUdp server event.action = some t) :
      Acts server s .main (t.goto (.closedUdp result wake (s.udp.pool.shutdownResult event)))
  | leaves {result : Outcome} {t : Service} (main : s.main = .leaving result)
      (acts : s.onUdp server .drop = some t) : Acts server s .main (t.goto (.droppingUdp result))
  | dropsUdp {event : OwnerEvent} {t : Service} {result : Outcome}
      (main : s.main = .droppingUdp result) (acts : s.onUdp server event.action = some t) :
      Acts server s .main (t.goto (.droppedUdp result t.udp.pool.owner))
  | listenerGoes {listener : Listener} (goes : s.listener.Goes s.stop listener) :
      Acts server s .listener (s.listen listener)
  | arrives {arrival : Arrival} (listener : s.listener = .accepting) :
      Acts server s .listener
        ({ s with arrived := s.arrived ++ [arrival] }.listen (.accepted arrival))
  | submitsTcp {arrival : Arrival} {now : Nat} {t : Service}
      (listener : s.listener = .submitting arrival)
      (acts : s.onTcp server (.submit ⟨arrival.stream, ⟨now + clientFrameTimeout⟩,
        arrival.setNonblocking⟩) = some t) : Acts server s .listener (t.listen .looking)
  | listenerRaises {result : Outcome} {t : Service} (listener : s.listener = .raising result)
      (acts : s.onTcp server .requestStop = some t) :
      Acts server s .listener (t.listen (.stopped result))
  | listenerStops {result : Outcome} {t : Service} (listener : s.listener = .stopped result)
      (acts : s.onTcp server .shutdown = some t) :
      Acts server s .listener (t.listen (.closing result))
  | closesTcp {event : OwnerEvent} {t : Service} {result : Outcome}
      (listener : s.listener = .closing result) (acts : s.onTcp server event.action = some t) :
      Acts server s .listener (t.listen (.closed result (s.tcp.pool.shutdownResult event)))
  | sends {result : Outcome} {t : Service} (listener : s.listener = .completing result)
      (acts : s.onTcp server .drop = some t) :
      Acts server s .listener ({ t with completion := true }.listen (.dropping result))
  | drops {event : OwnerEvent} {t : Service} {result : Option Outcome}
      (listener : s.listener = .drops result)
      (acts : s.onTcp server event.action = some t) :
      Acts server s .listener (t.listen (.dropped result t.tcp.pool.owner))
  | panics {t : Service} (listener : s.listener.InAccept) (acts : s.onTcp server .drop = some t) :
      Acts server s .listener (t.listen .unwinding)
  | udp {a : Action Datagram} {t : Service} (foreign : a.Foreign)
      (acts : s.onUdp server a = some t) : Acts server s .foreign t
  | tcp {a : Action Connection} {t : Service} (foreign : a.Foreign)
      (acts : s.onTcp server a = some t) : Acts server s .foreign t

variable {server : Server} {s s' : Service} {actor : Actor}

/-- A pool acts, and its crew is the only part of the service that changes, apart from the stop
flag in the other one. -/
theorem onUdp_eq {a : Action Datagram} (h : s.onUdp server a = some s') :
    ∃ udp, s.udp.step (udpWorker server.routing) server.createUdp a = some udp ∧
      s' = { s with udp := udp, tcp := s.tcp.setStop udp.pool.stop } := by
  obtain ⟨udp, hstep, hs⟩ := Option.map_eq_some_iff.mp h
  exact ⟨udp, hstep, hs.symm⟩

/-- An action on the TCP pool is a step of that pool, and the flag it leaves is the UDP pool's
too. -/
theorem onTcp_eq {a : Action Connection} (h : s.onTcp server a = some s') :
    ∃ tcp, s.tcp.step (tcpWorker server.routing) server.createTcp a = some tcp ∧
      s' = { s with tcp := tcp, udp := s.udp.setStop tcp.pool.stop } := by
  obtain ⟨tcp, hstep, hs⟩ := Option.map_eq_some_iff.mp h
  exact ⟨tcp, hstep, hs.symm⟩

/-- One action of the main thread. -/
theorem mainStep_acts {event : MainEvent} (h : s.mainStep server event = some s') :
    Acts server s .main s' := by
  cases event with
  | owner event =>
    dsimp only [mainStep] at h
    split at h
    -- The calls of the two pools, in the order in which `run` makes them.
    · rename_i hmain
      obtain ⟨t, acts, rfl⟩ := Option.map_eq_some_iff.mp h
      exact .opensUdp hmain acts
    · rename_i hmain
      obtain ⟨t, acts, rfl⟩ := Option.map_eq_some_iff.mp h
      exact .abortsUdp hmain acts
    · rename_i hmain
      obtain ⟨t, acts, rfl⟩ := Option.map_eq_some_iff.mp h
      exact .opensTcp hmain acts
    · rename_i hmain
      obtain ⟨t, acts, rfl⟩ := Option.map_eq_some_iff.mp h
      exact .leavesTcp hmain acts
    · rename_i hmain
      obtain ⟨t, acts, rfl⟩ := Option.map_eq_some_iff.mp h
      exact .closesUdp hmain acts
    · rename_i hmain
      obtain ⟨t, acts, rfl⟩ := Option.map_eq_some_iff.mp h
      exact .dropsUdp hmain acts
    · cases h
  | address failure =>
    dsimp only [mainStep] at h
    split at h
    · rename_i hmain
      cases h
      exact .mainGoes (hmain ▸ .addressed)
    -- `local_addr` or `spawn` fails, and the pool for TCP is dropped on the way out.
    · rename_i hmain
      obtain ⟨t, acts, rfl⟩ := Option.map_eq_some_iff.mp h
      exact .dropsTcp (.inl hmain) acts
    · cases h
  | spawn failure =>
    dsimp only [mainStep] at h
    split at h
    · rename_i hmain
      cases h
      exact .spawns hmain
    · rename_i hmain
      obtain ⟨t, acts, rfl⟩ := Option.map_eq_some_iff.mp h
      exact .dropsTcp (.inr hmain) acts
    · cases h
  | receive answer now =>
    dsimp only [mainStep] at h
    split at h
    · rename_i hmain
      cases h
      exact .receives hmain
    -- `Interrupted`, `WouldBlock` and `TimedOut` are tried again.
    · rename_i kind hmain
      split at h
      · rename_i htransient
        cases h
        exact .mainGoes (hmain ▸ .retries htransient)
      · rename_i hfatal
        cases h
        exact .mainGoes (hmain ▸ .fails (Bool.not_eq_true _ ▸ hfatal))
    · cases h
  | connect failure =>
    dsimp only [mainStep] at h
    split at h
    · rename_i hmain
      obtain ⟨t, acts, rfl⟩ := Option.map_eq_some_iff.mp h
      exact .wakes hmain acts
    · cases h
  -- `recv_timeout` gives up only while the listener still runs.
  | expire =>
    dsimp only [mainStep] at h
    split at h
    · rename_i hmain
      split at h
      · cases h
      · rename_i hwaits
        cases h
        have hrunning : s.hungUp = false := by
          cases hhung : s.hungUp with
          | false => rfl
          | true => exact (hwaits (by rw [hhung, Bool.or_true])).elim
        exact .mainGoes (hmain ▸ .expires hrunning)
    · cases h
  | go =>
    dsimp only [mainStep] at h
    split at h
    -- `while !stop`, once before `recv_from` and once behind it.
    · rename_i hmain
      cases h
      split
      · rename_i hstop
        exact .mainGoes (hmain ▸ .stopped hstop)
      · rename_i hstop
        exact .mainGoes (hmain ▸ .receives (Bool.not_eq_true _ ▸ hstop))
    · rename_i hmain
      cases h
      split
      · rename_i hstop
        exact .mainGoes (hmain ▸ .discards hstop)
      · rename_i hstop
        exact .mainGoes (hmain ▸ .keeps (Bool.not_eq_true _ ▸ hstop))
    · rename_i hmain
      obtain ⟨t, acts, rfl⟩ := Option.map_eq_some_iff.mp h
      exact .submitsUdp hmain acts
    · rename_i hmain
      obtain ⟨t, acts, rfl⟩ := Option.map_eq_some_iff.mp h
      exact .raises hmain acts
    -- `completed.recv_timeout`: a message that is there is taken first.
    · rename_i hmain
      split at h
      · rename_i hsent
        cases h
        exact .completes hmain hsent
      · split at h
        · rename_i hhung
          cases h
          exact .mainGoes (hmain ▸ .hangsUp hhung)
        · cases h
    · rename_i hmain
      split at h
      -- The last line is said only when the listener has ended well.
      · rename_i hlistener
        split at h
        · rename_i hjoined
          cases h
          exact .joins hmain hlistener (.inr ⟨rfl, by rw [hjoined]; rfl⟩)
        · cases h
          show Acts server s .main ({ s with notices := s.notices }.goto _)
          exact .joins hmain hlistener (.inl rfl)
      · cases h
    · rename_i hmain
      obtain ⟨t, acts, rfl⟩ := Option.map_eq_some_iff.mp h
      exact .leaves hmain acts
    · cases h

/-- One action of the TCP listener. -/
theorem listenerStep_acts {event : ListenerEvent} (h : s.listenerStep server event = some s') :
    Acts server s .listener s' := by
  cases event with
  | owner event =>
    dsimp only [listenerStep] at h
    -- The calls of the pool. The drop is the same whether the listener returns or unwinds.
    split at h
    · rename_i hlistener
      obtain ⟨t, acts, rfl⟩ := Option.map_eq_some_iff.mp h
      exact .closesTcp hlistener acts
    · rename_i hlistener
      obtain ⟨t, acts, rfl⟩ := Option.map_eq_some_iff.mp h
      exact .drops hlistener acts
    · rename_i hlistener
      obtain ⟨t, acts, rfl⟩ := Option.map_eq_some_iff.mp h
      exact .drops hlistener acts
    · cases h
  | accept answer =>
    dsimp only [listenerStep] at h
    split at h
    · rename_i hlistener
      cases h
      exact .arrives hlistener
    -- A failed handshake is passed over, any other error ends the loop.
    · rename_i error hlistener
      split at h
      · rename_i hretryable
        cases h
        exact .listenerGoes (hlistener ▸ .retries hretryable)
      · rename_i hfatal
        cases h
        exact .listenerGoes (hlistener ▸ .fails (Bool.not_eq_true _ ▸ hfatal))
    · cases h
  | enqueue now =>
    dsimp only [listenerStep] at h
    split at h
    · rename_i hlistener
      obtain ⟨t, acts, rfl⟩ := Option.map_eq_some_iff.mp h
      exact .submitsTcp hlistener acts
    · cases h
  | panic =>
    dsimp only [listenerStep] at h
    -- `accept_tcp` may panic at any point of its loop.
    split at h
    · rename_i hlistener
      obtain ⟨t, acts, rfl⟩ := Option.map_eq_some_iff.mp h
      exact .panics (hlistener ▸ .looking) acts
    · rename_i hlistener
      obtain ⟨t, acts, rfl⟩ := Option.map_eq_some_iff.mp h
      exact .panics (hlistener ▸ .accepting) acts
    · rename_i hlistener
      obtain ⟨t, acts, rfl⟩ := Option.map_eq_some_iff.mp h
      exact .panics (hlistener ▸ .accepted _) acts
    · rename_i hlistener
      obtain ⟨t, acts, rfl⟩ := Option.map_eq_some_iff.mp h
      exact .panics (hlistener ▸ .submitting _) acts
    · cases h
  | go =>
    dsimp only [listenerStep] at h
    split at h
    -- `while !stop`, once before `accept` and once behind it.
    · rename_i hlistener
      cases h
      split
      · rename_i hstop
        exact .listenerGoes (hlistener ▸ .stopped hstop)
      · rename_i hstop
        exact .listenerGoes (hlistener ▸ .accepts (Bool.not_eq_true _ ▸ hstop))
    · rename_i hlistener
      cases h
      split
      · rename_i hstop
        exact .listenerGoes (hlistener ▸ .discards hstop)
      · rename_i hstop
        exact .listenerGoes (hlistener ▸ .keeps (Bool.not_eq_true _ ▸ hstop))
    · rename_i hlistener
      obtain ⟨t, acts, rfl⟩ := Option.map_eq_some_iff.mp h
      exact .listenerRaises hlistener acts
    · rename_i hlistener
      obtain ⟨t, acts, rfl⟩ := Option.map_eq_some_iff.mp h
      exact .listenerStops hlistener acts
    · rename_i hlistener
      obtain ⟨t, acts, rfl⟩ := Option.map_eq_some_iff.mp h
      exact .sends hlistener acts
    · cases h

/-- Every action of the service does what `Acts` says. -/
theorem step_acts {a : ServiceAction} (h : s.step server a = some s') :
    Acts server s a.actor s' := by
  cases a with
  | main event => exact mainStep_acts h
  | listener event => exact listenerStep_acts h
  | udpWorker index move => exact .udp (.worker index move) h
  | tcpWorker index move => exact .tcp (.worker index move) h
  | signal => exact .udp .requestStop h
  | poisonUdp => exact .udp .poison h
  | poisonTcp => exact .tcp .poison h

/-! ### The threads -/

/-- The pool for UDP acts. Of the other pool nothing but the stop flag changes. -/
structure UdpActs (s s' : Service) (a : Action Datagram) : Prop where
  step : s.udp.pool.step a = some s'.udp.pool
  tcp : s'.tcp.pool = { s.tcp.pool with stop := s'.udp.pool.stop }

/-- The pool for TCP acts. Of the other pool nothing but the stop flag changes. -/
structure TcpActs (s s' : Service) (a : Action Connection) : Prop where
  step : s.tcp.pool.step a = some s'.tcp.pool
  udp : s'.udp.pool = { s.udp.pool with stop := s'.tcp.pool.stop }

/-- No pool acts. -/
structure Still (s s' : Service) : Prop where
  udp : s'.udp.pool = s.udp.pool
  tcp : s'.tcp.pool = s.tcp.pool

/-- The pools are handed no job. -/
inductive Idles (s s' : Service) : Prop
  | still (still : s.Still s')
  | udp {a : Action Datagram} (idle : ∀ job, a ≠ .submit job) (acts : s.UdpActs s' a)
  | tcp {a : Action Connection} (idle : ∀ job, a ≠ .submit job) (acts : s.TcpActs s' a)

/-- No client comes in. -/
structure NoClient (s s' : Service) : Prop where
  received : s'.received = s.received
  arrived : s'.arrived = s.arrived

end Service

/-- A move of the main thread in which no datagram comes in and none is submitted, with what its
pools do meanwhile. -/
inductive Main.Moves (s s' : Service) : Main → Main → Prop
  | goes {main main' : Main} (goes : main.Goes s.stop s.hungUp main') (still : s.Still s') :
      Moves s s' main main'
  | completes {result workers : Outcome} {wake : Option String} (sent : s.completion = true)
      (still : s.Still s') : Moves s s' (.awaiting result workers wake) (.joining result workers)
  | joins {result workers : Outcome} {left : Option Outcome} (listener : s.listener = .ended left)
      (still : s.Still s') :
      Moves s s' (.joining result workers)
        (.leaving ((result.and workers).and (Service.joined left)))
  | opensUdp {event : OwnerEvent} (acts : s.UdpActs s' event.action) :
      Moves s s' .openingUdp (.openedUdp event.failure s'.udp.pool.owner)
  | abortsUdp {event : OwnerEvent} {error : IoError} (acts : s.UdpActs s' event.action) :
      Moves s s' (.abortingUdp error) (.abortedUdp error s'.udp.pool.owner)
  | opensTcp {event : OwnerEvent} (acts : s.TcpActs s' event.action) :
      Moves s s' .openingTcp (.openedTcp event.failure s'.tcp.pool.owner)
  | dropsTcp {main : Main} {error : IoError} (early : main = .addressing ∨ main = .spawning)
      (acts : s.TcpActs s' .drop) : Moves s s' main (.leavingTcp error)
  | leavesTcp {event : OwnerEvent} {error : IoError} (acts : s.TcpActs s' event.action) :
      Moves s s' (.leavingTcp error) (.leftTcp error s'.tcp.pool.owner)
  | raises {result : Outcome} (acts : s.UdpActs s' .requestStop) :
      Moves s s' (.raising result) (.waking result)
  | wakes {result : Outcome} {failure : Option String} (acts : s.UdpActs s' .shutdown) :
      Moves s s' (.waking result) (.closingUdp result failure)
  | closesUdp {event : OwnerEvent} {result : Outcome} {wake : Option String}
      (acts : s.UdpActs s' event.action) :
      Moves s s' (.closingUdp result wake)
        (.closedUdp result wake (s.udp.pool.shutdownResult event))
  | leaves {result : Outcome} (acts : s.UdpActs s' .drop) :
      Moves s s' (.leaving result) (.droppingUdp result)
  | dropsUdp {event : OwnerEvent} {result : Outcome} (acts : s.UdpActs s' event.action) :
      Moves s s' (.droppingUdp result) (.droppedUdp result s'.udp.pool.owner)

/-- A move of the TCP listener in which no connection comes in and none is submitted. -/
inductive Listener.Moves (s s' : Service) : Listener → Listener → Prop
  | goes {listener listener' : Listener} (goes : listener.Goes s.stop listener')
      (still : s.Still s') : Moves s s' listener listener'
  | raises {result : Outcome} (acts : s.TcpActs s' .requestStop) :
      Moves s s' (.raising result) (.stopped result)
  | stops {result : Outcome} (acts : s.TcpActs s' .shutdown) :
      Moves s s' (.stopped result) (.closing result)
  | closes {event : OwnerEvent} {result : Outcome} (acts : s.TcpActs s' event.action) :
      Moves s s' (.closing result) (.closed result (s.tcp.pool.shutdownResult event))
  | sends {result : Outcome} (acts : s.TcpActs s' .drop) :
      Moves s s' (.completing result) (.dropping result)
  | drops {event : OwnerEvent} {result : Option Outcome} (acts : s.TcpActs s' event.action) :
      Moves s s' (.drops result) (.dropped result s'.tcp.pool.owner)
  | panics {listener : Listener} (accepts : listener.InAccept) (acts : s.TcpActs s' .drop) :
      Moves s s' listener .unwinding

/-- The calls of `Pool::new`, `shutdown` and `drop` submit nothing. -/
theorem OwnerEvent.action_ne {Job : Type} (event : OwnerEvent) (job : Job) :
    (event.action : Action Job) ≠ .submit job := by
  cases event <;> exact nofun

/-- Only the owner of a pool submits a job. -/
theorem Action.Foreign.action_ne {Job : Type} {a : Action Job} (h : a.Foreign) (job : Job) :
    a ≠ .submit job := by
  cases h <;> exact nofun

section

variable {s s' : Service}

/-- The main thread hands no job to a pool in such a move. -/
theorem Main.Moves.idles {main main' : Main} (h : main.Moves s s' main') : s.Idles s' := by
  cases h with
  | goes _ still | completes _ still | joins _ still => exact .still still
  | opensUdp acts | abortsUdp acts | closesUdp acts | dropsUdp acts =>
    exact .udp (OwnerEvent.action_ne _) acts
  | opensTcp acts | leavesTcp acts => exact .tcp (OwnerEvent.action_ne _) acts
  | dropsTcp _ acts => exact .tcp (by nofun) acts
  | raises acts | wakes acts | leaves acts => exact .udp (by nofun) acts

/-- Nor does the listener. -/
theorem Listener.Moves.idles {listener listener' : Listener} (h : listener.Moves s s' listener') :
    s.Idles s' := by
  cases h with
  | goes _ still => exact .still still
  | raises acts | stops acts | sends acts | panics _ acts => exact .tcp (by nofun) acts
  | closes acts | drops acts => exact .tcp (OwnerEvent.action_ne _) acts

end

namespace Service

variable {server : Server} {s s' t : Service} {actor : Actor}

/-- An action of a pool leaves the threads and the clients alone. -/
structure Sets (s t : Service) : Prop where
  main : t.main = s.main
  listener : t.listener = s.listener
  quiet : s.NoClient t

/-- A successful action on the UDP pool is one on that pool alone, which may set the flag. -/
theorem onUdp_acts {a : Action Datagram} (h : s.onUdp server a = some t) :
    s.UdpActs t a ∧ s.Sets t := by
  obtain ⟨crew, hstep, rfl⟩ := onUdp_eq h
  exact ⟨⟨(Crew.step_pool hstep).1, rfl⟩, rfl, rfl, rfl, rfl⟩

/-- A successful action on the TCP pool is one on that pool alone, which may set the flag. -/
theorem onTcp_acts {a : Action Connection} (h : s.onTcp server a = some t) :
    s.TcpActs t a ∧ s.Sets t := by
  obtain ⟨crew, hstep, rfl⟩ := onTcp_eq h
  exact ⟨⟨(Crew.step_pool hstep).1, rfl⟩, rfl, rfl, rfl, rfl⟩

/-- What an action does to the two threads and to the clients. It moves the thread of its actor at
most, but for the action that spawns the TCP listener. -/
inductive Moves (s : Service) : Actor → Service → Prop
  | receives {datagram : Datagram} (main : s.main = .receiving) :
      Moves s .main ({ s with received := s.received ++ [datagram] }.goto (.received datagram))
  | submitsUdp {datagram : Datagram} {t : Service} (main : s.main = .submitting datagram)
      (acts : s.UdpActs t (.submit datagram)) (sets : s.Sets t) : Moves s .main (t.goto .looking)
  | arrives {arrival : Arrival} (listener : s.listener = .accepting) :
      Moves s .listener ({ s with arrived := s.arrived ++ [arrival] }.listen (.accepted arrival))
  | submitsTcp {arrival : Arrival} {now : Nat} {t : Service}
      (listener : s.listener = .submitting arrival)
      (acts : s.TcpActs t (.submit ⟨arrival.stream, ⟨now + clientFrameTimeout⟩,
        arrival.setNonblocking⟩)) (sets : s.Sets t) : Moves s .listener (t.listen .looking)
  | spawns (main : s.main = .spawning) :
      Moves s .main (((s.listen .looking).notify .listening).goto .looking)
  | main {s' : Service} (moves : s.main.Moves s s' s'.main) (listener : s'.listener = s.listener)
      (quiet : s.NoClient s') : Moves s .main s'
  | listener {s' : Service} (moves : s.listener.Moves s s' s'.listener) (main : s'.main = s.main)
      (quiet : s.NoClient s') : Moves s .listener s'
  | udp {a : Action Datagram} {t : Service} (foreign : a.Foreign) (acts : s.UdpActs t a)
      (sets : s.Sets t) : Moves s .foreign t
  | tcp {a : Action Connection} {t : Service} (foreign : a.Foreign) (acts : s.TcpActs t a)
      (sets : s.Sets t) : Moves s .foreign t

/-- Where the main thread goes next is not part of what it did on the UDP pool. -/
theorem UdpActs.goto {a : Action Datagram} (h : s.UdpActs t a) (main : Main) :
    s.UdpActs (t.goto main) a := ⟨h.step, h.tcp⟩

/-- Where the main thread goes next is not part of what it did on the TCP pool. -/
theorem TcpActs.goto {a : Action Connection} (h : s.TcpActs t a) (main : Main) :
    s.TcpActs (t.goto main) a := ⟨h.step, h.udp⟩

/-- Where the listener goes next is not part of what it did on the TCP pool. -/
theorem TcpActs.listen {a : Action Connection} (h : s.TcpActs t a) (listener : Listener) :
    s.TcpActs (t.listen listener) a := ⟨h.step, h.udp⟩

/-- A pool acts, and the main thread goes on. -/
theorem Moves.goto {main : Main} (sets : s.Sets t)
    (moves : s.main.Moves s (t.goto main) main) : s.Moves .main (t.goto main) :=
  .main moves sets.listener ⟨sets.quiet.received, sets.quiet.arrived⟩

/-- A pool acts, and the listener goes on. -/
theorem Moves.listen {listener : Listener} (sets : s.Sets t)
    (moves : s.listener.Moves s (t.listen listener) listener) :
    s.Moves .listener (t.listen listener) :=
  .listener moves sets.main ⟨sets.quiet.received, sets.quiet.arrived⟩

/-- The case split over the two threads: every action is one of the moves. -/
theorem Acts.moves (h : Acts server s actor s') : s.Moves actor s' := by
  cases h with
  -- What takes in a client, hands on a job or spawns the listener keeps a case of its own. The rest
  -- is a move of one thread.
  | receives main => exact .receives main
  | submitsUdp main acts =>
    obtain ⟨acts, sets⟩ := onUdp_acts acts
    exact .submitsUdp main acts sets
  | arrives listener => exact .arrives listener
  | submitsTcp listener acts =>
    obtain ⟨acts, sets⟩ := onTcp_acts acts
    exact .submitsTcp listener acts sets
  | spawns main => exact .spawns main
  -- No pool acts.
  | mainGoes goes => exact .main (.goes goes ⟨rfl, rfl⟩) rfl ⟨rfl, rfl⟩
  | completes main sent =>
    refine .main ?_ rfl ⟨rfl, rfl⟩
    rw [main]
    exact .completes sent ⟨rfl, rfl⟩
  | joins main listener =>
    refine .main ?_ rfl ⟨rfl, rfl⟩
    rw [main]
    exact .joins listener ⟨rfl, rfl⟩
  -- A pool acts, and its thread goes on.
  | opensUdp main acts =>
    obtain ⟨acts, sets⟩ := onUdp_acts acts
    exact .goto sets (main ▸ .opensUdp (acts.goto _))
  | abortsUdp main acts =>
    obtain ⟨acts, sets⟩ := onUdp_acts acts
    exact .goto sets (main ▸ .abortsUdp (acts.goto _))
  | opensTcp main acts =>
    obtain ⟨acts, sets⟩ := onTcp_acts acts
    exact .goto sets (main ▸ .opensTcp (acts.goto _))
  | dropsTcp main acts =>
    obtain ⟨acts, sets⟩ := onTcp_acts acts
    exact .goto sets (.dropsTcp main (acts.goto _))
  | leavesTcp main acts =>
    obtain ⟨acts, sets⟩ := onTcp_acts acts
    exact .goto sets (main ▸ .leavesTcp (acts.goto _))
  | raises main acts =>
    obtain ⟨acts, sets⟩ := onUdp_acts acts
    refine .main ?_ sets.listener ⟨sets.quiet.received, sets.quiet.arrived⟩
    rw [main]
    exact .raises ⟨acts.step, acts.tcp⟩
  | wakes main acts =>
    obtain ⟨acts, sets⟩ := onUdp_acts acts
    exact .goto sets (main ▸ .wakes (acts.goto _))
  | closesUdp main acts =>
    obtain ⟨acts, sets⟩ := onUdp_acts acts
    exact .goto sets (main ▸ .closesUdp (acts.goto _))
  | leaves main acts =>
    obtain ⟨acts, sets⟩ := onUdp_acts acts
    exact .goto sets (main ▸ .leaves (acts.goto _))
  | dropsUdp main acts =>
    obtain ⟨acts, sets⟩ := onUdp_acts acts
    exact .goto sets (main ▸ .dropsUdp (acts.goto _))
  | listenerGoes goes => exact .listener (.goes goes ⟨rfl, rfl⟩) rfl ⟨rfl, rfl⟩
  | listenerRaises listener acts =>
    obtain ⟨acts, sets⟩ := onTcp_acts acts
    exact .listen sets (listener ▸ .raises (acts.listen _))
  | listenerStops listener acts =>
    obtain ⟨acts, sets⟩ := onTcp_acts acts
    exact .listen sets (listener ▸ .stops (acts.listen _))
  | closesTcp listener acts =>
    obtain ⟨acts, sets⟩ := onTcp_acts acts
    exact .listen sets (listener ▸ .closes (acts.listen _))
  | sends listener acts =>
    obtain ⟨acts, sets⟩ := onTcp_acts acts
    refine .listener ?_ sets.main ⟨sets.quiet.received, sets.quiet.arrived⟩
    rw [listener]
    exact .sends ⟨acts.step, acts.udp⟩
  | drops listener acts =>
    obtain ⟨acts, sets⟩ := onTcp_acts acts
    exact .listen sets (listener ▸ .drops (acts.listen _))
  | panics accepts acts =>
    obtain ⟨acts, sets⟩ := onTcp_acts acts
    exact .listen sets (.panics accepts (acts.listen _))
  | udp foreign acts =>
    obtain ⟨acts, sets⟩ := onUdp_acts acts
    exact .udp foreign acts sets
  | tcp foreign acts =>
    obtain ⟨acts, sets⟩ := onTcp_acts acts
    exact .tcp foreign acts sets

/-! ### The two pools -/

/-- An action is an action of one pool at most. -/
inductive Touches (server : Server) (s s' : Service) : Prop
  | neither (udp : s'.udp = s.udp) (tcp : s'.tcp = s.tcp)
  | udp {a : Action Datagram} {t : Service} (acts : s.onUdp server a = some t)
      (udp : s'.udp = t.udp) (tcp : s'.tcp = t.tcp)
  | tcp {a : Action Connection} {t : Service} (acts : s.onTcp server a = some t)
      (udp : s'.udp = t.udp) (tcp : s'.tcp = t.tcp)

/-- Every step touches at most one of the two pools. -/
theorem Acts.touches (h : Acts server s actor s') : Touches server s s' := by
  cases h with
  | mainGoes | spawns | receives | completes | joins | listenerGoes | arrives =>
    exact .neither rfl rfl
  | opensUdp main acts | abortsUdp main acts | submitsUdp main acts | raises main acts
  | wakes main acts | closesUdp main acts | leaves main acts | dropsUdp main acts
  | udp foreign acts => exact .udp acts rfl rfl
  | opensTcp main acts | dropsTcp main acts | leavesTcp main acts | submitsTcp main acts
  | listenerRaises main acts | listenerStops main acts | closesTcp main acts | sends main acts
  | drops main acts | panics main acts | tcp foreign acts => exact .tcp acts rfl rfl

/-- Both pools see the same stop flag. -/
def Synced (s : Service) : Prop := s.tcp.pool.stop = s.udp.pool.stop

/-- The two pools keep one flag. -/
theorem Touches.synced (h : Touches server s s') (hs : s.Synced) : s'.Synced := by
  unfold Synced
  cases h with
  | neither udp tcp =>
    rw [udp, tcp]
    exact hs
  | udp acts udp tcp =>
    obtain ⟨crew, -, rfl⟩ := onUdp_eq acts
    rw [udp, tcp]
    rfl
  | tcp acts udp tcp =>
    obtain ⟨crew, -, rfl⟩ := onTcp_eq acts
    rw [udp, tcp]
    rfl

end Service

namespace Crew

variable {W Job : Type} {worker : Worker W Job} {initial : Nat → W} {s s' : Crew W Job}

/-- Nobody lowers the stop flag. -/
theorem step_stop {a : Action Job} (h : s.step worker initial a = some s')
    (hstop : s.pool.stop = true) : s'.pool.stop = true :=
  (Pool.step_acts (step_pool h).1).stop_raised hstop

/-- For the other crew a raised flag is an action of the surroundings. -/
theorem setStop_reaches {stop : Bool} (h : s.pool.stop = true → stop = true) :
    Reaches (Crew.step worker initial) (· = s) (s.setStop stop) := by
  cases hstop : s.pool.stop with
  | true =>
    have hsame : s.setStop stop = s := by
      unfold setStop
      rw [h hstop, ← hstop]
    rw [hsame]
    exact .start rfl
  | false =>
    cases stop with
    | false =>
      have hsame : s.setStop false = s := by
        unfold setStop
        rw [← hstop]
      rw [hsame]
      exact .start rfl
    | true =>
      have hstep : s.step worker initial .requestStop = some (s.setStop true) := rfl
      exact .one hstep

end Crew

namespace Service

variable {server : Server} {s s' : Service} {stop : Bool}

/-- In every reachable state the two pools have one flag. -/
theorem reaches_synced (h : Reaches (Service.step server) (· = start stop) s) : s.Synced := by
  refine h.invariant ?_ fun s a s' hs hstep => (step_acts hstep).touches.synced hs
  intro s hs
  subst hs
  rfl

/-- What an action of the service is for the crew for UDP. -/
theorem Touches.udp_reaches (h : Touches server s s') (hs : s.Synced) :
    Reaches (Crew.step (udpWorker server.routing) server.createUdp) (· = s.udp) s'.udp := by
  cases h with
  | neither udp tcp =>
    rw [udp]
    exact .start rfl
  | udp acts udp tcp =>
    obtain ⟨crew, hstep, rfl⟩ := onUdp_eq acts
    rw [udp]
    exact .one hstep
  | tcp acts udp tcp =>
    obtain ⟨crew, hstep, rfl⟩ := onTcp_eq acts
    rw [udp]
    exact Crew.setStop_reaches fun hstop => Crew.step_stop hstep (hs.trans hstop)

/-- One step of the service takes the TCP pool through its own steps, those of the environment
included. -/
theorem Touches.tcp_reaches (h : Touches server s s') (hs : s.Synced) :
    Reaches (Crew.step (tcpWorker server.routing) server.createTcp) (· = s.tcp) s'.tcp := by
  cases h with
  | neither udp tcp =>
    rw [tcp]
    exact .start rfl
  | udp acts udp tcp =>
    obtain ⟨crew, hstep, rfl⟩ := onUdp_eq acts
    rw [tcp]
    exact Crew.setStop_reaches fun hstop => Crew.step_stop hstep (hs.symm.trans hstop)
  | tcp acts udp tcp =>
    obtain ⟨crew, hstep, rfl⟩ := onTcp_eq acts
    rw [tcp]
    exact .one hstep

/-- In a run of the service, the crew for UDP is in a state of a run of its own. -/
theorem reaches_udp (h : Reaches (Service.step server) (· = start stop) s) :
    Reaches (Crew.step (udpWorker server.routing) server.createUdp)
      (· = .start udpWorkers udpQueue stop) s.udp := by
  refine h.refines Service.udp ?_ fun s a s' before hstep =>
    (step_acts hstep).touches.udp_reaches (reaches_synced before)
  intro s hs
  subst hs
  exact .start rfl

/-- The TCP pool of a reachable state is reachable from its own start. -/
theorem reaches_tcp (h : Reaches (Service.step server) (· = start stop) s) :
    Reaches (Crew.step (tcpWorker server.routing) server.createTcp)
      (· = .start tcpWorkers tcpQueue stop) s.tcp := by
  refine h.refines Service.tcp ?_ fun s a s' before hstep =>
    (step_acts hstep).touches.tcp_reaches (reaches_synced before)
  intro s hs
  subst hs
  exact .start rfl

/-- The stop flag stays up. -/
theorem Touches.stop_raised (h : Touches server s s') (hs : s.Synced) (hstop : s.stop = true) :
    s'.stop = true := by
  cases h with
  | neither udp tcp =>
    show s'.udp.pool.stop = true
    rw [udp]
    exact hstop
  | udp acts udp tcp =>
    obtain ⟨crew, hstep, rfl⟩ := onUdp_eq acts
    show s'.udp.pool.stop = true
    rw [udp]
    exact Crew.step_stop hstep hstop
  | tcp acts udp tcp =>
    obtain ⟨crew, hstep, rfl⟩ := onTcp_eq acts
    show s'.udp.pool.stop = true
    rw [udp]
    show crew.pool.stop = true
    exact Crew.step_stop hstep (hs.trans hstop)

end Service

end Sederial
