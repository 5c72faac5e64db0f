import Sederial.Proofs.ServiceSteps

/-!
# `Sederial.Proofs.ServicePhases`: where the threads are with their pools

The owner of a pool has a program counter of its own (`Pool.owner`), and the thread that owns it has
another one (`Service.main`, `Service.listener`). `Placed` says which pairs occur: a listener that
serves clients has a pool that serves, one that shuts its pool down has a pool in `shutdown`, and
so on. Until the thread `tcp-listener` is spawned, the main thread owns both pools.

So the calls of a method on a pool always find the pool ready for them, and the partial steps of
the model are no restriction of the code.
-/

set_option autoImplicit false

namespace Sederial

open Sederial.Lib

/-- In the loop of `Pool::new`. -/
inductive Owner.Building : Owner → Prop
  | creating (left : Nat) : Building (.creating left)
  | spawning (left : Nat) : Building (.spawning left)

/-- In `Drop for Pool`. -/
inductive Owner.Dropping : Owner → Prop
  | closing : Dropping (.closing .drop)
  | locking : Dropping (.locking .drop)
  | detaching : Dropping .detaching

/-- In the `shutdown` of `Pool::new`, or in the drop of the pool behind it. -/
inductive Owner.Aborting : Owner → Prop
  | shuts {owner : Owner} (shuts : Pool.Shuts .abort owner) : Aborting owner
  | drops {owner : Owner} (drops : owner.Dropping) : Aborting owner

namespace Pool

variable {Job : Type} {s s' : Pool Job} {event : OwnerEvent}

/-- What the next action of the owner does, by the phase it is in. -/
theorem step_proceed (h : s.step .proceed = some s') :
    (∃ call, s.owner = .closing call ∧ s' = { s with stop := true, owner := .locking call }) ∨
      (∃ call, s.owner = .locking call ∧ s' = s.closeQueue call) ∨
      (∃ call, s.owner = .collecting call ∧ s.collect call = some s') ∨
      (∃ call, s.owner = .joining call ∧ s.join call = some s') ∨
      s.owner = .detaching ∧ s' = { s with workers := [], owner := .gone } := by
  dsimp only [step] at h
  split at h
  · rename_i call howner
    cases h
    exact .inl ⟨call, howner, rfl⟩
  · rename_i call howner
    cases h
    exact .inr (.inl ⟨call, howner, rfl⟩)
  · rename_i call howner
    exact .inr (.inr (.inl ⟨call, howner, h⟩))
  · rename_i call howner
    exact .inr (.inr (.inr (.inl ⟨call, howner, h⟩)))
  · rename_i howner
    cases h
    exact .inr (.inr (.inr (.inr ⟨howner, rfl⟩)))
  · cases h

/-- `close_queue` leads the owner on, also when the lock is poisoned. -/
theorem closeQueue_owner (call : Call) (s : Pool Job) :
    (s.closeQueue call).owner = call.closed := by
  unfold closeQueue
  split <;> rfl

/-- The owner goes on receiving, or has heard of every worker. -/
theorem collect_owner {call : Call} (howner : s.owner = .collecting call)
    (h : s.collect call = some s') : s'.owner = .collecting call ∨ s'.owner = .joining call := by
  unfold collect at h
  split at h
  · cases h
    exact .inr rfl
  · split at h <;> cases h
    exact .inl howner

/-- `worker.join()` returned, or the whole `shutdown`. -/
theorem join_cases {call : Call} (howner : s.owner = .joining call) (h : s.join call = some s') :
    (s.workers ≠ [] ∧ s'.owner = .joining call) ∨
      (s.workers = [] ∧
        s' = s.conclude call (if s.failed then .error .workerTerminated else .ok ())) := by
  unfold join at h
  split at h
  · rename_i worker rest hworkers
    split at h <;> cases h
    exact .inl ⟨by rw [hworkers]; exact nofun, howner⟩
  · rename_i hworkers
    cases h
    exact .inr ⟨hworkers, rfl⟩

/-- `recv_timeout` gives up while the owner receives. -/
theorem step_expire (h : s.step .expire = some s') :
    ∃ call, s.owner = .collecting call ∧ s' = s.conclude call (.error .shutdownIncomplete) := by
  dsimp only [step] at h
  split at h
  · rename_i call howner
    split at h <;> cases h
    exact ⟨call, howner, rfl⟩
  · cases h

/-- One turn of the loop of `Pool::new`. -/
theorem Building.step (howner : s.owner.Building) (h : s.step event.action = some s') :
    (event.failure = none ∧ (s'.owner.Building ∨ s'.owner = .serving)) ∨
      ∃ error, event.failure = some error ∧ s'.owner = .closing .abort := by
  -- Behind the last worker the pool serves.
  have hnext : ∀ left, (Owner.next left).Building ∨ Owner.next left = .serving := by
    intro left
    cases left with
    | zero => exact .inr rfl
    | succ left => exact .inl (.creating left)
  cases event with
  | create failure =>
    dsimp only [OwnerEvent.action, Pool.step] at h
    split at h
    · rename_i left _
      cases failure with
      | none =>
        cases h
        exact .inl ⟨rfl, .inl (.spawning left)⟩
      | some error =>
        cases h
        exact .inr ⟨error, rfl, rfl⟩
    · cases h
  | spawn failure =>
    dsimp only [OwnerEvent.action, Pool.step] at h
    split at h
    · rename_i left _
      cases failure with
      | none =>
        cases h
        exact .inl ⟨rfl, hnext left⟩
      | some error =>
        cases h
        exact .inr ⟨error, rfl, rfl⟩
    · cases h
  | proceed =>
    rcases step_proceed h with ⟨call, heq, -⟩ | ⟨call, heq, -⟩ | ⟨call, heq, -⟩ | ⟨call, heq, -⟩ |
      ⟨heq, -⟩ <;> rw [heq] at howner <;> cases howner
  | expire =>
    obtain ⟨call, heq, -⟩ := step_expire h
    rw [heq] at howner
    cases howner

/-- The owner is not in the loop of `Pool::new`, so its next action is one of these two. -/
theorem step_owner (howner : ¬ s.owner.Building) (h : s.step event.action = some s') :
    event = .proceed ∨ event = .expire := by
  cases event with
  | create failure =>
    dsimp only [OwnerEvent.action, Pool.step] at h
    split at h
    · rename_i left heq
      exact (howner (heq ▸ .creating left)).elim
    · cases h
  | spawn failure =>
    dsimp only [OwnerEvent.action, Pool.step] at h
    split at h
    · rename_i left heq
      exact (howner (heq ▸ .spawning left)).elim
    · cases h
  | proceed => exact .inl rfl
  | expire => exact .inr rfl

/-- An owner in `shutdown` is not in the loop of `Pool::new`. -/
theorem Shuts.not_building {call : Call} {owner : Owner} (h : Shuts call owner) :
    ¬ owner.Building := by
  intro hbuilding
  cases h <;> cases hbuilding

/-- The phase of an owner in `shutdown` tells which call it is in. -/
theorem Shuts.call_eq {call call' : Call} {owner : Owner} (h : Shuts call owner)
    (howner : owner = .closing call' ∨ owner = .locking call' ∨ owner = .collecting call' ∨
      owner = .joining call') : call' = call := by
  rcases howner with rfl | rfl | rfl | rfl <;> cases h <;> rfl

/-- `shutdown` does not return yet. -/
theorem shutdownResult_eq_none (h : ∀ call, s.owner = .joining call → s.workers ≠ []) :
    s.shutdownResult .proceed = none := by
  dsimp only [shutdownResult]
  split
  · rename_i call howner hworkers
    exact (h call howner hworkers).elim
  · rfl

/-- `shutdown` returns when the last worker is joined. -/
theorem shutdownResult_joined {call : Call} (howner : s.owner = .joining call)
    (hworkers : s.workers = []) :
    s.shutdownResult .proceed = some (if s.failed then .error .workerTerminated else .ok ()) := by
  dsimp only [shutdownResult]
  rw [howner, hworkers]

/-- `shutdown` goes on or returns. -/
theorem Shuts.step {call : Call} (howner : Shuts call s.owner)
    (hcall : call.closed = .collecting call) (h : s.step event.action = some s') :
    (s.shutdownResult event = none ∧ Shuts call s'.owner) ∨
      ∃ result, s.shutdownResult event = some result ∧ s' = s.conclude call result := by
  rcases step_owner howner.not_building h with rfl | rfl
  · rcases step_proceed h with ⟨call', heq, rfl⟩ | ⟨call', heq, rfl⟩ | ⟨call', heq, hs⟩ |
      ⟨call', heq, hs⟩ | ⟨heq, -⟩
    -- The owner is still in the call, so nothing is returned yet.
    · cases howner.call_eq (.inl heq)
      refine .inl ⟨shutdownResult_eq_none fun _ hjoining => ?_, .locking⟩
      exact nomatch heq.symm.trans hjoining
    · cases howner.call_eq (.inr (.inl heq))
      refine .inl ⟨shutdownResult_eq_none fun _ hjoining => ?_, ?_⟩
      · exact nomatch heq.symm.trans hjoining
      · rw [closeQueue_owner, hcall]
        exact .collecting
    · cases howner.call_eq (.inr (.inr (.inl heq)))
      refine .inl ⟨shutdownResult_eq_none fun _ hjoining => ?_, ?_⟩
      · exact nomatch heq.symm.trans hjoining
      · rcases collect_owner heq hs with hsame | hnext
        · rw [hsame]
          exact .collecting
        · rw [hnext]
          exact .joining
    · cases howner.call_eq (.inr (.inr (.inr heq)))
      -- The last handle is joined, and `shutdown` returns.
      rcases join_cases heq hs with ⟨hworkers, hsame⟩ | ⟨hworkers, rfl⟩
      · refine .inl ⟨shutdownResult_eq_none fun _ _ => hworkers, ?_⟩
        rw [hsame]
        exact .joining
      · exact .inr ⟨_, shutdownResult_joined heq hworkers, rfl⟩
    · rw [heq] at howner
      cases howner
  -- `recv_timeout` gives up, which returns an error.
  · obtain ⟨call', heq, rfl⟩ := step_expire h
    cases howner.call_eq (.inr (.inr (.inl heq)))
    exact .inr ⟨_, rfl, rfl⟩

/-- An owner that drops the pool is not in the loop of `Pool::new`. -/
theorem Owner.Dropping.not_building {owner : Owner} (h : owner.Dropping) : ¬ owner.Building := by
  intro hbuilding
  cases h <;> cases hbuilding

/-- The pool is being dropped, or that is over. -/
theorem Dropping.step (howner : s.owner.Dropping) (h : s.step event.action = some s') :
    s'.owner.Dropping ∨ s'.owner = .gone := by
  rcases step_owner (Owner.Dropping.not_building howner) h with rfl | rfl
  · rcases step_proceed h with ⟨call, heq, rfl⟩ | ⟨call, heq, rfl⟩ | ⟨call, heq, -⟩ |
      ⟨call, heq, -⟩ | ⟨-, rfl⟩
    · rw [heq] at howner
      cases howner
      exact .inl .locking
    · rw [heq] at howner
      cases howner
      rw [closeQueue_owner]
      exact .inl .detaching
    · rw [heq] at howner
      cases howner
    · rw [heq] at howner
      cases howner
    · exact .inr rfl
  · obtain ⟨call, heq, -⟩ := step_expire h
    rw [heq] at howner
    cases howner

/-- The pool whose start failed is shut down and dropped, or that is over. -/
theorem Aborting.step (howner : s.owner.Aborting) (h : s.step event.action = some s') :
    s'.owner.Aborting ∨ s'.owner = .gone := by
  cases howner with
  | shuts hshuts =>
    rcases hshuts.step rfl h with ⟨-, hnext⟩ | ⟨result, -, rfl⟩
    · exact .inl (.shuts hnext)
    · -- `Pool::new` returns its error and drops the pool.
      exact .inl (.drops .closing)
  | drops hdrops => exact (Dropping.step hdrops h).imp_left .drops

/-- The surroundings and the workers leave the owner where it is. -/
theorem Foreign.owner {a : Action Job} (ha : a.Foreign) (h : s.step a = some s') :
    s'.owner = s.owner := by
  cases ha with
  | worker index move =>
    dsimp only [Pool.step] at h
    split at h
    · exact (workerStep_works h).frame.2.2.1
    · cases h
  | requestStop | poison =>
    cases h
    rfl

/-- `submit` is called on a pool that serves, and leaves it so. -/
theorem submit_owner {job : Job} (h : s.step (.submit job) = some s') :
    s.owner = .serving ∧ s'.owner = .serving := by
  dsimp only [step] at h
  split at h
  · rename_i howner
    cases h
    refine ⟨howner, ?_⟩
    unfold submit
    dsimp only
    split
    · exact howner
    · split <;> exact howner
  · cases h

/-- `shutdown` is called on a pool that serves. -/
theorem shutdown_owner (h : s.step .shutdown = some s') :
    s.owner = .serving ∧ s'.owner = .closing .shutdown := by
  dsimp only [step] at h
  split at h
  · rename_i howner
    cases h
    exact ⟨howner, rfl⟩
  · cases h

/-- `drop` is called on a pool that serves. -/
theorem drop_owner (h : s.step .drop = some s') :
    s.owner = .serving ∧ s'.owner = .closing .drop := by
  dsimp only [step] at h
  split at h
  · rename_i howner
    cases h
    exact ⟨howner, rfl⟩
  · cases h

end Pool

/-! ### The phases of the service -/

/-- Where the main thread is with the pool for UDP. -/
def Main.UdpOwner (owner : Owner) : Main → Prop
  | .openingUdp => owner.Building
  | .abortingUdp _ => owner.Aborting
  | .closingUdp _ _ => Pool.Shuts .shutdown owner
  | .droppingUdp _ => owner.Dropping
  | .returned _ => owner = .gone
  | _ => owner = .serving

/-- Where the main thread is with the pool for TCP, before the thread `tcp-listener` is spawned. -/
def Main.TcpOwner (owner : Owner) : Main → Prop
  | .openingUdp | .abortingUdp _ | .openingTcp => owner.Building
  | .addressing | .spawning => owner = .serving
  | .leavingTcp _ => owner.Aborting
  | .leaving _ | .droppingUdp _ => owner = .gone
  | .returned _ => owner = .gone ∨ owner.Building
  | _ => False

/-- The main thread has spawned the thread `tcp-listener`. -/
def Main.Started : Main → Prop
  | .openingUdp | .abortingUdp _ | .openingTcp | .addressing | .spawning | .leavingTcp _ => False
  | _ => True

/-- Where the thread `tcp-listener` is with the pool for TCP. -/
def Listener.TcpOwner (main : Main) (owner : Owner) : Listener → Prop
  | .absent => main.TcpOwner owner
  | .closing _ => main.Started ∧ Pool.Shuts .shutdown owner
  | .dropping _ | .unwinding => main.Started ∧ owner.Dropping
  | .ended _ => main.Started ∧ owner = .gone
  | _ => main.Started ∧ owner = .serving

/-- The main thread goes on, and the pool for TCP stays where it is. -/
theorem Listener.TcpOwner.mono {listener : Listener} {main main' : Main} {owner : Owner}
    (h : listener.TcpOwner main owner) (hstarted : main.Started → main'.Started)
    (habsent : main.TcpOwner owner → main'.TcpOwner owner) : listener.TcpOwner main' owner := by
  cases listener with
  | absent => exact habsent h
  | _ => exact h.imp_left hstarted

/-- Until it spawns the TCP listener the main thread is alone. -/
theorem Listener.TcpOwner.absent {listener : Listener} {main : Main} {owner : Owner}
    (h : listener.TcpOwner main owner) (hmain : ¬ main.Started) : listener = .absent := by
  cases listener with
  | absent => rfl
  | _ => exact (hmain h.1).elim

/-- A move that touches nothing but the program counter keeps the main thread with its pool. -/
theorem Main.Goes.udpOwner {main main' : Main} {stop hungUp : Bool} {owner : Owner}
    (h : main.Goes stop hungUp main') (howner : main.UdpOwner owner) : main'.UdpOwner owner := by
  cases h <;> exact howner

/-- So it does for the pool for TCP. -/
theorem Main.Goes.tcpOwner {main main' : Main} {stop hungUp : Bool} {owner : Owner}
    {listener : Listener} (h : main.Goes stop hungUp main')
    (howner : listener.TcpOwner main owner) : listener.TcpOwner main' owner := by
  cases h with
  | addressed => exact howner.mono id id
  | _ => exact howner.mono (fun _ => trivial) fun h => h.elim

/-- So it does for the listener. -/
theorem Listener.Goes.tcpOwner {listener listener' : Listener} {stop : Bool} {main : Main}
    {owner : Owner} (h : listener.Goes stop listener') (howner : listener.TcpOwner main owner) :
    listener'.TcpOwner main owner := by
  cases h <;> exact howner

/-- A listener in `accept_tcp` has a pool that serves. -/
theorem Listener.InAccept.tcpOwner {listener : Listener} {main : Main} {owner : Owner}
    (h : listener.InAccept) (howner : listener.TcpOwner main owner) :
    main.Started ∧ owner = .serving := by
  cases h <;> exact howner

/-- A listener that drops its pool, with or without a result. -/
theorem Listener.drops_tcpOwner {result : Option Outcome} {main : Main} {owner : Owner} :
    (drops result).TcpOwner main owner ↔ main.Started ∧ owner.Dropping := by
  cases result <;> exact Iff.rfl

/-! ### One move -/

section

variable {event : OwnerEvent} {udp udp' : Pool Datagram} {tcp tcp' : Pool Connection}

/-- One turn of `Pool::new` for UDP. -/
theorem Main.openedUdp_udpOwner (howner : udp.owner.Building)
    (h : udp.step event.action = some udp') :
    (openedUdp event.failure udp'.owner).UdpOwner udp'.owner := by
  unfold openedUdp
  rcases Pool.Building.step howner h with ⟨hnone, hbuilding | hserving⟩ | ⟨error, hsome, hclosing⟩
  · rw [hnone]
    dsimp only
    split
    · rename_i hserving
      exact hserving
    · exact hbuilding
  · rw [hnone]
    dsimp only
    rw [if_pos hserving]
    exact hserving
  · rw [hsome, hclosing]
    exact .shuts .closing

/-- One turn of `Pool::new` for TCP. -/
theorem Main.openedTcp_tcpOwner (howner : tcp.owner.Building)
    (h : tcp.step event.action = some tcp') :
    (openedTcp event.failure tcp'.owner).TcpOwner tcp'.owner := by
  unfold openedTcp
  rcases Pool.Building.step howner h with ⟨hnone, hbuilding | hserving⟩ | ⟨error, hsome, hclosing⟩
  · rw [hnone]
    dsimp only
    split
    · rename_i hserving
      exact hserving
    · exact hbuilding
  · rw [hnone]
    dsimp only
    rw [if_pos hserving]
    exact hserving
  · rw [hsome, hclosing]
    exact .shuts .closing

/-- One action of the pool for UDP whose start failed. -/
theorem Main.abortedUdp_udpOwner (error : IoError) (howner : udp.owner.Aborting)
    (h : udp.step event.action = some udp') :
    (abortedUdp error udp'.owner).UdpOwner udp'.owner := by
  unfold abortedUdp
  rcases Pool.Aborting.step howner h with haborting | hgone
  · split
    · rename_i hgone
      exact hgone
    · exact haborting
  · rw [if_pos hgone]
    exact hgone

/-- One action of the pool for TCP whose start failed. -/
theorem Main.leftTcp_tcpOwner (error : IoError) (howner : tcp.owner.Aborting)
    (h : tcp.step event.action = some tcp') : (leftTcp error tcp'.owner).TcpOwner tcp'.owner := by
  unfold leftTcp
  rcases Pool.Aborting.step howner h with haborting | hgone
  · split
    · rename_i hgone
      exact hgone
    · exact haborting
  · rw [if_pos hgone]
    exact hgone

/-- One action of the drop of the pool for UDP. -/
theorem Main.droppedUdp_udpOwner (result : Outcome) (howner : udp.owner.Dropping)
    (h : udp.step event.action = some udp') :
    (droppedUdp result udp'.owner).UdpOwner udp'.owner := by
  unfold droppedUdp
  rcases Pool.Dropping.step howner h with hdropping | hgone
  · split
    · rename_i hgone
      exact hgone
    · exact hdropping
  · rw [if_pos hgone]
    exact hgone

/-- One action of the drop of the pool for TCP. -/
theorem Listener.dropped_tcpOwner (result : Option Outcome) {main : Main} (hstarted : main.Started)
    (howner : tcp.owner.Dropping) (h : tcp.step event.action = some tcp') :
    (dropped result tcp'.owner).TcpOwner main tcp'.owner := by
  unfold dropped
  rcases Pool.Dropping.step howner h with hdropping | hgone
  · split
    · rename_i hgone
      exact ⟨hstarted, hgone⟩
    · split <;> exact ⟨hstarted, hdropping⟩
  · rw [if_pos hgone]
    exact ⟨hstarted, hgone⟩

end

section

variable {s s' : Service} {main main' : Main} {listener listener' : Listener}

/-- The main thread and its pool for UDP stay together. -/
theorem Main.Moves.udpOwner (h : main.Moves s s' main')
    (howner : main.UdpOwner s.udp.pool.owner) : main'.UdpOwner s'.udp.pool.owner := by
  cases h with
  | goes goes still =>
    rw [still.udp]
    exact goes.udpOwner howner
  | completes _ still | joins _ still =>
    rw [still.udp]
    exact howner
  | opensUdp acts => exact openedUdp_udpOwner howner acts.step
  | abortsUdp acts => exact abortedUdp_udpOwner _ howner acts.step
  -- What the main thread does with the pool for TCP leaves the one for UDP alone.
  | opensTcp acts =>
    rw [acts.udp]
    unfold openedTcp
    split
    · exact howner
    · split <;> exact howner
  | dropsTcp early acts =>
    rw [acts.udp]
    rcases early with rfl | rfl
    · exact howner
    · exact howner
  | leavesTcp acts =>
    rw [acts.udp]
    unfold leftTcp
    split <;> exact howner
  | raises acts => exact (Pool.Foreign.owner .requestStop acts.step).trans howner
  | wakes acts =>
    show Pool.Shuts .shutdown s'.udp.pool.owner
    rw [(Pool.shutdown_owner acts.step).2]
    exact .closing
  | closesUdp acts =>
    rcases Pool.Shuts.step howner rfl acts.step with ⟨hnone, hshuts⟩ | ⟨workers, hsome, hreturned⟩
    · rw [hnone]
      exact hshuts
    · rw [hsome]
      show s'.udp.pool.owner = .serving
      rw [hreturned]
      rfl
  | leaves acts =>
    show s'.udp.pool.owner.Dropping
    rw [(Pool.drop_owner acts.step).2]
    exact .closing
  | dropsUdp acts => exact droppedUdp_udpOwner _ howner acts.step

/-- The main thread may own the pool for TCP as well. -/
theorem Main.Moves.tcpOwner (h : main.Moves s s' main')
    (howner : listener.TcpOwner main s.tcp.pool.owner) :
    listener.TcpOwner main' s'.tcp.pool.owner := by
  cases h with
  | goes goes still =>
    rw [still.tcp]
    exact goes.tcpOwner howner
  | completes _ still | joins _ still =>
    rw [still.tcp]
    exact howner.mono (fun _ => trivial) fun h => h.elim
  -- Before it spawns the listener, the main thread owns the pool for TCP itself.
  | opensUdp acts =>
    rw [acts.tcp]
    have habsent := howner.absent id
    subst habsent
    show (openedUdp _ _).TcpOwner s.tcp.pool.owner
    unfold openedUdp
    split
    · exact howner
    · split <;> exact howner
  | abortsUdp acts =>
    rw [acts.tcp]
    have habsent := howner.absent id
    subst habsent
    show (abortedUdp _ _).TcpOwner s.tcp.pool.owner
    unfold abortedUdp
    split
    · exact .inr howner
    · exact howner
  | opensTcp acts =>
    have habsent := howner.absent id
    subst habsent
    exact openedTcp_tcpOwner howner acts.step
  | @dropsTcp _ error early acts =>
    have habsent : listener = .absent := howner.absent fun hstarted => by
      rcases early with rfl | rfl <;> exact hstarted
    subst habsent
    show (leavingTcp error).TcpOwner s'.tcp.pool.owner
    rw [(Pool.drop_owner acts.step).2]
    exact .drops .closing
  | leavesTcp acts =>
    have habsent := howner.absent id
    subst habsent
    exact leftTcp_tcpOwner _ howner acts.step
  -- From here on the listener owns the pool for TCP, and the main thread does not touch it.
  | raises acts | wakes acts =>
    rw [acts.tcp]
    exact howner.mono (fun _ => trivial) fun h => h.elim
  | closesUdp acts =>
    rw [acts.tcp]
    unfold closedUdp
    split <;> exact howner.mono (fun _ => trivial) fun h => h.elim
  | leaves acts =>
    rw [acts.tcp]
    exact howner.mono (fun _ => trivial) id
  | dropsUdp acts =>
    rw [acts.tcp]
    unfold droppedUdp
    split
    · exact howner.mono (fun _ => trivial) .inl
    · exact howner

/-- The listener and its pool stay together. -/
theorem Listener.Moves.tcpOwner (h : listener.Moves s s' listener')
    (howner : listener.TcpOwner main s.tcp.pool.owner) :
    listener'.TcpOwner main s'.tcp.pool.owner := by
  cases h with
  | goes goes still =>
    rw [still.tcp]
    exact goes.tcpOwner howner
  | raises acts => exact ⟨howner.1, (Pool.Foreign.owner .requestStop acts.step).trans howner.2⟩
  | stops acts =>
    refine ⟨howner.1, ?_⟩
    rw [(Pool.shutdown_owner acts.step).2]
    exact .closing
  | closes acts =>
    rcases Pool.Shuts.step howner.2 rfl acts.step with ⟨hnone, hshuts⟩ | ⟨workers, hsome, hreturned⟩
    · rw [hnone]
      exact ⟨howner.1, hshuts⟩
    · rw [hsome]
      refine ⟨howner.1, ?_⟩
      rw [hreturned]
      rfl
  | sends acts =>
    refine ⟨howner.1, ?_⟩
    rw [(Pool.drop_owner acts.step).2]
    exact .closing
  | drops acts =>
    rw [drops_tcpOwner] at howner
    exact dropped_tcpOwner _ howner.1 howner.2 acts.step
  | panics accepts acts =>
    refine ⟨(accepts.tcpOwner howner).1, ?_⟩
    rw [(Pool.drop_owner acts.step).2]
    exact .closing

/-- The listener does not touch the pool for UDP. -/
theorem Listener.Moves.udp_owner (h : listener.Moves s s' listener') :
    s'.udp.pool.owner = s.udp.pool.owner := by
  cases h with
  | goes _ still => rw [still.udp]
  | raises acts | stops acts | closes acts | sends acts | drops acts | panics _ acts =>
    rw [acts.udp]

end

namespace Service

/-- Every thread is where its pool is. -/
structure Placed (s : Service) : Prop where
  udp : s.main.UdpOwner s.udp.pool.owner
  tcp : s.listener.TcpOwner s.main s.tcp.pool.owner

variable {server : Server} {s s' : Service} {actor : Actor}

/-- The TCP listener does not exist before it is spawned. -/
theorem Placed.absent (hs : s.Placed) (main : s.main = .spawning) : s.listener = .absent :=
  hs.tcp.absent fun hstarted => by
    rw [main] at hstarted
    exact hstarted

/-- Every move keeps both threads with their pools. -/
theorem Moves.placed (h : s.Moves actor s') (hs : s.Placed) : s'.Placed := by
  obtain ⟨hudp, htcp⟩ := hs
  cases h with
  | receives main =>
    rw [main] at hudp htcp
    exact ⟨hudp, htcp.mono (fun _ => trivial) fun h => h.elim⟩
  | @submitsUdp datagram t main acts sets =>
    rw [main] at htcp
    refine ⟨(Pool.submit_owner acts.step).2, ?_⟩
    show t.listener.TcpOwner .looking t.tcp.pool.owner
    rw [sets.listener, acts.tcp]
    exact htcp.mono (fun _ => trivial) fun h => h.elim
  | arrives listener =>
    rw [listener] at htcp
    exact ⟨hudp, htcp⟩
  | @submitsTcp arrival now t listener acts sets =>
    rw [listener] at htcp
    refine ⟨?_, sets.main.symm ▸ htcp.1, (Pool.submit_owner acts.step).2⟩
    show t.main.UdpOwner t.udp.pool.owner
    rw [sets.main, acts.udp]
    exact hudp
  | spawns main =>
    -- The pool for TCP passes from the main thread to the new one.
    have habsent := Placed.absent ⟨hudp, htcp⟩ main
    rw [main] at hudp
    rw [habsent, main] at htcp
    exact ⟨hudp, trivial, htcp⟩
  | main moves listener =>
    refine ⟨moves.udpOwner hudp, ?_⟩
    rw [listener]
    exact moves.tcpOwner htcp
  | listener moves main =>
    rw [← main] at hudp htcp
    exact ⟨moves.udp_owner.symm ▸ hudp, moves.tcpOwner htcp⟩
  | udp foreign acts sets =>
    refine ⟨?_, ?_⟩
    · rw [sets.main, Pool.Foreign.owner foreign acts.step]
      exact hudp
    · rw [sets.main, sets.listener, acts.tcp]
      exact htcp
  | tcp foreign acts sets =>
    refine ⟨?_, ?_⟩
    · rw [sets.main, acts.udp]
      exact hudp
    · rw [sets.main, sets.listener, Pool.Foreign.owner foreign acts.step]
      exact htcp

/-- In every run, every thread is where its pool is. -/
theorem reaches_placed {stop : Bool} (h : Reaches (Service.step server) (· = start stop) s) :
    s.Placed := by
  refine h.invariant ?_ fun s a s' hs hstep => (step_acts hstep).moves.placed hs
  intro s hs
  subst hs
  exact ⟨.creating _, .creating _⟩

end Service

end Sederial
