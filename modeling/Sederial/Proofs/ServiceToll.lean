import Sederial.Proofs.ServicePhases

/-!
# `Sederial.Proofs.ServiceToll`: what is left to do before the service returns

`toll` counts the actions that the main thread, a dropping TCP listener and the ends of the worker
threads have ahead, at most, once the service is to stop. `Moves.toll` is the step lemma: no action
raises the toll, and an action of the main thread lowers it, as does one that drops the pool for
TCP. It is put together from one lemma for each function that says where a thread goes next.

The weights follow the code from its end to its start. What is done by a call of `shutdown` depends
on the number of completions and join handles (`Pool.load`), and `Pool::new` pays in advance for
those of the workers that it will spawn.
-/

set_option autoImplicit false

namespace Sederial

open Sederial.Lib

/-! ### Pools -/

section

variable {Job : Type}

/-- How many actions a thread that is about to end has ahead. -/
def Thread.unfinished (thread : Thread Job) : Nat :=
  match thread.phase with
  | .finished _ => 0
  | _ => 1

/-- How many workers `Pool::new` has to spawn yet. -/
def Owner.toGo : Owner → Nat
  | .creating left | .spawning left => left + 1
  | _ => 0

/-- What the owner does after `shutdown`, in `Drop for Pool`. -/
def Call.toll : Call → Nat
  | .shutdown => 0
  | .abort | .drop => 3

/-- How many actions the owner has ahead, at most, in what it is doing, with so many completions
to receive and so many threads to join. -/
def Owner.toll (pending workers : Nat) : Owner → Nat
  | .creating left => 5 * left + 13 + (pending + workers)
  | .spawning left => 5 * left + 12 + (pending + workers)
  | .closing .drop => 3
  | .locking .drop => 2
  | .detaching => 1
  | .closing call => call.toll + 4 + (pending + workers)
  | .locking call => call.toll + 3 + (pending + workers)
  | .collecting call => call.toll + 2 + (pending + workers)
  | .joining call => call.toll + 1 + workers
  | .serving | .gone => 0

/-- The first action of `shutdown` is one less to pay for. -/
theorem Owner.toll_locking (call : Call) (pending workers : Nat) :
    Owner.toll pending workers (.locking call) < Owner.toll pending workers (.closing call) := by
  cases call <;> simp [Owner.toll]

/-- So is the second one. -/
theorem Owner.toll_closed (call : Call) (pending workers : Nat) :
    Owner.toll pending workers call.closed < Owner.toll pending workers (.locking call) := by
  cases call <;> simp [Owner.toll, Call.closed]

namespace Pool

/-- How many actions the threads that are about to end have ahead. -/
def unfinished (s : Pool Job) : Nat := (s.threads.map Thread.unfinished).sum

/-- What `shutdown` has to receive and to join. -/
def load (s : Pool Job) : Nat := s.pending + s.workers.length

/-- How many actions the call that the owner is in has ahead, at most. -/
def toll (s : Pool Job) : Nat := s.owner.toll s.pending s.workers.length

variable {s s' : Pool Job} {event : OwnerEvent}

/-- What a call costs when it has returned. -/
theorem conclude_toll (call : Call) (result : Except IoError Unit) (s : Pool Job) :
    (s.conclude call result).toll = call.toll := by
  cases call <;> rfl

/-- The toll of a pool is that of its owner. -/
theorem toll_of_owner {owner : Owner} (howner : s.owner = owner) :
    s.toll = owner.toll s.pending s.workers.length := by
  unfold toll
  rw [howner]

/-- `close_queue` ends no thread. -/
theorem closeQueue_toll (call : Call) (s : Pool Job) :
    (s.closeQueue call).toll = call.closed.toll s.pending s.workers.length ∧
      (s.closeQueue call).unfinished = s.unfinished := by
  unfold closeQueue
  split <;> exact ⟨rfl, rfl⟩

/-- The owner is past the loop of `Pool::new`: its next action is one action less to come. -/
theorem toll_owner (howner : ¬ s.owner.Building) (h : s.step event.action = some s') :
    s'.toll < s.toll ∧ s'.unfinished = s.unfinished := by
  rcases step_owner howner h with rfl | rfl
  · rcases step_proceed h with ⟨call, heq, rfl⟩ | ⟨call, heq, rfl⟩ | ⟨call, heq, hs⟩ |
      ⟨call, heq, hs⟩ | ⟨heq, rfl⟩
    -- The flag and the lock are one action each.
    · refine ⟨?_, rfl⟩
      rw [toll_of_owner heq]
      exact Owner.toll_locking ..
    · obtain ⟨htoll, hunfinished⟩ := closeQueue_toll call s
      refine ⟨?_, hunfinished⟩
      rw [htoll, toll_of_owner heq]
      exact Owner.toll_closed ..
    -- Either nothing is pending, or a message is there and one is pending less.
    · rw [toll_of_owner heq]
      unfold collect at hs
      split at hs
      · cases hs
        refine ⟨?_, rfl⟩
        show call.toll + 1 + s.workers.length < call.toll + 2 + (s.pending + s.workers.length)
        omega
      · split at hs <;> cases hs
        refine ⟨?_, rfl⟩
        show s.owner.toll (s.pending - 1) s.workers.length < _
        rw [heq]
        show call.toll + 2 + (s.pending - 1 + s.workers.length) <
          call.toll + 2 + (s.pending + s.workers.length)
        omega
    -- Either no handle is left, or there is one handle less.
    · rw [toll_of_owner heq]
      unfold join at hs
      split at hs
      · rename_i worker rest hworkers
        split at hs <;> cases hs
        refine ⟨?_, rfl⟩
        show s.owner.toll s.pending rest.length < _
        rw [heq, hworkers]
        exact Nat.lt_succ_self _
      · cases hs
        refine ⟨?_, rfl⟩
        rw [conclude_toll]
        show call.toll < call.toll + 1 + s.workers.length
        omega
    · refine ⟨?_, rfl⟩
      rw [toll_of_owner heq]
      exact Nat.zero_lt_one
  -- `recv_timeout` gives up, which leaves the handles alone.
  · obtain ⟨call, heq, rfl⟩ := step_expire h
    refine ⟨?_, rfl⟩
    rw [conclude_toll, toll_of_owner heq]
    show call.toll < call.toll + 2 + (s.pending + s.workers.length)
    omega

/-- In the loop of `Pool::new`. What a new thread adds to later tolls is paid for. -/
theorem toll_building (howner : s.owner.Building) (h : s.step event.action = some s') :
    s'.toll + s'.unfinished < s.toll + s.unfinished ∧
      (s'.owner = .serving → s'.load + s'.unfinished + 1 < s.toll + s.unfinished) := by
  cases event with
  | create failure =>
    dsimp only [OwnerEvent.action, step] at h
    split at h
    · rename_i left heq
      rw [toll_of_owner heq]
      cases failure with
      -- A worker that is created is to be spawned.
      | none =>
        cases h
        refine ⟨?_, nofun⟩
        show 5 * left + 12 + s.load + s.unfinished < 5 * left + 13 + s.load + s.unfinished
        omega
      | some error =>
        cases h
        refine ⟨?_, nofun⟩
        show 3 + 4 + s.load + s.unfinished < 5 * left + 13 + s.load + s.unfinished
        omega
    · cases h
  | spawn failure =>
    dsimp only [OwnerEvent.action, step] at h
    split at h
    · rename_i left heq
      have htoll : s.toll = 5 * left + 12 + s.load := toll_of_owner heq
      cases failure with
      | some error =>
        cases h
        refine ⟨?_, nofun⟩
        show 3 + 4 + s.load + s.unfinished < _
        omega
      -- The new thread has a message and a handle to pay for, and its own end.
      | none =>
        cases h
        have hunfinished : (s.addWorker left).unfinished = s.unfinished + 1 := by
          unfold unfinished addWorker
          rw [List.map_append, List.sum_append]
          rfl
        have hload : (s.addWorker left).load = s.load + 2 := by
          show s.pending + 1 + (s.workers ++ [s.threads.length]).length = _
          rw [List.length_append]
          unfold load
          show _ = s.pending + s.workers.length + 2
          simp only [List.length_singleton]
          omega
        have hnew : (s.addWorker left).toll ≤ 5 * left + 8 + (s.addWorker left).load := by
          show (Owner.next left).toll _ _ ≤ _
          cases left with
          | zero => exact Nat.zero_le _
          | succ left =>
            show 5 * left + 13 + load _ ≤ _
            omega
        exact ⟨by omega, fun _ => by omega⟩
    · cases h
  | proceed =>
    rcases step_proceed h with ⟨call, heq, -⟩ | ⟨call, heq, -⟩ | ⟨call, heq, -⟩ | ⟨call, heq, -⟩ |
      ⟨heq, -⟩ <;> rw [heq] at howner <;> cases howner
  | expire =>
    obtain ⟨call, heq, -⟩ := step_expire h
    rw [heq] at howner
    cases howner

/-- An action that keeps the owner keeps what is to be paid. -/
theorem toll_eq (howner : s'.owner = s.owner) (hpending : s'.pending = s.pending)
    (hworkers : s'.workers = s.workers) : s'.toll = s.toll ∧ s'.load = s.load := by
  unfold toll load
  rw [howner, hpending, hworkers]
  exact ⟨rfl, rfl⟩

/-- A thread does not begin again. -/
theorem unfinished_set {index : Nat} {thread thread' : Thread Job}
    (hthread : s.threads[index]? = some thread)
    (hthreads : s'.threads = s.threads.set index thread') :
    s'.unfinished + thread.unfinished = s.unfinished + thread'.unfinished := by
  obtain ⟨rest, hsum, hset⟩ := exists_sum_set Thread.unfinished hthread
  unfold unfinished
  rw [hthreads, hset, hsum]
  omega

/-- An action of a worker adds no end. -/
theorem Works.unfinished {index : Nat} {thread : Thread Job}
    (hthread : s.threads[index]? = some thread) (h : Works index thread s s') :
    s'.unfinished ≤ s.unfinished := by
  obtain ⟨⟨thread', hthreads⟩, -⟩ := h.frame
  have hsum := unfinished_set hthread hthreads
  have hthread₁ : thread.unfinished = 1 := by
    unfold Thread.unfinished
    split
    · rename_i clean hphase
      exact (h.not_finished clean hphase).elim
    · rfl
  have hthread₂ : thread'.unfinished ≤ 1 := by
    unfold Thread.unfinished
    split
    · exact Nat.zero_le 1
    · exact Nat.le_refl 1
  omega

/-- What the surroundings and the workers do costs the owner nothing. -/
theorem Foreign.toll {a : Action Job} (ha : a.Foreign) (h : s.step a = some s') :
    s'.toll = s.toll ∧ s'.load = s.load ∧ s'.unfinished ≤ s.unfinished := by
  cases ha with
  | worker index move =>
    dsimp only [Pool.step] at h
    split at h
    · rename_i thread hthread
      have hworks := workerStep_works h
      obtain ⟨-, hworkers, howner, hpending, -⟩ := hworks.frame
      obtain ⟨htoll, hload⟩ := toll_eq howner hpending hworkers
      exact ⟨htoll, hload, hworks.unfinished hthread⟩
    · cases h
  | requestStop | poison =>
    cases h
    exact ⟨rfl, rfl, Nat.le_refl _⟩

/-- The last action of a thread. -/
theorem unfinished_ending {index : Nat} {move : Move} {panicked : Bool}
    (hthread : s.threads[index]? = some ⟨.ending, panicked⟩)
    (h : s.step (.worker index move) = some s') : s'.unfinished < s.unfinished := by
  rw [step_worker hthread] at h
  have hfinished : ∃ clean, s' = s.goto index ⟨.ending, panicked⟩ (.finished clean) := by
    unfold workerStep at h
    cases move with
    | run =>
      cases h
      exact ⟨true, rfl⟩
    | panic =>
      dsimp only at h
      split at h <;> cases h
      exact ⟨false, rfl⟩
    | timeout => cases h
  obtain ⟨clean, rfl⟩ := hfinished
  have hsum := unfinished_set hthread
    (rfl : (s.goto index ⟨.ending, panicked⟩ (.finished clean)).threads = _)
  have hone : Thread.unfinished (⟨.ending, panicked⟩ : Thread Job) = 1 := rfl
  have hzero : Thread.unfinished (⟨.finished clean, panicked⟩ : Thread Job) = 0 := rfl
  dsimp only at hsum
  omega

/-- `submit` costs nothing. -/
theorem submit_toll {job : Job} (h : s.step (.submit job) = some s') :
    s'.load = s.load ∧ s'.unfinished = s.unfinished := by
  dsimp only [step] at h
  split at h
  · cases h
    unfold submit load unfinished
    dsimp only
    split
    · exact ⟨rfl, rfl⟩
    · split <;> exact ⟨rfl, rfl⟩
  · cases h

/-- What `shutdown` costs when it is called. -/
theorem shutdown_toll (h : s.step .shutdown = some s') :
    s'.toll = 4 + s.load ∧ s'.unfinished = s.unfinished := by
  dsimp only [step] at h
  split at h <;> cases h
  exact ⟨rfl, rfl⟩

/-- What `drop` costs when it is called. -/
theorem drop_toll (h : s.step .drop = some s') : s'.toll = 3 ∧ s'.unfinished = s.unfinished := by
  dsimp only [step] at h
  split at h <;> cases h
  exact ⟨rfl, rfl⟩

end Pool

end

/-! ### The service -/

/-- How many actions the main thread has ahead, at most, once the service is to stop. -/
def Main.toll (udp : Pool Datagram) (tcp : Pool Connection) : Main → Nat
  | .openingUdp => 18 + udp.toll + tcp.toll
  | .abortingUdp _ => udp.toll
  | .openingTcp => 18 + udp.load + tcp.toll
  | .addressing => 18 + udp.load
  | .spawning => 17 + udp.load
  | .leavingTcp _ => 4 + tcp.toll
  | .submitting _ | .receiving => 14 + udp.load
  | .looking | .received _ => 13 + udp.load
  | .raising _ => 12 + udp.load
  | .waking _ => 11 + udp.load
  | .closingUdp _ _ => 6 + udp.toll
  | .awaiting _ _ _ => 6
  | .joining _ _ => 5
  | .leaving _ => 4
  | .droppingUdp _ => udp.toll
  | .returned _ => 0

/-- How many actions the drop of the pool for TCP takes in the thread `tcp-listener`. -/
def Listener.toll (tcp : Pool Connection) : Listener → Nat
  | .dropping _ | .unwinding => tcp.toll
  | .absent | .ended _ => 0
  | _ => 3

/-- The main thread is on its way out of `run`. -/
def Main.Leaves : Main → Prop
  | .openingUdp | .openingTcp | .addressing | .spawning | .looking | .receiving | .received _
  | .submitting _ => False
  | _ => True

/-- What an action lowers the toll by, at least. -/
def Actor.price (listener : Listener) : Actor → Nat
  | .main => 1
  | .listener =>
    match listener with
    | .dropping _ | .unwinding => 1
    | _ => 0
  | .foreign => 0

/-- What is ahead with the main thread in this state, but for the listener's part. -/
def Main.bill (s : Service) (main : Main) : Nat :=
  main.toll s.udp.pool s.tcp.pool + (s.udp.pool.unfinished + s.tcp.pool.unfinished)

/-- What is ahead with the listener in this state, but for the main thread's part. -/
def Listener.bill (s : Service) (listener : Listener) : Nat :=
  listener.toll s.tcp.pool + (s.udp.pool.unfinished + s.tcp.pool.unfinished)

namespace Service

/-- The service is to stop: it was told to, or the main thread does so by itself. -/
def Stopping (s : Service) : Prop := s.stop = true ∨ s.main.Leaves

/-- How many actions are ahead, at most, once the service is to stop. -/
def toll (s : Service) : Nat :=
  s.main.toll s.udp.pool s.tcp.pool + s.listener.toll s.tcp.pool +
    (s.udp.pool.unfinished + s.tcp.pool.unfinished)

variable {s s' : Service}

/-- The toll, seen from the main thread. -/
theorem toll_eq_main (s : Service) : s.toll = s.main.bill s + s.listener.toll s.tcp.pool := by
  unfold toll Main.bill
  omega

/-- The toll, seen from the TCP listener. -/
theorem toll_eq_listener (s : Service) :
    s.toll = s.main.toll s.udp.pool s.tcp.pool + s.listener.bill s := by
  unfold toll Listener.bill
  omega

section

variable {a : Action Datagram}

/-- What the pool for UDP does costs the other pool nothing. -/
theorem UdpActs.tcp_toll (h : s.UdpActs s' a) : s'.tcp.pool.toll = s.tcp.pool.toll := by
  rw [h.tcp]
  rfl

/-- It ends none of the other pool's threads. -/
theorem UdpActs.tcp_unfinished (h : s.UdpActs s' a) :
    s'.tcp.pool.unfinished = s.tcp.pool.unfinished := by
  rw [h.tcp]
  rfl

end

section

variable {a : Action Connection}

/-- What the pool for TCP does costs the other pool nothing. -/
theorem TcpActs.udp_toll (h : s.TcpActs s' a) : s'.udp.pool.toll = s.udp.pool.toll := by
  rw [h.udp]
  rfl

/-- Nor does it change what a shutdown of the other pool will cost. -/
theorem TcpActs.udp_load (h : s.TcpActs s' a) : s'.udp.pool.load = s.udp.pool.load := by
  rw [h.udp]
  rfl

/-- It ends none of the other pool's threads. -/
theorem TcpActs.udp_unfinished (h : s.TcpActs s' a) :
    s'.udp.pool.unfinished = s.udp.pool.unfinished := by
  rw [h.udp]
  rfl

end

end Service

/-- The toll of the main thread depends on the pools through their tolls and loads only. -/
theorem Main.toll_congr {udp udp' : Pool Datagram} {tcp tcp' : Pool Connection} (main : Main)
    (hudp : udp'.toll = udp.toll) (hload : udp'.load = udp.load) (htcp : tcp'.toll = tcp.toll) :
    main.toll udp' tcp' = main.toll udp tcp := by
  cases main <;> simp only [toll, hudp, hload, htcp]

/-- The toll of the listener depends on its pool through the toll only. -/
theorem Listener.toll_congr {tcp tcp' : Pool Connection} (listener : Listener)
    (htcp : tcp'.toll = tcp.toll) : listener.toll tcp' = listener.toll tcp := by
  cases listener <;> simp only [toll, htcp]

/-- Once the service is to stop, the main thread gets ahead with every move. -/
theorem Main.Goes.toll {main main' : Main} {stop hungUp : Bool} (h : main.Goes stop hungUp main')
    (hstop : stop = true ∨ main.Leaves) (udp : Pool Datagram) (tcp : Pool Connection) :
    main'.toll udp tcp + 1 ≤ main.toll udp tcp ∧ (stop = true ∨ main'.Leaves) := by
  have hraised : stop = false → ¬ main.Leaves → False := by
    intro hdown hstays
    rcases hstop with hup | hleaves
    · exact nomatch hdown.symm.trans hup
    · exact hstays hleaves
  cases h with
  | addressed => exact ⟨Nat.le_of_eq (by simp only [Main.toll]; omega), hstop⟩
  | receives unraised => exact (hraised unraised id).elim
  | keeps unraised => exact (hraised unraised id).elim
  | retries | hangsUp => exact ⟨by simp only [Main.toll]; omega, hstop⟩
  | stopped | fails | discards | expires =>
    exact ⟨by simp only [Main.toll]; omega, .inr trivial⟩

/-- A move of the listener that touches nothing but its program counter costs nothing. -/
theorem Listener.Goes.toll {listener listener' : Listener} {stop : Bool}
    (h : listener.Goes stop listener') (tcp : Pool Connection) :
    listener'.toll tcp + Actor.price listener .listener ≤ listener.toll tcp := by
  cases h <;> exact Nat.le_refl _

/-- Before it spawns the TCP listener the main thread owns both pools, and later one of them. -/
theorem Main.Started.toll {main : Main} (h : main.Started) (udp : Pool Datagram)
    (tcp tcp' : Pool Connection) : main.toll udp tcp' = main.toll udp tcp := by
  cases main with
  | openingUdp | abortingUdp | openingTcp | addressing | spawning | leavingTcp => exact h.elim
  | _ => rfl

/-- An owner that aborts is not in the loop of `Pool::new`. -/
theorem Owner.Aborting.not_building {owner : Owner} (h : owner.Aborting) : ¬ owner.Building := by
  cases h with
  | shuts hshuts => exact hshuts.not_building
  | drops hdrops => exact Pool.Owner.Dropping.not_building hdrops

/-- A listener in `accept_tcp` has the drop of its pool ahead. -/
theorem Listener.InAccept.toll {listener : Listener} (h : listener.InAccept)
    (tcp : Pool Connection) : listener.toll tcp = 3 ∧ Actor.price listener .listener = 0 := by
  cases h <;> exact ⟨rfl, rfl⟩

/-- What a listener that drops its pool has ahead. -/
theorem Listener.drops_toll (result : Option Outcome) (tcp : Pool Connection) :
    (Listener.drops result).toll tcp = tcp.toll ∧
      Actor.price (Listener.drops result) .listener = 1 := by
  cases result <;> exact ⟨rfl, rfl⟩

/-! ### One move -/

section

variable {event : OwnerEvent} {udp udp' : Pool Datagram} {tcp tcp' : Pool Connection}

/-- One turn of `Pool::new` for UDP. -/
theorem Main.openedUdp_toll (howner : udp.owner.Building)
    (h : udp.step event.action = some udp') :
    (openedUdp event.failure udp'.owner).toll udp' tcp + udp'.unfinished + 1 ≤
      openingUdp.toll udp tcp + udp.unfinished := by
  obtain ⟨hlower, hserves⟩ := Pool.toll_building howner h
  show _ ≤ 18 + udp.toll + tcp.toll + _
  unfold openedUdp
  cases event.failure with
  | some error =>
    show udp'.toll + _ + 1 ≤ _
    omega
  | none =>
    dsimp only
    split
    · rename_i hserving
      have hpaid := hserves hserving
      show 18 + udp'.load + tcp.toll + _ + 1 ≤ _
      omega
    · show 18 + udp'.toll + tcp.toll + _ + 1 ≤ _
      omega

/-- One turn of `Pool::new` for TCP. -/
theorem Main.openedTcp_toll (howner : tcp.owner.Building)
    (h : tcp.step event.action = some tcp') :
    (openedTcp event.failure tcp'.owner).toll udp tcp' + tcp'.unfinished + 1 ≤
      openingTcp.toll udp tcp + tcp.unfinished := by
  obtain ⟨hlower, hserves⟩ := Pool.toll_building howner h
  show _ ≤ 18 + udp.load + tcp.toll + _
  unfold openedTcp
  cases event.failure with
  | some error =>
    show 4 + tcp'.toll + _ + 1 ≤ _
    omega
  | none =>
    dsimp only
    split
    · rename_i hserving
      have hpaid := hserves hserving
      show 18 + udp.load + _ + 1 ≤ _
      omega
    · show 18 + udp.load + tcp'.toll + _ + 1 ≤ _
      omega

/-- One action of the pool for UDP whose start failed. -/
theorem Main.abortedUdp_toll (error : IoError) (howner : udp.owner.Aborting)
    (h : udp.step event.action = some udp') :
    (abortedUdp error udp'.owner).toll udp' tcp + udp'.unfinished + 1 ≤
      (abortingUdp error).toll udp tcp + udp.unfinished := by
  obtain ⟨hlower, hsame⟩ := Pool.toll_owner howner.not_building h
  show _ ≤ udp.toll + _
  unfold abortedUdp
  split
  · show 0 + _ + 1 ≤ _
    omega
  · show udp'.toll + _ + 1 ≤ _
    omega

/-- The pool for TCP that the main thread drops before it spawns the listener. -/
theorem Main.leavingTcp_toll (error : IoError) {main : Main}
    (early : main = .addressing ∨ main = .spawning) (h : tcp.step .drop = some tcp') :
    (leavingTcp error).toll udp tcp' + tcp'.unfinished + 1 ≤
      main.toll udp tcp + tcp.unfinished := by
  obtain ⟨htoll, hsame⟩ := Pool.drop_toll h
  have hmain : 17 ≤ main.toll udp tcp := by
    rcases early with rfl | rfl
    · exact Nat.le_trans (by decide) (Nat.le_add_right 18 _)
    · exact Nat.le_add_right 17 _
  show 4 + tcp'.toll + _ + 1 ≤ _
  omega

/-- One action of the pool for TCP that the main thread drops. -/
theorem Main.leftTcp_toll (error : IoError) (howner : tcp.owner.Aborting)
    (h : tcp.step event.action = some tcp') :
    (leftTcp error tcp'.owner).toll udp tcp' + tcp'.unfinished + 1 ≤
      (leavingTcp error).toll udp tcp + tcp.unfinished := by
  obtain ⟨hlower, hsame⟩ := Pool.toll_owner howner.not_building h
  show _ ≤ 4 + tcp.toll + _
  unfold leftTcp
  split
  · show 4 + _ + 1 ≤ _
    omega
  · show 4 + tcp'.toll + _ + 1 ≤ _
    omega

/-- One action of the shutdown of the pool for UDP. -/
theorem Main.closedUdp_toll (result : Outcome) (wake : Option String)
    (howner : Pool.Shuts .shutdown udp.owner) (h : udp.step event.action = some udp') :
    (closedUdp result wake (udp.shutdownResult event)).toll udp' tcp + udp'.unfinished + 1 ≤
      (closingUdp result wake).toll udp tcp + udp.unfinished := by
  obtain ⟨hlower, hsame⟩ := Pool.toll_owner howner.not_building h
  show _ ≤ 6 + udp.toll + _
  cases udp.shutdownResult event with
  | some workers =>
    show 6 + _ + 1 ≤ _
    omega
  | none =>
    show 6 + udp'.toll + _ + 1 ≤ _
    omega

/-- One action of the drop of the pool for UDP. -/
theorem Main.droppedUdp_toll (result : Outcome) (howner : udp.owner.Dropping)
    (h : udp.step event.action = some udp') :
    (droppedUdp result udp'.owner).toll udp' tcp + udp'.unfinished + 1 ≤
      (droppingUdp result).toll udp tcp + udp.unfinished := by
  obtain ⟨hlower, hsame⟩ := Pool.toll_owner (Pool.Owner.Dropping.not_building howner) h
  show _ ≤ udp.toll + _
  unfold droppedUdp
  split
  · show 0 + _ + 1 ≤ _
    omega
  · show udp'.toll + _ + 1 ≤ _
    omega

/-- One action of the drop of the pool for TCP. -/
theorem Listener.dropped_toll (result : Option Outcome) (howner : tcp.owner.Dropping)
    (h : tcp.step event.action = some tcp') :
    (dropped result tcp'.owner).toll tcp' + tcp'.unfinished +
      Actor.price (drops result) .listener ≤ (drops result).toll tcp + tcp.unfinished := by
  obtain ⟨hlower, hsame⟩ := Pool.toll_owner (Pool.Owner.Dropping.not_building howner) h
  obtain ⟨hdrops, hprice⟩ := drops_toll result tcp
  rw [hdrops, hprice]
  unfold dropped
  split
  · show 0 + _ + 1 ≤ _
    omega
  · split
    · show tcp'.toll + _ + 1 ≤ _
      omega
    · show tcp'.toll + _ + 1 ≤ _
      omega

end

section

variable {s s' : Service} {main main' : Main} {listener listener' : Listener}

/-- What the pool for UDP pays for, the main thread may do. -/
theorem Service.UdpActs.bill {a : Action Datagram} (h : s.UdpActs s' a)
    (hpaid : main'.toll s'.udp.pool s.tcp.pool + s'.udp.pool.unfinished + 1 ≤
      main.toll s.udp.pool s.tcp.pool + s.udp.pool.unfinished) :
    main'.bill s' + 1 ≤ main.bill s := by
  unfold Main.bill
  rw [main'.toll_congr rfl rfl h.tcp_toll, h.tcp_unfinished]
  omega

/-- What the pool for TCP pays for, the main thread may do. -/
theorem Service.TcpActs.bill {a : Action Connection} (h : s.TcpActs s' a)
    (hpaid : main'.toll s.udp.pool s'.tcp.pool + s'.tcp.pool.unfinished + 1 ≤
      main.toll s.udp.pool s.tcp.pool + s.tcp.pool.unfinished) :
    main'.bill s' + 1 ≤ main.bill s := by
  unfold Main.bill
  rw [main'.toll_congr h.udp_toll h.udp_load rfl, h.udp_unfinished]
  omega

/-- What the pool for TCP pays for, the listener may do. -/
theorem Service.TcpActs.listener_bill {a : Action Connection} (h : s.TcpActs s' a) {price : Nat}
    (hpaid : listener'.toll s'.tcp.pool + s'.tcp.pool.unfinished + price ≤
      listener.toll s.tcp.pool + s.tcp.pool.unfinished) :
    listener'.bill s' + price ≤ listener.bill s := by
  unfold Listener.bill
  rw [h.udp_unfinished]
  omega

/-- A main thread that has started the listener does not pay for its pool. -/
theorem Service.TcpActs.main_toll {a : Action Connection} (h : s.TcpActs s' a)
    (hstarted : main.Started) :
    main.toll s'.udp.pool s'.tcp.pool = main.toll s.udp.pool s.tcp.pool := by
  rw [main.toll_congr h.udp_toll h.udp_load rfl]
  exact hstarted.toll _ _ _

/-- Once the service is to stop, every move of the main thread brings it closer to the end. -/
theorem Main.Moves.bill (h : main.Moves s s' main') (hudp : main.UdpOwner s.udp.pool.owner)
    (htcp : listener.TcpOwner main s.tcp.pool.owner) (hstop : s.stop = true ∨ main.Leaves) :
    main'.bill s' + 1 ≤ main.bill s := by
  cases h with
  | goes goes still =>
    have hlower := (goes.toll hstop s.udp.pool s.tcp.pool).1
    unfold Main.bill
    rw [still.udp, still.tcp]
    omega
  | completes _ still =>
    unfold Main.bill
    rw [still.udp, still.tcp]
    show 5 + _ + 1 ≤ 6 + _
    omega
  | joins _ still =>
    unfold Main.bill
    rw [still.udp, still.tcp]
    show 4 + _ + 1 ≤ 5 + _
    omega
  | opensUdp acts => exact acts.bill (openedUdp_toll hudp acts.step)
  | abortsUdp acts => exact acts.bill (abortedUdp_toll _ hudp acts.step)
  | opensTcp acts =>
    -- The main thread owns the pool for TCP as long as the listener does not exist.
    have habsent := htcp.absent id
    subst habsent
    exact acts.bill (openedTcp_toll htcp acts.step)
  | dropsTcp early acts => exact acts.bill (leavingTcp_toll _ early acts.step)
  | leavesTcp acts =>
    have habsent := htcp.absent id
    subst habsent
    exact acts.bill (leftTcp_toll _ htcp acts.step)
  | raises acts =>
    obtain ⟨-, hload, hless⟩ := Pool.Foreign.toll .requestStop acts.step
    refine acts.bill ?_
    show 11 + s'.udp.pool.load + _ + 1 ≤ 12 + s.udp.pool.load + _
    omega
  | wakes acts =>
    obtain ⟨hcall, hsame⟩ := Pool.shutdown_toll acts.step
    refine acts.bill ?_
    show 6 + s'.udp.pool.toll + _ + 1 ≤ 11 + s.udp.pool.load + _
    omega
  | closesUdp acts => exact acts.bill (closedUdp_toll _ _ hudp acts.step)
  | leaves acts =>
    obtain ⟨hdrop, hsame⟩ := Pool.drop_toll acts.step
    refine acts.bill ?_
    show s'.udp.pool.toll + _ + 1 ≤ 4 + _
    omega
  | dropsUdp acts => exact acts.bill (droppedUdp_toll _ hudp acts.step)

/-- No move of the main thread costs the listener anything. -/
theorem Main.Moves.listener_toll (h : main.Moves s s' main')
    (htcp : listener.TcpOwner main s.tcp.pool.owner) :
    listener.toll s'.tcp.pool = listener.toll s.tcp.pool := by
  cases h with
  | goes _ still | completes _ still | joins _ still => rw [still.tcp]
  | opensUdp acts | abortsUdp acts | raises acts | wakes acts | closesUdp acts | leaves acts
  | dropsUdp acts => exact listener.toll_congr acts.tcp_toll
  | opensTcp | leavesTcp =>
    rw [htcp.absent id]
    rfl
  | dropsTcp early =>
    have habsent : listener = .absent := htcp.absent fun hstarted => by
      rcases early with rfl | rfl <;> exact hstarted
    rw [habsent]
    rfl

/-- No move of the listener delays the end, and the drop of its pool gets ahead with each. -/
theorem Listener.Moves.bill (h : listener.Moves s s' listener')
    (htcp : listener.TcpOwner main s.tcp.pool.owner) :
    listener'.bill s' + Actor.price listener .listener ≤ listener.bill s := by
  cases h with
  | goes goes still =>
    have hlower := goes.toll s.tcp.pool
    unfold Listener.bill
    rw [still.udp, still.tcp]
    omega
  -- Until the drop is called the listener's part of the toll is that of the whole drop.
  | raises acts =>
    obtain ⟨-, -, hless⟩ := Pool.Foreign.toll .requestStop acts.step
    refine acts.listener_bill ?_
    show 3 + _ + 0 ≤ 3 + _
    omega
  | stops acts =>
    obtain ⟨-, hsame⟩ := Pool.shutdown_toll acts.step
    refine acts.listener_bill ?_
    rw [hsame]
    exact Nat.le_refl _
  | closes acts =>
    obtain ⟨-, hsame⟩ := Pool.toll_owner htcp.2.not_building acts.step
    refine acts.listener_bill ?_
    rw [hsame]
    unfold closed
    split <;> exact Nat.le_refl _
  | sends acts =>
    obtain ⟨hdrop, hsame⟩ := Pool.drop_toll acts.step
    refine acts.listener_bill ?_
    show s'.tcp.pool.toll + _ + 0 ≤ 3 + _
    omega
  -- From here on every action of the drop lowers it.
  | drops acts =>
    rw [drops_tcpOwner] at htcp
    exact acts.listener_bill (dropped_toll _ htcp.2 acts.step)
  | panics accepts acts =>
    obtain ⟨hdrop, hsame⟩ := Pool.drop_toll acts.step
    obtain ⟨haccepts, hprice⟩ := accepts.toll s.tcp.pool
    refine acts.listener_bill ?_
    rw [haccepts, hprice]
    show s'.tcp.pool.toll + _ + 0 ≤ _
    omega

/-- No move of the listener costs the main thread anything. -/
theorem Listener.Moves.main_toll (h : listener.Moves s s' listener')
    (htcp : listener.TcpOwner main s.tcp.pool.owner) :
    main.toll s'.udp.pool s'.tcp.pool = main.toll s.udp.pool s.tcp.pool := by
  cases h with
  | goes _ still => rw [still.udp, still.tcp]
  | raises acts | stops acts | closes acts | sends acts => exact acts.main_toll htcp.1
  | drops acts =>
    rw [drops_tcpOwner] at htcp
    exact acts.main_toll htcp.1
  | panics accepts acts => exact acts.main_toll (accepts.tcpOwner htcp).1

end

namespace Service

variable {s s' : Service} {actor : Actor}

/-- Once the service is to stop, nothing delays it: a move is paid for by the toll. -/
theorem Moves.toll (h : s.Moves actor s') (hs : s.Placed) (hstop : s.Stopping) :
    s'.toll + actor.price s.listener ≤ s.toll := by
  cases h with
  | receives main =>
    unfold Service.toll
    rw [main]
    show 13 + s.udp.pool.load + _ + _ + 1 ≤ 14 + s.udp.pool.load + _ + _
    dsimp only [Service.goto]
    omega
  | @submitsUdp datagram t main acts sets =>
    obtain ⟨hload, hsame⟩ := Pool.submit_toll acts.step
    have hbill : Main.looking.bill t + 1 ≤ (Main.submitting datagram).bill s := by
      refine acts.bill ?_
      show 13 + t.udp.pool.load + _ + 1 ≤ 14 + s.udp.pool.load + _
      omega
    rw [toll_eq_main, toll_eq_main, main]
    show Main.looking.bill t + t.listener.toll t.tcp.pool + 1 ≤ _
    rw [sets.listener, s.listener.toll_congr acts.tcp_toll]
    omega
  | arrives listener =>
    unfold Service.toll
    rw [listener]
    exact Nat.le_refl _
  -- The main thread has started the listener, so it does not pay for the pool.
  | @submitsTcp arrival now t listener acts sets =>
    obtain ⟨-, hsame⟩ := Pool.submit_toll acts.step
    have hstarted : s.main.Started := by
      have htcp := hs.tcp
      rw [listener] at htcp
      exact htcp.1
    rw [toll_eq_listener, toll_eq_listener, listener]
    show t.main.toll t.udp.pool t.tcp.pool + Listener.looking.bill t ≤ _
    rw [sets.main, acts.main_toll hstarted]
    have hbill : Listener.looking.bill t + 0 ≤ (Listener.submitting arrival).bill s := by
      refine acts.listener_bill ?_
      rw [hsame]
      exact Nat.le_refl _
    omega
  | spawns main =>
    unfold Service.toll
    rw [main, hs.absent main]
    show 13 + s.udp.pool.load + 3 + _ + 1 ≤ 17 + s.udp.pool.load + 0 + _
    exact Nat.le_of_eq (by dsimp only [Service.goto, notify, Service.listen]; omega)
  -- The bill of the thread that moves gets smaller, and the other one's part stays.
  | main moves listener =>
    have hbill := moves.bill hs.udp hs.tcp hstop
    rw [toll_eq_main, toll_eq_main, listener, moves.listener_toll hs.tcp]
    show _ + 1 ≤ _
    omega
  | listener moves main =>
    have hbill := moves.bill hs.tcp
    rw [toll_eq_listener, toll_eq_listener, main, moves.main_toll hs.tcp]
    omega
  | udp foreign acts sets =>
    obtain ⟨htoll, hload, hless⟩ := Pool.Foreign.toll foreign acts.step
    unfold Service.toll
    rw [sets.main, sets.listener, s.main.toll_congr htoll hload acts.tcp_toll,
      s.listener.toll_congr acts.tcp_toll, acts.tcp_unfinished]
    show _ + 0 ≤ _
    omega
  | tcp foreign acts sets =>
    obtain ⟨htoll, -, hless⟩ := Pool.Foreign.toll foreign acts.step
    unfold Service.toll
    rw [sets.main, sets.listener, s.main.toll_congr acts.udp_toll acts.udp_load htoll,
      s.listener.toll_congr htoll, acts.udp_unfinished]
    show _ + 0 ≤ _
    omega

end Service

end Sederial
