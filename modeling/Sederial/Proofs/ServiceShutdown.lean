import Sederial.Lib.Progress
import Sederial.Proofs.ServiceIntake
import Sederial.Proofs.ServiceToll

/-!
# `Sederial.Proofs.ServiceShutdown`: the service returns

`Prompt` are the actions that wait for nobody: what the main thread does, since each of its calls
has a deadline, the drop of a pool by the TCP listener, and the last action of a worker thread.
`progress` says that the service is a `Lib.Progress` with the toll as its measure. Until `run` has
returned, a prompt action is possible (`exists_prompt`): where the main thread joins a thread, that
thread has told that it is at its end (`Parting`, `Counted`), so its own next action is prompt.

Nothing here asks a worker to finish its job, a client to go away or `accept` to return.
-/

set_option autoImplicit false

namespace Sederial

open Sederial.Lib

namespace Pool

section

variable {Job : Type} {s : Pool Job} {count capacity : Nat} {stop : Bool} {call : Call}

/-- `shutdown` raises the stop flag first. -/
theorem step_closing (howner : s.owner = .closing call) :
    s.step .proceed = some { s with stop := true, owner := .locking call } := by
  simp only [step, howner]

/-- Then it closes the queue. -/
theorem step_locking (howner : s.owner = .locking call) :
    s.step .proceed = some (s.closeQueue call) := by
  simp only [step, howner]

/-- `shutdown` can go on, or the thread it joins can end. -/
theorem shuts_prompt (h : Reaches Pool.step (· = start count capacity stop) s)
    (howner : Shuts call s.owner) :
    (∃ (event : OwnerEvent) (s' : Pool Job), s.step event.action = some s') ∨
      ∃ (index : Nat) (panicked : Bool), s.threads[index]? = some ⟨.ending, panicked⟩ := by
  generalize heq : s.owner = owner at howner
  cases howner with
  | closing => exact .inl ⟨.proceed, _, step_closing heq⟩
  | locking => exact .inl ⟨.proceed, _, step_locking heq⟩
  | collecting =>
    refine .inl ?_
    -- The owner has a message, or all of them, or it may give up.
    by_cases hpending : s.pending = 0
    · exact ⟨.proceed, { s with owner := .joining call },
        by simp only [OwnerEvent.action, step, heq, collect, hpending, if_true]⟩
    · cases hcompleted : s.completed with
      | cons worker rest =>
        refine ⟨.proceed, { s with completed := rest, pending := s.pending - 1 }.record
          (.received worker), ?_⟩
        simp only [OwnerEvent.action, step, heq, collect, hcompleted]
        exact if_neg hpending
      | nil =>
        refine ⟨.expire, s.conclude call (.error .shutdownIncomplete), ?_⟩
        simp only [OwnerEvent.action, step, heq]
        exact if_pos ⟨hpending, hcompleted⟩
  | joining =>
    cases hworkers : s.workers with
    | nil =>
      refine .inl ⟨.proceed, s.conclude call
        (if s.failed then .error .workerTerminated else .ok ()), ?_⟩
      simp only [OwnerEvent.action, step, heq, join, hworkers]
    -- Every message is received, so the thread that is joined has sent its own and is at its end.
    | cons worker rest =>
      have hlt : worker < s.threads.length :=
        (reaches_joined h).handles worker (hworkers ▸ List.mem_cons_self)
      obtain ⟨⟨phase, panicked⟩, hthread⟩ : ∃ thread, s.threads[worker]? = some thread :=
        ⟨_, List.getElem?_eq_getElem hlt⟩
      have hsent : phase.sent = 1 := by
        rw [← (reaches_counted h).sent_of_drained ((reaches_joined h).drained call heq) hlt,
          sent_eq hthread]
      cases phase with
      | finished clean => exact .inl ⟨.proceed, _, step_join heq hworkers hthread⟩
      | ending => exact .inr ⟨worker, panicked, hthread⟩
      | _ => cases hsent

/-- A pool that is being dropped waits for nobody. -/
theorem dropping_prompt (howner : s.owner.Dropping) :
    ∃ (event : OwnerEvent) (s' : Pool Job), s.step event.action = some s' := by
  generalize heq : s.owner = owner at howner
  cases howner with
  | closing => exact ⟨.proceed, _, step_closing heq⟩
  | locking => exact ⟨.proceed, _, step_locking heq⟩
  | detaching =>
    refine ⟨.proceed, { s with workers := [], owner := .gone }, ?_⟩
    simp only [OwnerEvent.action, step, heq]

/-- A pool whose start failed waits at most for a worker that is about to end. -/
theorem aborting_prompt (h : Reaches Pool.step (· = start count capacity stop) s)
    (howner : s.owner.Aborting) :
    (∃ (event : OwnerEvent) (s' : Pool Job), s.step event.action = some s') ∨
      ∃ (index : Nat) (panicked : Bool), s.threads[index]? = some ⟨.ending, panicked⟩ := by
  cases howner with
  | shuts hshuts => exact shuts_prompt h hshuts
  | drops hdrops => exact .inl (dropping_prompt hdrops)

/-- The loop of `Pool::new` waits for nobody. -/
theorem building_prompt (howner : s.owner.Building) :
    ∃ (event : OwnerEvent) (s' : Pool Job), s.step event.action = some s' := by
  generalize heq : s.owner = owner at howner
  cases howner with
  | creating left =>
    refine ⟨.create none, { s with owner := .spawning left }, ?_⟩
    simp [OwnerEvent.action, step, heq]
  | spawning left =>
    refine ⟨.spawn none, s.addWorker left, ?_⟩
    simp [OwnerEvent.action, step, heq]

/-- A worker that is about to end needs one more action. -/
theorem ending_prompt {index : Nat} {panicked : Bool}
    (hthread : s.threads[index]? = some ⟨.ending, panicked⟩) :
    ∃ s', s.step (.worker index .run) = some s' := ⟨_, step_worker hthread⟩

/-! ### How much there is to do -/

/-- Threads are spawned by `Pool::new` only, and each has one join handle. -/
structure Manned (count : Nat) (s : Pool Job) : Prop where
  threads : s.threads.length + s.owner.toGo ≤ count
  handles : s.workers.length ≤ s.threads.length

/-- An action that starts no thread keeps the count. -/
theorem Manned.same {s' : Pool Job} (hs : s.Manned count)
    (hthreads : s'.threads.length = s.threads.length) (howner : s'.owner.toGo ≤ s.owner.toGo)
    (hworkers : s'.workers.length ≤ s.workers.length) : s'.Manned count := by
  obtain ⟨hcount, hhandles⟩ := hs
  exact ⟨by omega, by omega⟩

/-- The turns of `Pool::new` that are left. -/
theorem toGo_next (left : Nat) : (Owner.next left).toGo = left := by
  cases left <;> rfl

/-- One action: only `spawn` adds a thread, and it takes one turn away. -/
theorem step_manned {s' : Pool Job} {a : Action Job} (hs : s.Manned count)
    (h : s.step a = some s') : s'.Manned count := by
  cases step_acts h with
  | works found works =>
    obtain ⟨⟨thread', hthreads⟩, hworkers, howner, -⟩ := works.frame
    refine hs.same ?_ (Nat.le_of_eq (by rw [howner])) (Nat.le_of_eq (by rw [hworkers]))
    rw [hthreads, List.length_set]
  | turns owner turn =>
    refine hs.same rfl ?_ (Nat.le_refl _)
    rw [owner]
    cases turn with
    | creates => exact Nat.le_refl _
    | _ => exact Nat.zero_le _
  | @spawns left owner =>
    obtain ⟨hcount, hhandles⟩ := hs
    rw [owner] at hcount
    have hthreads : (s.addWorker left).threads.length = s.threads.length + 1 :=
      List.length_append
    have hworkers : (s.addWorker left).workers.length = s.workers.length + 1 :=
      List.length_append
    have hnext : (s.addWorker left).owner.toGo = left := toGo_next left
    dsimp only [Owner.toGo] at hcount
    exact ⟨by omega, by omega⟩
  | accepts | rejects | submitFails | receives | requestStop | poison =>
    exact hs.same rfl (Nat.le_refl _) (Nat.le_refl _)
  | stops | collected => exact hs.same rfl (Nat.zero_le _) (Nat.le_refl _)
  | @clears call | @closeFails call | @expires call | @concludes call =>
    cases call <;> exact hs.same rfl (Nat.zero_le _) (Nat.le_refl _)
  | joins owner handle =>
    refine hs.same rfl (Nat.le_refl _) ?_
    rw [handle]
    exact Nat.le_succ _
  | detaches => exact hs.same rfl (Nat.zero_le _) (Nat.zero_le _)

/-- In every run a pool has as many threads as its turns so far, and never more than it was built
with. -/
theorem reaches_manned (h : Reaches Pool.step (· = start count capacity stop) s) :
    s.Manned count := by
  refine h.invariant ?_ fun s a s' hs hstep => step_manned hs hstep
  intro s hs
  subst hs
  refine ⟨?_, Nat.le_refl _⟩
  show 0 + (Owner.next count).toGo ≤ count
  rw [toGo_next, Nat.zero_add]

/-- Every worker has one end at most ahead. -/
theorem unfinished_le (s : Pool Job) : s.unfinished ≤ s.threads.length := by
  unfold unfinished
  induction s.threads with
  | nil => exact Nat.le_refl _
  | cons thread threads ih =>
    have hone : thread.unfinished ≤ 1 := by
      unfold Thread.unfinished
      split
      · exact Nat.zero_le 1
      · exact Nat.le_refl 1
    rw [List.map_cons, List.sum_cons, List.length_cons]
    omega

/-- In every run there is no more to do than for the threads that are or will be there. -/
theorem reaches_load (h : Reaches Pool.step (· = start count capacity stop) s) :
    s.threads.length + s.owner.toGo ≤ count ∧ s.load ≤ 2 * s.threads.length ∧
      s.toll ≤ 5 * s.owner.toGo + 8 + s.load := by
  obtain ⟨hcount, hhandles⟩ := reaches_manned h
  have hpending : s.pending ≤ s.threads.length := by
    rw [(reaches_counted h).pending_eq]
    exact (Finset.card_filter_le _ _).trans (Nat.le_of_eq (Finset.card_range _))
  refine ⟨hcount, ?_, ?_⟩
  · unfold load
    omega
  · unfold toll load
    generalize s.owner = owner
    cases owner with
    | creating left | spawning left =>
      simp only [Owner.toll, Owner.toGo]
      omega
    | closing call | locking call | collecting call | joining call =>
      cases call <;> simp only [Owner.toll, Owner.toGo, Call.toll] <;> omega
    | _ =>
      simp only [Owner.toll, Owner.toGo]
      omega

end

end Pool

/-! ### The service -/

/-- The drop of a pool takes three actions at most. -/
theorem Owner.Dropping.toll_le {owner : Owner} (h : owner.Dropping) (pending workers : Nat) :
    owner.toll pending workers ≤ 3 := by
  cases h <;> simp [Owner.toll]

/-- So does what the listener has ahead. -/
theorem Listener.toll_le {listener : Listener} {main : Main} {tcp : Pool Connection}
    (h : listener.TcpOwner main tcp.owner) : listener.toll tcp ≤ 3 := by
  cases listener with
  | dropping | unwinding => exact h.2.toll_le _ _
  | absent | ended => exact Nat.zero_le _
  | _ => exact Nat.le_refl _

/-- The thread `tcp-listener` drops its pool. -/
def Listener.Drops : Listener → Prop
  | .dropping _ | .unwinding => True
  | _ => False

/-- The thread `tcp-listener` has nothing to do but to drop its pool. -/
def Listener.Ending : Listener → Prop
  | .dropping _ | .unwinding | .ended _ => True
  | _ => False

/-- A listener that is about to drop its pool makes none of the other moves. -/
theorem Listener.Goes.not_ends {listener listener' : Listener} {stop : Bool}
    (h : listener.Goes stop listener') : ¬ listener.Ending := by
  cases h <;> exact id

/-- A listener in `accept_tcp` is not about to drop its pool. -/
theorem Listener.InAccept.not_ends {listener : Listener} (h : listener.InAccept) :
    ¬ listener.Ending := by
  cases h <;> exact id

/-- The main thread is in `tcp_thread.join()`. -/
def Main.Joins : Main → Prop
  | .joining _ _ => True
  | _ => False

/-- The main thread joins the listener only when that has hung up, unless it was told. -/
theorem Main.Goes.joins {main main' : Main} {stop hungUp : Bool} (h : main.Goes stop hungUp main')
    (hjoins : main'.Joins) : hungUp = true := by
  cases h with
  | hangsUp gone => exact gone
  | _ => exact hjoins.elim

/-- The main thread does not turn back on its way out. -/
theorem Main.Moves.still_leaves {s s' : Service} {main main' : Main} (h : main.Moves s s' main')
    (hs : main.Leaves) : s.stop = true ∨ main'.Leaves := by
  cases h with
  | goes goes => exact (goes.toll (.inr hs) s.udp.pool s.tcp.pool).2
  | opensUdp | opensTcp => exact hs.elim
  | completes | joins | dropsTcp | raises | wakes | leaves => exact .inr trivial
  | abortsUdp =>
    unfold abortedUdp
    split <;> exact .inr trivial
  | leavesTcp =>
    unfold leftTcp
    split <;> exact .inr trivial
  | closesUdp =>
    unfold closedUdp
    split <;> exact .inr trivial
  | dropsUdp =>
    unfold droppedUdp
    split <;> exact .inr trivial

/-- The drop of the pool is the last thing the thread does. -/
theorem Listener.ends_dropped (result : Option Outcome) (owner : Owner) :
    (Listener.dropped result owner).Ending := by
  unfold Listener.dropped
  split
  · exact trivial
  · split <;> exact trivial

namespace Service

/-- Actions that wait for nobody else. -/
def Prompt (s : Service) : ServiceAction → Prop
  | .main _ => True
  | .listener _ => s.listener.Drops
  | .udpWorker index _ => ∃ panicked, s.udp.pool.threads[index]? = some ⟨.ending, panicked⟩
  | .tcpWorker index _ => ∃ panicked, s.tcp.pool.threads[index]? = some ⟨.ending, panicked⟩
  | .signal | .poisonUdp | .poisonTcp => False

/-- The main thread joins the thread `tcp-listener` only when that has told that it is done. -/
def Parting (s : Service) : Prop := s.completion = true ∨ s.main.Joins → s.listener.Ending

variable {server : Server} {s s' t : Service} {actor : Actor} {stop : Bool}

/-- A listener that has hung up is over. -/
theorem ends_of_hungUp (h : s.hungUp = true) : s.listener.Ending := by
  unfold hungUp at h
  split at h
  · rename_i ended hlistener
    rw [hlistener]
    exact trivial
  · cases h

/-- An action of the main thread, and what it joins. -/
theorem Parting.main (h : s.Parting) (hlistener : s'.listener = s.listener)
    (hcompletion : s'.completion = true → s.completion = true)
    (hjoins : s'.main.Joins → s.listener.Ending) : s'.Parting := by
  intro hparts
  rw [hlistener]
  exact hparts.elim (fun hsent => h (.inl (hcompletion hsent))) hjoins

/-- Without an end in sight nobody waits for it. -/
theorem Parting.listener (h : s.Parting) (hends : ¬ s.listener.Ending)
    (hcompletion : s'.completion = s.completion) (hmain : s'.main = s.main) : s'.Parting := by
  intro hparts
  rw [hcompletion, hmain] at hparts
  exact (hends (h hparts)).elim

/-- An action of the pool for UDP leaves the threads and the completion channel alone. -/
theorem onUdp_rest {a : Action Datagram} (h : s.onUdp server a = some t) :
    t.listener = s.listener ∧ t.completion = s.completion ∧ t.main = s.main := by
  obtain ⟨crew, -, rfl⟩ := onUdp_eq h
  exact ⟨rfl, rfl, rfl⟩

/-- So does an action of the pool for TCP. -/
theorem onTcp_rest {a : Action Connection} (h : s.onTcp server a = some t) :
    t.listener = s.listener ∧ t.completion = s.completion ∧ t.main = s.main := by
  obtain ⟨crew, -, rfl⟩ := onTcp_eq h
  exact ⟨rfl, rfl, rfl⟩

/-- The main thread acts on the pool for UDP, and does not join. -/
theorem Parting.onUdp {a : Action Datagram} {main : Main} (h : s.Parting)
    (acts : s.onUdp server a = some t) (hmain : ¬ main.Joins) : (t.goto main).Parting := by
  obtain ⟨hlistener, hcompletion, -⟩ := onUdp_rest acts
  exact h.main hlistener (fun hsent => hcompletion.symm.trans hsent) fun hjoins =>
    (hmain hjoins).elim

/-- The main thread acts on the pool for TCP, and does not join. -/
theorem Parting.onTcp {a : Action Connection} {main : Main} (h : s.Parting)
    (acts : s.onTcp server a = some t) (hmain : ¬ main.Joins) : (t.goto main).Parting := by
  obtain ⟨hlistener, hcompletion, -⟩ := onTcp_rest acts
  exact h.main hlistener (fun hsent => hcompletion.symm.trans hsent) fun hjoins =>
    (hmain hjoins).elim

/-- The listener acts before it drops its pool. -/
theorem Parting.serves {a : Action Connection} {listener : Listener} (h : s.Parting)
    (acts : s.onTcp server a = some t) (hends : ¬ s.listener.Ending) :
    (t.listen listener).Parting := by
  obtain ⟨-, hcompletion, hmain⟩ := onTcp_rest acts
  exact h.listener hends hcompletion hmain

/-- One action: the message in the completion channel is sent behind the last use of the pool. -/
theorem Acts.parting (h : Acts server s actor s') (hplaced : s.Placed) (hs : s.Parting) :
    s'.Parting := by
  cases h with
  -- Where the completion channel is not touched and `joining` is not entered there is nothing to
  -- show.
  | mainGoes goes => exact hs.main rfl id fun hjoins => ends_of_hungUp (goes.joins hjoins)
  -- The listener has only been spawned, so its channel is empty.
  | spawns main =>
    have habsent : s.listener = .absent := hplaced.tcp.absent fun hstarted => by
      rw [main] at hstarted
      exact hstarted
    have hends : ¬ s.listener.Ending := by
      rw [habsent]
      exact id
    intro hparts
    exact (hends (hs (.inl (hparts.elim id False.elim)))).elim
  | receives main => exact hs.main rfl id False.elim
  -- The completion is received, and with it the listener was seen at its end.
  | completes main sent => exact hs.main rfl nofun fun _ => hs (.inl sent)
  | joins main => exact hs.main rfl id False.elim
  | @opensUdp event t main acts =>
    refine hs.onUdp acts ?_
    unfold Main.openedUdp
    split
    · exact id
    · split <;> exact id
  | @abortsUdp event t error main acts =>
    refine hs.onUdp acts ?_
    unfold Main.abortedUdp
    split <;> exact id
  | @opensTcp event t main acts =>
    refine hs.onTcp acts ?_
    unfold Main.openedTcp
    split
    · exact id
    · split <;> exact id
  | dropsTcp main acts => exact hs.onTcp acts id
  | @leavesTcp event t error main acts =>
    refine hs.onTcp acts ?_
    unfold Main.leftTcp
    split <;> exact id
  | submitsUdp main acts => exact hs.onUdp acts id
  | @raises result t main acts =>
    show ((t.notify .stopping).goto (.waking result)).Parting
    obtain ⟨hlistener, hcompletion, -⟩ := onUdp_rest acts
    exact hs.main hlistener (fun hsent => hcompletion.symm.trans hsent) False.elim
  | wakes main acts => exact hs.onUdp acts id
  | @closesUdp event t result wake main acts =>
    refine hs.onUdp acts ?_
    cases s.udp.pool.shutdownResult event <;> exact id
  | leaves main acts => exact hs.onUdp acts id
  | @dropsUdp event t result main acts =>
    refine hs.onUdp acts ?_
    unfold Main.droppedUdp
    split <;> exact id
  -- As long as the listener serves, it has sent nothing and dropped nothing.
  | listenerGoes goes => exact hs.listener goes.not_ends rfl rfl
  | arrives listener => exact hs.listener (by rw [listener]; exact id) rfl rfl
  | submitsTcp listener acts => exact hs.serves acts (by rw [listener]; exact id)
  | listenerRaises listener acts => exact hs.serves acts (by rw [listener]; exact id)
  | listenerStops listener acts => exact hs.serves acts (by rw [listener]; exact id)
  | closesTcp listener acts => exact hs.serves acts (by rw [listener]; exact id)
  -- From here on the listener has nothing left but the drop.
  | sends listener acts => exact fun _ => trivial
  | @drops event t result listener acts =>
    exact fun _ => Listener.ends_dropped result t.tcp.pool.owner
  | panics listener acts => exact fun _ => trivial
  | udp foreign acts =>
    obtain ⟨hlistener, hcompletion, hmain⟩ := onUdp_rest acts
    unfold Parting
    rw [hlistener, hcompletion, hmain]
    exact hs
  | tcp foreign acts =>
    obtain ⟨hlistener, hcompletion, hmain⟩ := onTcp_rest acts
    unfold Parting
    rw [hlistener, hcompletion, hmain]
    exact hs

/-- In every run the main thread joins a listener that has nothing left but to drop its pool. -/
theorem reaches_parting (h : Reaches (Service.step server) (· = start stop) s) : s.Parting := by
  induction h with
  | start hs =>
    subst hs
    exact fun hparts => (hparts.elim nofun False.elim : False).elim
  | next before hstep ih => exact (step_acts hstep).parting (reaches_placed before) ih

/-- A service that is to stop does not change its mind. -/
theorem Acts.stopping (h : Acts server s actor s') (hsynced : s.Synced) (hs : s.Stopping) :
    s'.Stopping := by
  rcases hs with hup | hleaves
  · exact .inl (h.touches.stop_raised hsynced hup)
  have hstays : ∀ {main : Main}, s.main = main → ¬ main.Leaves → s'.Stopping :=
    fun heq hnot => (hnot (heq ▸ hleaves)).elim
  cases h.moves with
  | receives main => exact hstays main id
  | submitsUdp main => exact hstays main id
  | spawns main => exact hstays main id
  | arrives => exact .inr hleaves
  | submitsTcp _ _ sets | udp _ _ sets | tcp _ _ sets => exact .inr (sets.main.symm ▸ hleaves)
  | main moves =>
    rcases moves.still_leaves hleaves with hup | hleaves'
    · exact .inl (h.touches.stop_raised hsynced hup)
    · exact .inr hleaves'
  | listener moves main => exact .inr (main.symm ▸ hleaves)

/-! ### Somebody can always go on -/

/-- What the pool for UDP can do, the service can do. -/
theorem onUdp_isSome (server : Server) {a : Action Datagram} {pool : Pool Datagram}
    (h : s.udp.pool.step a = some pool) : ∃ t, s.onUdp server a = some t := by
  unfold onUdp Crew.step
  rw [h]
  exact ⟨_, rfl⟩

/-- What the pool for TCP can do, the service can do. -/
theorem onTcp_isSome (server : Server) {a : Action Connection} {pool : Pool Connection}
    (h : s.tcp.pool.step a = some pool) : ∃ t, s.onTcp server a = some t := by
  unfold onTcp Crew.step
  rw [h]
  exact ⟨_, rfl⟩

/-- An action of the main thread waits for nobody. -/
theorem main_prompt (event : MainEvent) (h : (s.mainStep server event).isSome = true) :
    ∃ a s', s.Prompt a ∧ s.step server a = some s' := by
  obtain ⟨s', hstep⟩ := Option.isSome_iff_exists.mp h
  exact ⟨.main event, s', trivial, hstep⟩

/-- Nor does an action of the listener that drops its pool. -/
theorem listener_prompt (event : ListenerEvent) (hdrops : s.listener.Drops)
    (h : (s.listenerStep server event).isSome = true) :
    ∃ a s', s.Prompt a ∧ s.step server a = some s' := by
  obtain ⟨s', hstep⟩ := Option.isSome_iff_exists.mp h
  exact ⟨.listener event, s', hdrops, hstep⟩

/-- A worker for UDP that is about to end does so. -/
theorem udpWorker_prompt {index : Nat} {panicked : Bool}
    (h : s.udp.pool.threads[index]? = some ⟨.ending, panicked⟩) :
    ∃ a s', s.Prompt a ∧ s.step server a = some s' := by
  obtain ⟨pool, hstep⟩ := Pool.ending_prompt h
  obtain ⟨t, hacts⟩ := onUdp_isSome server hstep
  exact ⟨.udpWorker index .run, t, ⟨panicked, h⟩, hacts⟩

/-- A worker for TCP that is about to end does so. -/
theorem tcpWorker_prompt {index : Nat} {panicked : Bool}
    (h : s.tcp.pool.threads[index]? = some ⟨.ending, panicked⟩) :
    ∃ a s', s.Prompt a ∧ s.step server a = some s' := by
  obtain ⟨pool, hstep⟩ := Pool.ending_prompt h
  obtain ⟨t, hacts⟩ := onTcp_isSome server hstep
  exact ⟨.tcpWorker index .run, t, ⟨panicked, h⟩, hacts⟩

/-- The pool that is serving takes every call. -/
theorem serving_step {Job : Type} {pool : Pool Job} (h : pool.owner = .serving) :
    (∃ s', pool.step .shutdown = some s') ∧ (∃ s', pool.step .drop = some s') ∧
      ∀ job, ∃ s', pool.step (.submit job) = some s' :=
  ⟨⟨_, if_pos h⟩, ⟨_, if_pos h⟩, fun _ => ⟨_, if_pos h⟩⟩

/-- Until `run` has returned, there is an action that waits for nobody. -/
theorem exists_prompt (h : Reaches (Service.step server) (· = start stop) s)
    (hreturned : s.main.result = none) : ∃ a s', s.Prompt a ∧ s.step server a = some s' := by
  obtain ⟨hudp, htcp⟩ := reaches_placed h
  have hparting := reaches_parting h
  have hudpPool := Crew.reaches_pool (reaches_udp h)
  have htcpPool := Crew.reaches_pool (reaches_tcp h)
  -- The pool for TCP is in the hands of the main thread until the listener is spawned.
  have habsent : ¬ s.main.Started → s.main.TcpOwner s.tcp.pool.owner := by
    intro hstarted
    have heq := htcp.absent hstarted
    rw [heq] at htcp
    exact htcp
  cases hmain : s.main with
  | openingUdp =>
    rw [hmain] at hudp
    obtain ⟨event, pool, hstep⟩ := Pool.building_prompt hudp
    obtain ⟨t, hacts⟩ := onUdp_isSome server hstep
    exact main_prompt (.owner event) (by simp [mainStep, hmain, hacts])
  | abortingUdp error =>
    rw [hmain] at hudp
    rcases Pool.aborting_prompt hudpPool hudp with ⟨event, pool, hstep⟩ | ⟨index, panicked, hthread⟩
    · obtain ⟨t, hacts⟩ := onUdp_isSome server hstep
      exact main_prompt (.owner event) (by simp [mainStep, hmain, hacts])
    · exact udpWorker_prompt hthread
  | openingTcp =>
    rw [hmain] at habsent
    obtain ⟨event, pool, hstep⟩ := Pool.building_prompt (habsent id)
    obtain ⟨t, hacts⟩ := onTcp_isSome server hstep
    exact main_prompt (.owner event) (by simp [mainStep, hmain, hacts])
  | addressing => exact main_prompt (.address none) (by simp [mainStep, hmain])
  | spawning => exact main_prompt (.spawn none) (by simp [mainStep, hmain])
  | leavingTcp error =>
    rw [hmain] at habsent
    rcases Pool.aborting_prompt htcpPool (habsent id) with ⟨event, pool, hstep⟩ |
      ⟨index, panicked, hthread⟩
    · obtain ⟨t, hacts⟩ := onTcp_isSome server hstep
      exact main_prompt (.owner event) (by simp [mainStep, hmain, hacts])
    · exact tcpWorker_prompt hthread
  | looking => exact main_prompt .go (by simp [mainStep, hmain])
  | receiving =>
    -- `recv_from` has a time limit, and its error is transient.
    have htransient : transient .wouldBlock = true := rfl
    exact main_prompt (.receive (.error .wouldBlock) 0)
      (by simp [mainStep, hmain, htransient])
  | received datagram => exact main_prompt .go (by simp [mainStep, hmain])
  | submitting datagram =>
    rw [hmain] at hudp
    obtain ⟨pool, hstep⟩ := (serving_step hudp).2.2 datagram
    obtain ⟨t, hacts⟩ := onUdp_isSome server hstep
    exact main_prompt .go (by simp [mainStep, hmain, hacts])
  | raising result =>
    obtain ⟨t, hacts⟩ := onUdp_isSome server (s := s) (a := .requestStop) rfl
    exact main_prompt .go (by simp [mainStep, hmain, hacts])
  | waking result =>
    rw [hmain] at hudp
    obtain ⟨pool, hstep⟩ := (serving_step hudp).1
    obtain ⟨t, hacts⟩ := onUdp_isSome server hstep
    exact main_prompt (.connect none) (by simp [mainStep, hmain, hacts])
  | closingUdp result wake =>
    rw [hmain] at hudp
    rcases Pool.shuts_prompt hudpPool hudp with ⟨event, pool, hstep⟩ | ⟨index, panicked, hthread⟩
    · obtain ⟨t, hacts⟩ := onUdp_isSome server hstep
      exact main_prompt (.owner event) (by simp [mainStep, hmain, hacts])
    · exact udpWorker_prompt hthread
  | awaiting result workers wake =>
    -- Either there is a message, or the listener hung up, or the wait ends at its deadline.
    cases hsent : s.completion with
    | true => exact main_prompt .go (by simp [mainStep, hmain, hsent])
    | false =>
      cases hhung : s.hungUp with
      | true => exact main_prompt .go (by simp [mainStep, hmain, hsent, hhung])
      | false => exact main_prompt .expire (by simp [mainStep, hmain, hsent, hhung])
  | joining result workers =>
    have hends : s.listener.Ending := hparting (.inr (by rw [hmain]; exact trivial))
    cases hlistener : s.listener with
    | ended left =>
      refine main_prompt .go ?_
      simp only [mainStep, hmain, hlistener]
      split <;> rfl
    | dropping ended =>
      rw [hlistener] at htcp
      obtain ⟨event, pool, hstep⟩ := Pool.dropping_prompt htcp.2
      obtain ⟨t, hacts⟩ := onTcp_isSome server hstep
      exact listener_prompt (.owner event) (by rw [hlistener]; exact trivial)
        (by simp [listenerStep, hlistener, hacts])
    | unwinding =>
      rw [hlistener] at htcp
      obtain ⟨event, pool, hstep⟩ := Pool.dropping_prompt htcp.2
      obtain ⟨t, hacts⟩ := onTcp_isSome server hstep
      exact listener_prompt (.owner event) (by rw [hlistener]; exact trivial)
        (by simp [listenerStep, hlistener, hacts])
    | _ =>
      rw [hlistener] at hends
      exact hends.elim
  | leaving result =>
    rw [hmain] at hudp
    obtain ⟨pool, hstep⟩ := (serving_step hudp).2.1
    obtain ⟨t, hacts⟩ := onUdp_isSome server hstep
    exact main_prompt .go (by simp [mainStep, hmain, hacts])
  | droppingUdp result =>
    rw [hmain] at hudp
    obtain ⟨event, pool, hstep⟩ := Pool.dropping_prompt hudp
    obtain ⟨t, hacts⟩ := onUdp_isSome server hstep
    exact main_prompt (.owner event) (by simp [mainStep, hmain, hacts])
  | returned result =>
    rw [hmain] at hreturned
    cases hreturned

/-! ### The end of every run -/

/-- The end of a thread lowers the toll. -/
theorem udpWorker_toll {index : Nat} {move : Move} {panicked : Bool}
    (hthread : s.udp.pool.threads[index]? = some ⟨.ending, panicked⟩)
    (h : s.onUdp server (.worker index move) = some s') : s'.toll < s.toll := by
  obtain ⟨acts, sets⟩ := onUdp_acts h
  obtain ⟨htoll, hload, -⟩ := Pool.Foreign.toll (.worker index move) acts.step
  have hless := Pool.unfinished_ending hthread acts.step
  unfold Service.toll
  rw [sets.main, sets.listener, s.main.toll_congr htoll hload acts.tcp_toll,
    s.listener.toll_congr acts.tcp_toll, acts.tcp_unfinished]
  omega

/-- The end of a worker for TCP lowers the toll. -/
theorem tcpWorker_toll {index : Nat} {move : Move} {panicked : Bool}
    (hthread : s.tcp.pool.threads[index]? = some ⟨.ending, panicked⟩)
    (h : s.onTcp server (.worker index move) = some s') : s'.toll < s.toll := by
  obtain ⟨acts, sets⟩ := onTcp_acts h
  obtain ⟨htoll, -, -⟩ := Pool.Foreign.toll (.worker index move) acts.step
  have hless := Pool.unfinished_ending hthread acts.step
  unfold Service.toll
  rw [sets.main, sets.listener, s.main.toll_congr acts.udp_toll acts.udp_load htoll,
    s.listener.toll_congr htoll, acts.udp_unfinished]
  omega

/-- The workers of both pools, and what is to do for them, are the whole toll. -/
theorem toll_le (h : Reaches (Service.step server) (· = start stop) s) : s.toll ≤ 154 := by
  obtain ⟨hudpCount, hudpLoad, hudpToll⟩ := Pool.reaches_load (Crew.reaches_pool (reaches_udp h))
  obtain ⟨htcpCount, htcpLoad, htcpToll⟩ := Pool.reaches_load (Crew.reaches_pool (reaches_tcp h))
  have hudpUnfinished := Pool.unfinished_le s.udp.pool
  have htcpUnfinished := Pool.unfinished_le s.tcp.pool
  obtain ⟨hudp, htcp⟩ := reaches_placed h
  have hlistener : ¬ s.main.Started → s.listener.toll s.tcp.pool = 0 := by
    intro hstarted
    rw [htcp.absent hstarted]
    rfl
  have hdrops : s.listener.toll s.tcp.pool ≤ 3 := Listener.toll_le htcp
  unfold Service.toll
  unfold udpWorkers at hudpCount
  unfold tcpWorkers at htcpCount
  cases hmain : s.main with
  | openingUdp | abortingUdp | openingTcp | addressing | spawning | leavingTcp =>
    rw [hmain] at hlistener
    have hnone := hlistener id
    simp only [Main.toll]
    omega
  | _ =>
    simp only [Main.toll]
    omega

/-- The service as an instance of the rule of progress: while it is to stop and has not returned, a
prompt action exists, each of them lowers the toll, and no other action raises it. -/
theorem progress (server : Server) (stop : Bool) :
    Progress (Service.step server) Prompt (fun s => s.main.result ≠ none)
      (fun s => Reaches (Service.step server) (· = start stop) s ∧ s.Stopping) toll where
  keeps := by
    intro s a s' ⟨h, hstopping⟩ hstep
    exact ⟨h.next hstep, (step_acts hstep).stopping (reaches_synced h) hstopping⟩
  descends := by
    intro s a s' ⟨h, hstopping⟩ hstep
    have htoll := (step_acts hstep).moves.toll (reaches_placed h) hstopping
    exact (Nat.le_add_right _ _).trans htoll
  lowers := by
    intro s a s' ⟨h, hstopping⟩ hstep hprompt
    have htoll := (step_acts hstep).moves.toll (reaches_placed h) hstopping
    cases a with
    -- Every action of the main thread is prompt.
    | main event => exact htoll
    | listener event =>
      have hprice : (ServiceAction.listener event).actor.price s.listener = 1 := by
        show Actor.price s.listener .listener = 1
        unfold Actor.price
        have hdrops : s.listener.Drops := hprompt
        generalize s.listener = listener at hdrops
        cases listener with
        | dropping | unwinding => rfl
        | _ => exact hdrops.elim
      rw [hprice] at htoll
      exact htoll
    | udpWorker index move =>
      obtain ⟨panicked, hthread⟩ := hprompt
      exact udpWorker_toll hthread hstep
    | tcpWorker index move =>
      obtain ⟨panicked, hthread⟩ := hprompt
      exact tcpWorker_toll hthread hstep
    | signal | poisonUdp | poisonTcp => exact hprompt.elim
  enabled := by
    intro s ⟨h, _⟩ hreturned
    exact exists_prompt h (not_not.mp hreturned)

/-- `run` returns from here, whatever the workers and the clients do. -/
structure Returns (server : Server) (s : Service) : Prop where
  /-- There are no more than so many prompt actions in any run. -/
  bounded : ∀ n s', Lasts (Service.step server) Prompt s n s' → n ≤ 154
  /-- Until `run` has returned there is one to perform. -/
  enabled : ∀ s', Reaches (Service.step server) (· = s) s' → s'.main.result = none →
    ∃ a s'', s'.Prompt a ∧ s'.step server a = some s''
  /-- So it returns, unless the threads are not given any time. -/
  fair : ∀ (run : Nat → Service) (actions : Nat → ServiceAction), run 0 = s →
    (∀ i, (run i).step server (actions i) = some (run (i + 1))) →
    (∀ i, (run i).main.result = none → ∃ j, i ≤ j ∧ (run j).Prompt (actions j)) →
    ∃ i result, (run i).main = .returned result

/-- Once the stop flag is up, or the main thread leaves by itself, `run` returns. -/
theorem run_returns (h : Reaches (Service.step server) (· = start stop) s)
    (hstopping : s.Stopping) : s.Returns server where
  bounded := by
    intro n s' hlasts
    have hpaid := ((progress server stop).bounded ⟨h, hstopping⟩ hlasts).2
    have hle := toll_le h
    omega
  enabled := by
    intro s' hlater hreturned
    exact exists_prompt (h.trans hlater) hreturned
  fair := by
    intro run actions hrun hstep hfair
    subst hrun
    obtain ⟨i, hdone⟩ := (progress server stop).fair_done ⟨h, hstopping⟩ hstep
      fun i hi => hfair i (not_not.mp hi)
    obtain ⟨result, hresult⟩ := Option.ne_none_iff_exists'.mp hdone
    exact ⟨i, result, Main.result_eq_some hresult⟩

/-- A worker has a datagram in hand, and may keep it forever, when a signal arrives. -/
def busyRun : List ServiceAction :=
  boot ++ [.main .go, .main (.receive (.ok (Dns.rootQuery.wire, someClient)) 0), .main .go,
    .main .go] ++ List.replicate 5 (.udpWorker 0 .run) ++ [.signal]

/-- The stop flag is up while a worker is busy with a job, and the service still returns. -/
theorem run_returns_busyWorker : ∃ s, runActions (Service.step idleServer) (start false) busyRun =
      some s ∧ s.stop = true ∧ s.udp.pool.pending = 8 ∧ s.Returns idleServer := by
  have hend : (runActions (Service.step idleServer) (start false) busyRun).map (fun s =>
      (s.stop, s.udp.pool.pending)) = some (true, 8) := by
    decide +kernel
  obtain ⟨s, hs, heq⟩ := Option.map_eq_some_iff.mp hend
  simp only [Prod.mk.injEq] at heq
  exact ⟨s, hs, heq.1, heq.2, run_returns (Reaches.of_run (.start rfl) hs) (.inl heq.1)⟩

end Service

end Sederial
