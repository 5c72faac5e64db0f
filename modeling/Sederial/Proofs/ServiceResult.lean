import Sederial.Proofs.ServiceIntake

/-!
# `Sederial.Proofs.ServiceResult`: what the result of the service means

`Server::run` returns `Ok` at one place, behind the results of the receive loop, of the shutdown
of the workers for UDP, and of the thread `tcp-listener`. `run_clean` says what the caller then
knows: both listeners left their loops because of the stop flag, every worker of both pools is
over, none of them panicked, and no accepted job is left behind.

`Settled` is what a clean `shutdown` establishes, and no later action of anyone changes it.
`Doomed` is the other side: a failure that no later action removes. `failure_reported` follows from
the two.
-/

set_option autoImplicit false

namespace Sederial

open Sederial.Lib

variable {Job : Type}

namespace Pool

/-- Everything a clean shutdown leaves behind, whatever happens later. -/
structure Settled (s : Pool Job) : Prop where
  finished : ∀ (worker : Nat) (thread : Thread Job), s.threads[worker]? = some thread →
    ∃ clean, thread.phase = .finished clean
  noPanic : ∀ worker, .panicked worker ∉ s.log
  noLockFailure : ∀ worker, .lockFailed (some worker) ∉ s.log
  closed : s.jobs.closed = true
  empty : s.jobs.queue = []
  built : ¬ s.owner.Building

section

variable {s s' : Pool Job}

/-- The loop of `Pool::new` is not entered again. -/
theorem step_built {a : Action Job} (h : s.step a = some s') (hs : ¬ s.owner.Building) :
    ¬ s'.owner.Building := by
  cases step_acts h with
  | works found works => rwa [works.frame.2.2.1]
  | turns owner turn =>
    cases turn with
    | creates => exact (hs (owner ▸ .creating _)).elim
    | _ => exact nofun
  | spawns owner => exact (hs (owner ▸ .spawning _)).elim
  | accepts | rejects | submitFails | receives | joins | requestStop | poison => exact hs
  | stops | collected | detaches => exact nofun
  | @clears call | @closeFails call =>
    show ¬ call.closed.Building
    cases call <;> exact nofun
  | @expires call | @concludes call =>
    show ¬ call.after.Building
    cases call <;> exact nofun

/-- The pool of which `shutdown` returned `Ok`. -/
theorem Clean.settled (h : s.Clean) (howner : ¬ s.owner.Building) : s.Settled where
  finished := h.finished
  noPanic := h.noPanic
  noLockFailure := fun worker => h.noLockFailure (some worker)
  closed := h.closed
  empty := h.empty
  built := howner

/-- The threads and the queue stay, and something harmless is recorded. -/
theorem Settled.record {events : List (PoolEvent Job)} (h : s.Settled)
    (hbuilt : ¬ s'.owner.Building) (hthreads : s'.threads = s.threads)
    (hlog : s'.log = s.log ++ events) (hclosed : s'.jobs.closed = true)
    (hempty : s'.jobs.queue = []) (hpanics : ∀ worker, .panicked worker ∉ events)
    (hlocks : ∀ worker, .lockFailed (some worker) ∉ events) : s'.Settled := by
  refine ⟨?_, fun worker hmem => ?_, fun worker hmem => ?_, hclosed, hempty, hbuilt⟩
  · rw [hthreads]
    exact h.finished
  · rw [hlog] at hmem
    rcases List.mem_append.mp hmem with hmem | hmem
    · exact h.noPanic worker hmem
    · exact hpanics worker hmem
  · rw [hlog] at hmem
    rcases List.mem_append.mp hmem with hmem | hmem
    · exact h.noLockFailure worker hmem
    · exact hlocks worker hmem

/-- A settled pool stays settled. -/
theorem Settled.step {a : Action Job} (hs : s.Settled) (h : s.step a = some s') : s'.Settled := by
  have hbuilt := step_built h hs.built
  have hnil : s.log = s.log ++ [] := (List.append_nil _).symm
  have hacts := step_acts h
  cases hacts with
  | works found works =>
    obtain ⟨clean, hphase⟩ := hs.finished _ _ found
    exact (works.not_finished clean hphase).elim
  | spawns owner => exact (hs.built (owner ▸ .spawning _)).elim
  | accepts owner opened => exact nomatch hs.closed.symm.trans opened
  | rejects | receives | expires | concludes =>
    exact hs.record hbuilt rfl rfl hs.closed hs.empty (by simp) (by simp)
  | submitFails =>
    exact hs.record hbuilt rfl (List.append_assoc ..) hs.closed hs.empty (by simp) (by simp)
  | clears => exact hs.record hbuilt rfl rfl rfl rfl (by simp) (by simp)
  | closeFails => exact hs.record hbuilt rfl rfl hs.closed hs.empty (by simp) (by simp)
  | turns | stops | collected | joins | detaches | requestStop | poison =>
    exact hs.record hbuilt rfl hnil hs.closed hs.empty nofun nofun

/-- `shutdown` returns `Ok` from a pool that is settled. -/
theorem settled_of_ok {count capacity : Nat} {stop : Bool} {event : OwnerEvent}
    (h : Reaches Pool.step (· = start count capacity stop) s)
    (hstep : s.step event.action = some s') (hshuts : Shuts .shutdown s.owner)
    (hok : s.shutdownResult event = some (.ok ())) : s'.Settled := by
  rcases hshuts.step rfl hstep with ⟨hnone, -⟩ | ⟨result, hsome, rfl⟩
  · rw [hnone] at hok
    cases hok
  · rw [hsome, Option.some.injEq] at hok
    subst hok
    have hlog : (s.conclude .shutdown (.ok ())).log = s.log ++ [.returned (.ok ())] := rfl
    exact (clean_of_ok h hstep hlog (List.mem_singleton.mpr rfl)).settled nofun

end

end Pool

/-- A settled pool of a crew stays settled in every run from there. -/
theorem Crew.settled {W : Type} {worker : Worker W Job} {initial : Nat → W} {s s' : Crew W Job}
    (h : Reaches (Crew.step worker initial) (· = s) s') (hs : s.pool.Settled) :
    s'.pool.Settled := by
  refine h.invariant (I := fun t => t.pool.Settled) (fun t ht => ?_)
    fun t a t' ht hstep => ht.step (Crew.step_pool hstep).1
  rw [ht]
  exact hs

/-! ### What the phases of the threads say -/

/-- What the main thread has learned on its way out. -/
def Main.Reports (s : Service) : Main → Prop
  | .waking _ | .closingUdp _ _ => s.stop = true
  | .awaiting _ workers _ | .joining _ workers =>
    s.stop = true ∧ (workers = .ok () → s.udp.pool.Settled)
  | .leaving result | .droppingUdp result | .returned result => result = .ok () →
    s.stop = true ∧ s.udp.pool.Settled ∧ s.tcp.pool.Settled ∧ s.listener = .ended (some (.ok ()))
  | _ => True

/-- What the TCP listener has learned on its way out. -/
def Listener.Reports (s : Service) : Listener → Prop
  | .completing result | .dropping result | .ended (some result) =>
    result = .ok () → s.tcp.pool.Settled
  | _ => True

/-- Two outcomes joined by `and` are `Ok` when both are. -/
theorem Outcome.and_eq_ok {first second : Outcome} :
    first.and second = .ok () ↔ first = .ok () ∧ second = .ok () := by
  cases first with
  | error error => exact ⟨nofun, nofun⟩
  | ok value => exact ⟨fun h => ⟨rfl, h⟩, fun h => h.2⟩

/-- What no action takes back. -/
structure Service.Retains (s s' : Service) : Prop where
  stop : s.stop = true → s'.stop = true
  udp : s.udp.pool.Settled → s'.udp.pool.Settled
  tcp : s.tcp.pool.Settled → s'.tcp.pool.Settled
  listener : ∀ result, s.listener = .ended result → s'.listener = .ended result

section

variable {s s' : Service}

/-- What the main thread has learned stays true. -/
theorem Main.Reports.mono {main : Main} (h : main.Reports s) (hkept : s.Retains s') :
    main.Reports s' := by
  cases main with
  | waking | closingUdp => exact hkept.stop h
  | awaiting | joining => exact ⟨hkept.stop h.1, fun hok => hkept.udp (h.2 hok)⟩
  | leaving | droppingUdp | returned =>
    intro hok
    obtain ⟨hraised, hsettled, hsettled', hlistener⟩ := h hok
    exact ⟨hkept.stop hraised, hkept.udp hsettled, hkept.tcp hsettled',
      hkept.listener _ hlistener⟩
  | _ => trivial

/-- What the listener has learned stays true. -/
theorem Listener.Reports.mono {listener : Listener} (h : listener.Reports s)
    (hkept : s.Retains s') : listener.Reports s' := by
  cases listener with
  | completing | dropping => exact fun hok => hkept.tcp (h hok)
  | ended result =>
    cases result with
    | none => trivial
    | some result => exact fun hok => hkept.tcp (h hok)
  | _ => trivial

/-- A move that touches nothing but the program counter of the main thread learns nothing new. -/
theorem Main.Goes.reports {main main' : Main} {stop hungUp : Bool}
    (h : main.Goes stop hungUp main') (hs : main.Reports s) (hkept : s.Retains s') :
    main'.Reports s' := by
  cases h with
  | hangsUp => exact ⟨hkept.stop hs.1, fun hok => hkept.udp (hs.2 hok)⟩
  | expires =>
    intro hok
    exact nomatch (Outcome.and_eq_ok.mp hok).2
  | _ => trivial

/-- Nor does such a move of the listener. -/
theorem Listener.Goes.reports {listener listener' : Listener} {stop : Bool}
    (h : listener.Goes stop listener') (s : Service) : listener'.Reports s := by
  cases h <;> trivial

/-- What the main thread learns with one move. -/
theorem Main.Moves.reports {main main' : Main} {stop : Bool} (h : main.Moves s s' main')
    (hs : main.Reports s) (hlistener : s.listener.Reports s)
    (howner : main.UdpOwner s.udp.pool.owner)
    (hreaches : Reaches Pool.step (· = Pool.start udpWorkers udpQueue stop) s.udp.pool)
    (hkept : s.Retains s') : main'.Reports s' := by
  cases h with
  | goes goes => exact goes.reports hs hkept
  | completes =>
    have hreports := hs.mono hkept
    exact hreports
  | @joins result workers left listener =>
    -- The one place where a result can be `Ok`.
    intro hok
    obtain ⟨hboth, hended⟩ := Outcome.and_eq_ok.mp hok
    obtain ⟨-, hworkers⟩ := Outcome.and_eq_ok.mp hboth
    have hfinished : left = some (.ok ()) := by
      cases left with
      | none => cases hended
      | some result => exact congrArg some hended
    rw [listener, hfinished] at hlistener
    exact ⟨hkept.stop hs.1, hkept.udp (hs.2 hworkers), hkept.tcp (hlistener rfl),
      hkept.listener _ (hfinished ▸ listener)⟩
  | opensUdp =>
    unfold openedUdp
    split
    · trivial
    · split <;> trivial
  | abortsUdp =>
    unfold abortedUdp
    split
    · exact nofun
    · trivial
  | opensTcp =>
    unfold openedTcp
    split
    · trivial
    · split <;> trivial
  | dropsTcp => trivial
  | leavesTcp =>
    unfold leftTcp
    split
    · exact nofun
    · trivial
  | raises acts =>
    have hraised : { s.udp.pool with stop := true } = s'.udp.pool := Option.some.inj acts.step
    show s'.udp.pool.stop = true
    rw [← hraised]
  | wakes =>
    have hreports := hs.mono hkept
    exact hreports
  | @closesUdp event result wake acts =>
    have hraised := hkept.stop hs
    cases hresult : s.udp.pool.shutdownResult event with
    | none => exact hraised
    | some workers =>
      refine ⟨hraised, fun hok => ?_⟩
      subst hok
      exact Pool.settled_of_ok hreaches acts.step howner hresult
  | leaves =>
    have hreports := hs.mono hkept
    exact hreports
  | dropsUdp =>
    have hreports := hs.mono hkept
    unfold droppedUdp
    split <;> exact hreports

/-- What the TCP listener learns with one move. -/
theorem Listener.Moves.reports {listener listener' : Listener} {main : Main} {stop : Bool}
    (h : listener.Moves s s' listener') (hs : listener.Reports s)
    (howner : listener.TcpOwner main s.tcp.pool.owner)
    (hreaches : Reaches Pool.step (· = Pool.start tcpWorkers tcpQueue stop) s.tcp.pool)
    (hkept : s.Retains s') : listener'.Reports s' := by
  cases h with
  | goes goes => exact goes.reports s'
  | raises | stops | panics => trivial
  | @closes event result acts =>
    cases hresult : s.tcp.pool.shutdownResult event with
    | none => trivial
    | some workers =>
      intro hok
      obtain ⟨-, hworkers⟩ := Outcome.and_eq_ok.mp hok
      subst hworkers
      exact Pool.settled_of_ok hreaches acts.step howner.2 hresult
  | sends =>
    have hreports := hs.mono hkept
    exact hreports
  | @drops event result acts =>
    have hreports := hs.mono hkept
    cases result with
    | none =>
      unfold dropped
      split <;> trivial
    | some result =>
      unfold dropped
      split <;> exact hreports

/-- A thread that is over does not move. -/
theorem Listener.Moves.not_ended {result : Option Outcome} {listener : Listener} :
    ¬ (ended result).Moves s s' listener := by
  intro h
  generalize hended : ended result = before at h
  cases h with
  | goes goes => cases goes <;> cases hended
  | raises | stops | closes | sends => cases hended
  | @drops event dropped => cases dropped <;> cases hended
  | panics accepts => cases accepts <;> cases hended

end

namespace Service

open Pool (Settled)

/-- What the phases say is so. -/
structure Reported (s : Service) : Prop where
  main : s.main.Reports s
  listener : s.listener.Reports s

variable {server : Server} {s s' : Service} {actor : Actor}

/-- A thread that is over stays over. -/
theorem Moves.ended (h : s.Moves actor s') {result : Option Outcome}
    (hended : s.listener = .ended result) (hplaced : s.Placed) : s'.listener = .ended result := by
  cases h with
  | receives => exact hended
  | submitsUdp _ _ sets | udp _ _ sets | tcp _ _ sets => exact sets.listener.trans hended
  | arrives listener | submitsTcp listener => exact nomatch listener.symm.trans hended
  | spawns main => exact nomatch (hplaced.absent main).symm.trans hended
  | main moves listener => exact listener.trans hended
  | listener moves =>
    rw [hended] at moves
    exact moves.not_ended.elim

/-- An action takes none of the four facts back. -/
theorem Acts.retains (h : Acts server s actor s') (hsync : s.Synced) (hplaced : s.Placed) :
    s.Retains s' where
  stop := h.touches.stop_raised hsync
  udp := Crew.settled (h.touches.udp_reaches hsync)
  tcp := Crew.settled (h.touches.tcp_reaches hsync)
  listener := fun _ hended => h.moves.ended hended hplaced

/-- One action keeps what the threads have learned. -/
theorem Acts.reported {stop : Bool} (before : Reaches (Service.step server) (· = start stop) s)
    (h : Acts server s actor s') (hs : s.Reported) : s'.Reported := by
  have hplaced := reaches_placed before
  have hkept := h.retains (reaches_synced before) hplaced
  have hmain := hs.main.mono hkept
  have hlistener := hs.listener.mono hkept
  cases h.moves with
  | receives => exact ⟨trivial, hlistener⟩
  | submitsUdp _ _ sets => exact ⟨trivial, sets.listener.symm ▸ hlistener⟩
  | arrives => exact ⟨hmain, trivial⟩
  | submitsTcp _ _ sets => exact ⟨sets.main.symm ▸ hmain, trivial⟩
  | spawns => exact ⟨trivial, trivial⟩
  | main moves listener =>
    have hreaches := Crew.reaches_pool (reaches_udp before)
    exact ⟨moves.reports hs.main hs.listener hplaced.udp hreaches hkept,
      listener.symm ▸ hlistener⟩
  | listener moves main =>
    have hreaches := Crew.reaches_pool (reaches_tcp before)
    exact ⟨main.symm ▸ hmain, moves.reports hs.listener hplaced.tcp hreaches hkept⟩
  | udp _ _ sets | tcp _ _ sets =>
    exact ⟨sets.main.symm ▸ hmain, sets.listener.symm ▸ hlistener⟩

/-- In every run the threads are right about what they have learned. -/
theorem reaches_reported {stop : Bool} (h : Reaches (Service.step server) (· = start stop) s) :
    s.Reported := by
  induction h with
  | start hs =>
    subst hs
    exact ⟨trivial, trivial⟩
  | next before hstep ih => exact (step_acts hstep).reported before ih

end Service

/-! ### Failures -/

/-- The main thread has met a failure. -/
def Main.Bears : Main → Prop
  | .abortingUdp _ | .leavingTcp _ => True
  | .raising result | .waking result | .closingUdp result _ | .leaving result
  | .droppingUdp result | .returned result => result ≠ .ok ()
  | .awaiting result workers _ | .joining result workers => result ≠ .ok () ∨ workers ≠ .ok ()
  | _ => False

/-- The error of the receive loop, before it is reported. -/
def Main.error : Main → Option IoError
  | .raising (.error error) => some error
  | _ => none

/-- An error of the receive loop is a failure in hand. -/
theorem Main.bears_of_error {main : Main} {e : IoError} (h : main.error = some e) :
    main.Bears := by
  unfold Main.error at h
  split at h
  · exact nofun
  · cases h

/-- The TCP listener has met a failure. -/
def Listener.Bears : Listener → Prop
  | .raising result | .stopped result | .closing result | .completing result | .dropping result =>
    result ≠ .ok ()
  | .unwinding => True
  | .ended result => result ≠ some (.ok ())
  | _ => False

/-- Two outcomes joined by `and` fail when one does. -/
theorem Outcome.and_ne_ok {first second : Outcome} (h : first ≠ .ok () ∨ second ≠ .ok ()) :
    first.and second ≠ .ok () := by
  intro hok
  obtain ⟨hfirst, hsecond⟩ := Outcome.and_eq_ok.mp hok
  exact h.elim (· hfirst) (· hsecond)

/-- A move that touches nothing but the program counter carries the failure of the main thread
along. -/
theorem Main.Goes.bears {main main' : Main} {stop hungUp : Bool} (h : main.Goes stop hungUp main')
    (hs : main.Bears) : main'.Bears := by
  cases h with
  | hangsUp => exact hs
  | expires => exact Outcome.and_ne_ok (.inr nofun)
  | _ => exact hs.elim

/-- So it does for the listener. -/
theorem Listener.Goes.bears {listener listener' : Listener} {stop : Bool}
    (h : listener.Goes stop listener') (hs : listener.Bears) : listener'.Bears := by
  cases h <;> exact hs.elim

/-- The moves of the main thread carry its failure along. -/
theorem Main.Moves.bears {s s' : Service} {main main' : Main} (h : main.Moves s s' main')
    (hs : main.Bears) : main'.Bears := by
  cases h with
  | goes goes => exact goes.bears hs
  | opensUdp | opensTcp => exact hs.elim
  | completes | raises | wakes | leaves => exact hs
  | joins => exact Outcome.and_ne_ok (.inl (Outcome.and_ne_ok hs))
  | abortsUdp =>
    unfold abortedUdp
    split
    · exact nofun
    · trivial
  | dropsTcp => trivial
  | leavesTcp =>
    unfold leftTcp
    split
    · exact nofun
    · trivial
  | closesUdp =>
    unfold closedUdp
    split
    · exact .inl hs
    · exact hs
  | dropsUdp =>
    unfold droppedUdp
    split <;> exact hs

/-- The moves of the listener carry its failure along. -/
theorem Listener.Moves.bears {s s' : Service} {listener listener' : Listener}
    (h : listener.Moves s s' listener') (hs : listener.Bears) : listener'.Bears := by
  cases h with
  | goes goes => exact goes.bears hs
  | raises | stops | sends => exact hs
  | closes =>
    unfold closed
    split
    · exact Outcome.and_ne_ok (.inl hs)
    · exact hs
  | @drops event result =>
    cases result with
    | none =>
      unfold dropped
      split
      · exact nofun
      · trivial
    | some result =>
      unfold dropped
      split
      · exact fun heq => hs (Option.some.inj heq)
      · exact hs
  | panics => trivial

namespace Service

variable {server : Server} {s s' : Service} {actor : Actor} {stop : Bool}

/-- Something went wrong: at the start, in a listener, or in a worker of one of the pools. -/
inductive Failed (s : Service) : Prop
  | main (bears : s.main.Bears)
  | listener (bears : s.listener.Bears)
  | udpWorker (worker : Nat) (panicked : .panicked worker ∈ s.udp.pool.log)
  | udpLock (worker : Nat) (failed : .lockFailed (some worker) ∈ s.udp.pool.log)
  | tcpWorker (worker : Nat) (panicked : .panicked worker ∈ s.tcp.pool.log)
  | tcpLock (worker : Nat) (failed : .lockFailed (some worker) ∈ s.tcp.pool.log)

/-- A failure of the main thread stays in its hands. -/
theorem Moves.bears (h : s.Moves actor s') (hs : s.main.Bears) : s'.main.Bears := by
  have hfrom : ∀ {main}, s.main = main → main.Bears := fun heq => heq ▸ hs
  cases h with
  | receives main | submitsUdp main | spawns main => exact (hfrom main).elim
  | arrives => exact hs
  | submitsTcp _ _ sets | udp _ _ sets | tcp _ _ sets => exact sets.main.symm ▸ hs
  | main moves => exact moves.bears hs
  | listener moves main => exact main.symm ▸ hs

/-- A failure of the TCP listener stays in its hands. -/
theorem Moves.listener_bears (h : s.Moves actor s') (hplaced : s.Placed)
    (hs : s.listener.Bears) : s'.listener.Bears := by
  have hfrom : ∀ {listener}, s.listener = listener → listener.Bears := fun heq => heq ▸ hs
  cases h with
  | receives => exact hs
  | submitsUdp _ _ sets | udp _ _ sets | tcp _ _ sets => exact sets.listener.symm ▸ hs
  | arrives listener | submitsTcp listener => exact (hfrom listener).elim
  | spawns main => exact (hfrom (hplaced.absent main)).elim
  | main moves listener => exact listener.symm ▸ hs
  | listener moves => exact moves.bears hs

end Service

/-- The log of a pool only grows. -/
theorem Crew.log_grows {W : Type} {worker : Worker W Job} {initial : Nat → W} {s s' : Crew W Job}
    (h : Reaches (Crew.step worker initial) (· = s) s') {e : PoolEvent Job}
    (he : e ∈ s.pool.log) : e ∈ s'.pool.log := by
  refine h.invariant (I := fun t => e ∈ t.pool.log) (fun t ht => ?_) fun t a t' ht hstep => ?_
  · rw [ht]
    exact he
  · obtain ⟨events, hlog, -⟩ := (Pool.step_acts (step_pool hstep).1).events
    rw [hlog]
    exact List.mem_append.mpr (.inl ht)

namespace Service

variable {server : Server} {s s' : Service} {stop : Bool}

/-- One action keeps a failure. -/
theorem Acts.failed (before : Reaches (Service.step server) (· = start stop) s)
    {actor : Actor} (h : Acts server s actor s') (hs : s.Failed) : s'.Failed := by
  have hsync := reaches_synced before
  have hudp : ∀ {e}, e ∈ s.udp.pool.log → e ∈ s'.udp.pool.log :=
    Crew.log_grows (h.touches.udp_reaches hsync)
  have htcp : ∀ {e}, e ∈ s.tcp.pool.log → e ∈ s'.tcp.pool.log :=
    Crew.log_grows (h.touches.tcp_reaches hsync)
  cases hs with
  | main bears => exact .main (h.moves.bears bears)
  | listener bears => exact .listener (h.moves.listener_bears (reaches_placed before) bears)
  | udpWorker worker panicked => exact .udpWorker worker (hudp panicked)
  | udpLock worker failed => exact .udpLock worker (hudp failed)
  | tcpWorker worker panicked => exact .tcpWorker worker (htcp panicked)
  | tcpLock worker failed => exact .tcpLock worker (htcp failed)

/-- A failure stays in every run from there. -/
theorem reaches_failed (before : Reaches (Service.step server) (· = start stop) s)
    (hs : s.Failed) (later : Reaches (Service.step server) (· = s) s') : s'.Failed := by
  induction later with
  | start h =>
    subst h
    exact hs
  | next later hstep ih => exact (step_acts hstep).failed (before.trans later) ih

/-- A job that a settled pool accepted was handled or discarded. -/
theorem accepted_of_settled {count capacity : Nat} {p : Pool Job}
    (h : Reaches Pool.step (· = Pool.start count capacity stop) p) (hs : p.Settled)
    {ticket : Ticket Job} (hticket : ticket ∈ p.ledger.accepted) :
    ticket ∈ p.ledger.handled ∨ ticket ∈ p.ledger.discarded := by
  have hbalanced := (Pool.reaches_sound h).1.balanced
  have hqueue : p.ledger.queue = [] := hs.empty
  have hheld : p.ledger.held = 0 := by
    refine Multiset.eq_zero_of_forall_notMem fun job hjob => ?_
    obtain ⟨worker, thread, hthread, hholds⟩ := Pool.mem_held.mp hjob
    obtain ⟨clean, hphase⟩ := hs.finished worker thread hthread
    rw [hphase] at hholds
    cases hholds
  rw [hqueue, hheld] at hbalanced
  have hmem : ticket ∈ (p.ledger.accepted : Multiset (Ticket Job)) := hticket
  rw [← hbalanced] at hmem
  simpa using hmem

/-- What is true when `run` has returned `Ok`. -/
theorem returned_ok (h : Reaches (Service.step server) (· = start stop) s)
    (hok : s.main = .returned (.ok ())) :
    s.stop = true ∧ s.udp.pool.Settled ∧ s.tcp.pool.Settled ∧
      s.listener = .ended (some (.ok ())) := by
  have hreported := (reaches_reported h).main
  rw [hok] at hreported
  exact hreported rfl

/-- When the service returns `Ok`, its stop flag is up, its TCP listener has ended well, and each of
its pools is settled: every worker is over and none of them failed, the queue is closed and empty,
and every job that it accepted was handled or discarded. -/
theorem run_clean (server : Server) (stop : Bool)
    (h : Reaches (Service.step server) (· = start stop) s) (hok : s.main = .returned (.ok ())) :
    s.stop = true ∧ s.listener = .ended (some (.ok ())) ∧ s.udp.pool.Settled ∧
      s.tcp.pool.Settled ∧
      (∀ ticket ∈ s.udp.pool.ledger.accepted,
        ticket ∈ s.udp.pool.ledger.handled ∨ ticket ∈ s.udp.pool.ledger.discarded) ∧
      ∀ ticket ∈ s.tcp.pool.ledger.accepted,
        ticket ∈ s.tcp.pool.ledger.handled ∨ ticket ∈ s.tcp.pool.ledger.discarded := by
  obtain ⟨hstop, hudp, htcp, hlistener⟩ := returned_ok h hok
  exact ⟨hstop, hlistener, hudp, htcp,
    fun _ hticket => accepted_of_settled (Crew.reaches_pool (reaches_udp h)) hudp hticket,
    fun _ hticket => accepted_of_settled (Crew.reaches_pool (reaches_tcp h)) htcp hticket⟩

/-- The end of a run, once the receive loop has returned: the workers see the stop flag, report and
end, and are received and joined by the owners of their pools. -/
def closingRun : List ServiceAction :=
  [.main .go, .main (.connect none)] ++ List.replicate 2 (.main (.owner .proceed)) ++
  ((List.range udpWorkers).flatMap fun index => List.replicate 4 (.udpWorker index .run)) ++
  List.replicate (2 * udpWorkers + 2) (.main (.owner .proceed)) ++
  [.listener .go, .listener .go, .listener .go] ++
  List.replicate 2 (.listener (.owner .proceed)) ++
  ((List.range tcpWorkers).flatMap fun index => List.replicate 4 (.tcpWorker index .run)) ++
  List.replicate (2 * tcpWorkers + 2) (.listener (.owner .proceed)) ++
  [.listener .go] ++ List.replicate 3 (.listener (.owner .proceed)) ++
  [.main .go, .main .go, .main .go] ++ List.replicate 3 (.main (.owner .proceed))

/-- A whole run, in which a datagram is accepted and a signal arrives. -/
def wholeRun : List ServiceAction :=
  boot ++ [.main .go, .main (.receive (.ok (Dns.rootQuery.wire, someClient)) 0), .main .go,
    .main .go, .signal, .main .go] ++ closingRun

/-- A run from the start to `Ok`, in which a datagram was accepted. -/
theorem run_clean_wholeRun : ∃ s, runActions (Service.step idleServer) (start false) wholeRun =
      some s ∧ s.main = .returned (.ok ()) ∧ s.notices = [.listening, .stopping, .complete] ∧
        s.udp.pool.Settled ∧ s.tcp.pool.Settled := by
  have hend : (runActions (Service.step idleServer) (start false) wholeRun).map (fun s =>
      (s.main.result, s.notices)) =
        some (some (.ok ()), [.listening, .stopping, .complete]) := by
    decide +kernel
  obtain ⟨s, hs, heq⟩ := Option.map_eq_some_iff.mp hend
  simp only [Prod.mk.injEq] at heq
  have hok := Main.result_eq_some heq.1
  obtain ⟨-, -, hudp, htcp, -⟩ := run_clean idleServer false (Reaches.of_run (.start rfl) hs) hok
  exact ⟨s, hs, hok, heq.2, hudp, htcp⟩

/-- No failure is reported as a clean end. Once a call at the start has failed, a listener met an
error or panicked, or a worker of either pool panicked or could not lock its queue, the service
never returns `Ok`. -/
theorem failure_reported (server : Server) (stop : Bool)
    (before : Reaches (Service.step server) (· = start stop) s) (hfailed : s.Failed)
    (later : Reaches (Service.step server) (· = s) s') : s'.main ≠ .returned (.ok ()) := by
  intro hok
  have hfailed' := reaches_failed before hfailed later
  obtain ⟨-, hudp, htcp, hlistener⟩ := returned_ok (before.trans later) hok
  cases hfailed' with
  | main bears =>
    rw [hok] at bears
    exact bears rfl
  | listener bears =>
    rw [hlistener] at bears
    exact bears rfl
  | udpWorker worker panicked => exact hudp.noPanic worker panicked
  | udpLock worker failed => exact hudp.noLockFailure worker failed
  | tcpWorker worker panicked => exact htcp.noPanic worker panicked
  | tcpLock worker failed => exact htcp.noLockFailure worker failed

/-- The receive loop fails, and everything else ends well. -/
theorem failure_reported_receive : ∃ s s',
    runActions (Service.step idleServer) (start false)
      (boot ++ [.main .go, .main (.receive (.error (.other 7)) 0)]) = some s ∧ s.Failed ∧
    runActions (Service.step idleServer) s closingRun = some s' ∧
    s'.main = .returned (.error (.os (.other 7))) ∧ s'.main ≠ .returned (.ok ()) := by
  have hend : (runActions (Service.step idleServer) (start false)
      (boot ++ [.main .go, .main (.receive (.error (.other 7)) 0)])).bind (fun s =>
        (runActions (Service.step idleServer) s closingRun).map fun s' =>
          (s.main.error, s'.main.result)) =
        some (some (.os (.other 7)), some (.error (.os (.other 7)))) := by
    decide +kernel
  obtain ⟨s, hs, hrest⟩ := Option.bind_eq_some_iff.mp hend
  obtain ⟨s', hs', heq⟩ := Option.map_eq_some_iff.mp hrest
  simp only [Prod.mk.injEq] at heq
  have hfailed : s.Failed := .main (Main.bears_of_error heq.1)
  refine ⟨s, s', hs, hfailed, hs', Main.result_eq_some heq.2, ?_⟩
  exact failure_reported idleServer false (Reaches.of_run (.start rfl) hs) hfailed
    (Reaches.of_run (.start rfl) hs')

end Service

end Sederial
