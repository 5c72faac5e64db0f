import Mathlib.Data.Finset.Card
import Mathlib.Data.Finset.Range
import Sederial.Proofs.PoolFailure
import Sederial.Proofs.PoolQueue

/-!
# `Sederial.Proofs.PoolShutdown`: a failed worker is never reported as a clean shutdown

The invariants of `PoolFailure` hold in every state of every run. `shutdown` returns `Ok` at one
place, with every handle joined and the failure flag down, and there they say that nothing went
wrong (`clean_of_joined`). `shutdown_returns` is the other half: a call is never stuck. The owner
waits for completions no longer than to its deadline, and it joins only threads that have sent
theirs.
-/

set_option autoImplicit false

namespace Sederial

open Sederial.Lib

variable {Job : Type}

namespace Pool

/-! ### Every run -/

section

variable {s s' : Pool Job} {count capacity : Nat} {stop : Bool}

/-- In every reachable state the jobs are accounted for. -/
theorem reaches_counted (h : Reaches Pool.step (· = start count capacity stop) s) :
    s.Counted := by
  refine h.invariant ?_ fun s a s' hs hstep => (step_acts hstep).counted hs
  intro s hs
  subst hs
  exact ⟨fun _ => rfl, rfl⟩

/-- In every reachable state the flag stands wherever a thread has seen it. -/
theorem reaches_flagged (h : Reaches Pool.step (· = start count capacity stop) s) :
    s.Flagged := by
  refine h.invariant ?_ fun s a s' hs hstep => (step_acts hstep).flagged hs
  intro s hs
  subst hs
  exact ⟨nofun, nofun, nofun, nofun⟩

/-- In every reachable state every joined thread has finished. -/
theorem reaches_joined (h : Reaches Pool.step (· = start count capacity stop) s) : s.Joined := by
  refine h.invariant ?_ fun s a s' hs hstep => (step_acts hstep).joined hs
  intro s hs
  subst hs
  have hnext : ∀ call, Owner.next count ≠ .collecting call ∧ Owner.next count ≠ .joining call := by
    intro call
    cases count <;> exact ⟨nofun, nofun⟩
  refine ⟨fun call h => ?_, fun call h => ?_, nofun, nofun⟩
  · exact (h.elim (hnext call).1 (hnext call).2).elim
  · exact ((hnext call).2 h).elim

/-- A completion is received at most once, and only from a thread. -/
theorem Counted.received_nodup (h : s.Counted) :
    s.received.Nodup ∧ ∀ worker ∈ s.received, s.sent worker = 1 := by
  have hsent : ∀ worker, s.sent worker ≤ 1 := by
    intro worker
    unfold sent
    cases s.threads[worker]? with
    | none => exact Nat.zero_le 1
    | some thread =>
      cases hphase : thread.phase <;> simp [hphase, Phase.sent]
  have hle : ∀ worker, s.received.count worker ≤ s.sent worker := by
    intro worker
    rw [← h.once, List.count_append]
    exact Nat.le_add_right ..
  refine ⟨List.nodup_iff_count_le_one.mpr fun worker => (hle worker).trans (hsent worker), ?_⟩
  intro worker hmem
  exact Nat.le_antisymm (hsent worker) ((List.count_pos_iff.mpr hmem).trans_le (hle worker))

/-- A notice was sent only by a thread that exists. -/
theorem lt_of_sent {worker : Nat} (h : s.sent worker = 1) : worker < s.threads.length := by
  by_contra hlt
  unfold sent at h
  rw [List.getElem?_eq_none (Nat.not_lt.mp hlt)] at h
  cases h

/-- `pending` is the number of threads whose completion is still to be received. -/
theorem Counted.pending_eq (h : s.Counted) :
    s.pending = ((Finset.range s.threads.length).filter fun i => i ∉ s.received).card := by
  obtain ⟨hnodup, hsent⟩ := h.received_nodup
  have hrange : s.received.toFinset ⊆ Finset.range s.threads.length := by
    intro worker hmem
    exact Finset.mem_range.mpr (lt_of_sent (hsent worker (List.mem_toFinset.mp hmem)))
  have hdiff : ((Finset.range s.threads.length).filter fun i => i ∉ s.received) =
      Finset.range s.threads.length \ s.received.toFinset := by
    ext worker
    simp
  rw [hdiff, Finset.card_sdiff_of_subset hrange, Finset.card_range,
    List.toFinset_card_of_nodup hnodup, ← h.total, Nat.add_sub_cancel]

/-- After a panic no shutdown is clean. -/
def Faulty (e e' : PoolEvent Job) : Prop := ∀ worker, e = .panicked worker → e' ≠ .returned (.ok ())

/-- The events of an action, and the one place where `shutdown` returns `Ok`. -/
theorem Acts.events {a : Action Job} (h : Acts s a s') :
    ∃ events, s'.log = s.log ++ events ∧ events.Pairwise Faulty ∧
      (.returned (.ok ()) ∈ events → events = [.returned (.ok ())] ∧
        (∃ call, s.owner = .joining call) ∧ s.workers = [] ∧ s.failed = false ∧
        s'.threads = s.threads ∧ s'.jobs = s.jobs) := by
  have hnil : s.log = s.log ++ [] := (List.append_nil _).symm
  cases h with
  | works found works =>
    cases works with
    | goes | fails | stops | raisesFailed | raisesStop | reports => exact ⟨[], hnil, .nil, nofun⟩
    | panics | takes | lockFails | discards | keeps | handles =>
      exact ⟨[_], rfl, List.pairwise_singleton .., by simp⟩
  | submitFails =>
    refine ⟨[_, _], List.append_assoc .., ?_, by simp⟩
    exact List.pairwise_pair.mpr nofun
  | concludes owner joined =>
    refine ⟨[_], rfl, List.pairwise_singleton .., fun hmem => ?_⟩
    cases hfailed : s.failed with
    | true => simp [hfailed] at hmem
    | false => exact ⟨rfl, ⟨_, owner⟩, joined, rfl, rfl, rfl⟩
  | spawns | accepts | rejects | clears | closeFails | receives | expires =>
    exact ⟨[_], rfl, List.pairwise_singleton .., by simp⟩
  | turns | stops | collected | joins | detaches | requestStop | poison =>
    exact ⟨[], hnil, .nil, nofun⟩

/-- Nothing went wrong in the pool, and it is shut down. -/
structure Clean (s : Pool Job) : Prop where
  finished : ∀ (worker : Nat) (thread : Thread Job), s.threads[worker]? = some thread →
    ∃ clean, thread.phase = .finished clean
  noPanic : ∀ worker, .panicked worker ∉ s.log
  noLockFailure : ∀ worker, .lockFailed worker ∉ s.log
  closed : s.jobs.closed = true
  empty : s.jobs.queue = []

/-- With every handle joined and the failure flag down, nothing went wrong. -/
theorem clean_of_joined (h : Reaches Pool.step (· = start count capacity stop) s) {call : Call}
    (howner : s.owner = .joining call) (hworkers : s.workers = []) (hfailed : s.failed = false) :
    s.Clean := by
  have hflagged := reaches_flagged h
  have hjoined := reaches_joined h
  have hfinished : ∀ (worker : Nat) (thread : Thread Job), s.threads[worker]? = some thread →
      ∃ clean, thread.phase = .finished clean := by
    intro worker thread hthread
    rcases hjoined.ended (by rw [howner]; nofun) worker thread hthread with hmem | hover
    · rw [hworkers] at hmem
      cases hmem
    · exact hover
  have hclosed : s.jobs.closed = true := by
    rcases hjoined.closed call (.inr howner) with hclosed | hdown
    · exact hclosed
    · exact nomatch hfailed.symm.trans hdown
  refine ⟨hfinished, fun worker hmem => ?_, fun worker hmem => ?_, hclosed,
    (reaches_sound h).1.emptied hclosed⟩
  · obtain ⟨thread, hthread, hpanicked⟩ := hflagged.panicked worker hmem
    obtain ⟨clean, hphase⟩ := hfinished worker thread hthread
    have hsteady : thread.phase.Steady := .of_eq hphase nofun nofun nofun
    have hdown := ((hflagged.flags worker thread hthread).raised hsteady hpanicked).1
    exact nomatch hfailed.symm.trans hdown
  · cases worker with
    | none => exact nomatch hfailed.symm.trans (hflagged.ownerFailed hmem)
    | some worker =>
      rcases hflagged.lockFailed worker hmem with hdown | ⟨thread, hthread, hphase⟩
      · exact nomatch hfailed.symm.trans hdown
      · obtain ⟨clean, hphase'⟩ := hfinished worker thread hthread
        exact nomatch hphase.symm.trans hphase'

/-- `shutdown` returns `Ok` only from a pool in which nothing went wrong. -/
theorem clean_of_ok (h : Reaches Pool.step (· = start count capacity stop) s) {a : Action Job}
    (hstep : s.step a = some s') {events : List (PoolEvent Job)} (hlog : s'.log = s.log ++ events)
    (hmem : .returned (.ok ()) ∈ events) : s'.Clean := by
  obtain ⟨events', hevents, -, hok⟩ := (step_acts hstep).events
  have heq : events = events' := List.append_cancel_left (hlog.symm.trans hevents)
  obtain ⟨hone, ⟨call, howner⟩, hworkers, hfailed, hthreads, hjobs⟩ := hok (heq ▸ hmem)
  have hclean := clean_of_joined h howner hworkers hfailed
  rw [heq, hone] at hlog
  refine ⟨?_, fun worker hmem => ?_, fun worker hmem => ?_, ?_, ?_⟩
  · rw [hthreads]
    exact hclean.finished
  · exact hclean.noPanic worker (by simpa [hlog] using hmem)
  · exact hclean.noLockFailure worker (by simpa [hlog] using hmem)
  · rw [hjobs]
    exact hclean.closed
  · rw [hjobs]
    exact hclean.empty

/-- In every reachable state the faults are logged in order. -/
theorem reaches_faulty (h : Reaches Pool.step (· = start count capacity stop) s) :
    s.log.Pairwise Faulty := by
  induction h with
  | start hs =>
    subst hs
    exact List.Pairwise.nil
  | next before hstep ih =>
    obtain ⟨events, hlog, hevents, hok⟩ := (step_acts hstep).events
    rw [hlog]
    refine List.pairwise_append.mpr ⟨ih, hevents, ?_⟩
    intro e he e' he' worker hpanicked hreturned
    obtain ⟨-, ⟨call, howner⟩, hworkers, hfailed, -⟩ := hok (hreturned ▸ he')
    exact (clean_of_joined before howner hworkers hfailed).noPanic worker (hpanicked ▸ he)

/-! ### A panic raises the stop flag -/

/-- A move of a worker is a step of the thread that stands at its index. -/
theorem step_worker {index : Nat} {thread : Thread Job} {move : Move}
    (hthread : s.threads[index]? = some thread) :
    s.step (.worker index move) = s.workerStep index thread move := by
  dsimp only [step]
  rw [hthread]

/-- A worker in `raising` stores the stop flag next. -/
theorem raise_stop {index : Nat} {thread : Thread Job}
    (hthread : s.threads[index]? = some thread) (hphase : thread.phase = .raising) :
    ∃ s', s.step (.worker index .run) = some s' ∧ s'.stop = true := by
  refine ⟨{ s with stop := true }.goto index thread .notifying, ?_, rfl⟩
  rw [step_worker hthread]
  unfold workerStep
  rw [hphase]

/-- After a panic the stop flag is up, or it is up after the next two actions of the worker at
most, which nothing can hold up. -/
theorem raises_of_panicked (h : Reaches Pool.step (· = start count capacity stop) s) {worker : Nat}
    (hmem : .panicked worker ∈ s.log) :
    s.stop = true ∨ s.sent worker = 0 ∧ ∃ n ≤ 2, ∃ s',
      runActions Pool.step s (List.replicate n (.worker worker .run)) = some s' ∧
        s'.stop = true := by
  have hflagged := reaches_flagged h
  obtain ⟨thread, hthread, hpanicked⟩ := hflagged.panicked worker hmem
  rcases hflagged.flags worker thread hthread hpanicked with hphase | ⟨hphase, -⟩ | ⟨-, hstop⟩
  · let s₁ := { s with failed := true }.goto worker thread .raising
    have hstep : s.step (.worker worker .run) = some s₁ := by
      rw [step_worker hthread]
      unfold workerStep
      rw [hphase]
    have hlt : worker < s.threads.length := (List.getElem?_eq_some_iff.mp hthread).1
    have hthread₁ : s₁.threads[worker]? = some { thread with phase := .raising } :=
      List.getElem?_set_self hlt
    obtain ⟨s₂, hstep₂, hstop⟩ := raise_stop hthread₁ rfl
    refine .inr ⟨by rw [sent_eq hthread, hphase]; rfl, 2, le_rfl, s₂, ?_, hstop⟩
    simp only [List.replicate, runActions, hstep, hstep₂, Option.bind_some]
  · obtain ⟨s₁, hstep, hstop⟩ := raise_stop hthread hphase
    refine .inr ⟨by rw [sent_eq hthread, hphase]; rfl, 1, by omega, s₁, ?_, hstop⟩
    simp only [List.replicate, runActions, hstep, Option.bind_some]
  · exact .inl hstop

/-- Nobody lowers the stop flag. -/
theorem Acts.stop_raised {a : Action Job} (h : Acts s a s') (hstop : s.stop = true) :
    s'.stop = true := by
  cases h with
  | works found works => exact works.frame.2.2.2.2.2.2 hstop
  | submitFails => rfl
  | stops => rfl
  | requestStop => rfl
  | _ => exact hstop

end

/-! ### A shutdown returns -/

/-- The owner is in a call of `shutdown`. -/
inductive Shuts (call : Call) : Owner → Prop
  | closing : Shuts call (.closing call)
  | locking : Shuts call (.locking call)
  | collecting : Shuts call (.collecting call)
  | joining : Shuts call (.joining call)

/-- The call the owner is in can go on and return this. -/
inductive CanReturn (call : Call) (result : Except IoError Unit) : Pool Job → Prop
  | now {s s' : Pool Job} {a : Action Job} (inside : Shuts call s.owner)
      (step : s.step a = some s') (returned : s'.log = s.log ++ [.returned result]) :
      CanReturn call result s
  | later {s s' : Pool Job} {a : Action Job} (inside : Shuts call s.owner)
      (step : s.step a = some s') (returns : CanReturn call result s') : CanReturn call result s

section

variable {s s' : Pool Job} {count capacity : Nat} {stop : Bool} {call : Call}

/-- When nothing is pending, every thread has sent its completion. -/
theorem Counted.sent_of_drained (h : s.Counted) (hpending : s.pending = 0) {worker : Nat}
    (hlt : worker < s.threads.length) : s.sent worker = 1 := by
  by_cases hmem : worker ∈ s.received
  · exact h.received_nodup.2 worker hmem
  · have hcard := h.pending_eq
    rw [hpending] at hcard
    have hempty := Finset.card_eq_zero.mp hcard.symm
    have hin : worker ∈ (Finset.range s.threads.length).filter fun i => i ∉ s.received :=
      Finset.mem_filter.mpr ⟨Finset.mem_range.mpr hlt, hmem⟩
    rw [hempty] at hin
    cases hin

/-- A join that does not wait. -/
theorem step_join {worker : Nat} {rest : List Nat} {clean panicked : Bool}
    (howner : s.owner = .joining call) (hworkers : s.workers = worker :: rest)
    (hthread : s.threads[worker]? = some ⟨.finished clean, panicked⟩) :
    s.step .proceed = some { s with workers := rest, failed := s.failed || !clean } := by
  simp only [step, howner, join, hworkers, hthread]

/-- The owner joins one thread after the other, and each is at its end. -/
theorem joining_returns (h : Reaches Pool.step (· = start count capacity stop) s)
    (howner : s.owner = .joining call) : ∃ result, CanReturn call result s := by
  -- The handles that are left are the measure.
  induction hworkers : s.workers generalizing s with
  | nil =>
    have hstep : s.step .proceed =
        some (s.conclude call (if s.failed then .error .workerTerminated else .ok ())) := by
      simp only [step, howner, join, hworkers]
    exact ⟨_, .now (howner ▸ .joining) hstep rfl⟩
  | cons worker rest ih =>
    have hinside : Shuts call s.owner := howner ▸ .joining
    have hlt : worker < s.threads.length :=
      (reaches_joined h).handles worker (hworkers ▸ List.mem_cons_self)
    obtain ⟨⟨phase, panicked⟩, hthread⟩ : ∃ thread, s.threads[worker]? = some thread :=
      ⟨_, List.getElem?_eq_getElem hlt⟩
    have hsent : phase.sent = 1 := by
      rw [← (reaches_counted h).sent_of_drained ((reaches_joined h).drained call howner) hlt,
        sent_eq hthread]
    cases phase with
    | finished clean =>
      have hstep := step_join howner hworkers hthread
      obtain ⟨result, hreturns⟩ := ih (h.next hstep) howner rfl
      exact ⟨result, .later hinside hstep hreturns⟩
    | ending =>
      -- The thread has sent its completion and ends before it is joined.
      have hend : s.step (.worker worker .run) =
          some (s.goto worker ⟨.ending, panicked⟩ (.finished true)) := step_worker hthread
      have hthread₁ : (s.goto worker ⟨.ending, panicked⟩ (.finished true)).threads[worker]? =
          some ⟨.finished true, panicked⟩ := List.getElem?_set_self hlt
      have hstep := step_join (s := s.goto worker ⟨.ending, panicked⟩ (.finished true)) howner
        hworkers hthread₁
      obtain ⟨result, hreturns⟩ := ih ((h.next hend).next hstep) howner rfl
      exact ⟨result, .later hinside hend (.later hinside hstep hreturns)⟩
    | _ => cases hsent

/-- The owner stops collecting when nothing is pending. -/
theorem drained_returns (h : Reaches Pool.step (· = start count capacity stop) s)
    (howner : s.owner = .collecting call) (hpending : s.pending = 0) :
    ∃ result, CanReturn call result s := by
  have hstep : s.step .proceed = some { s with owner := .joining call } := by
    simp only [step, howner, collect, hpending, if_true]
  obtain ⟨result, hreturns⟩ := joining_returns (h.next hstep) rfl
  exact ⟨result, .later (howner ▸ .collecting) hstep hreturns⟩

/-- The owner receives what is there, and gives up when nothing more comes. -/
theorem collecting_returns (h : Reaches Pool.step (· = start count capacity stop) s)
    (howner : s.owner = .collecting call) : ∃ result, CanReturn call result s := by
  have hinside : Shuts call s.owner := howner ▸ .collecting
  -- The messages in the channel are the measure.
  induction hcompleted : s.completed generalizing s with
  | nil =>
    by_cases hpending : s.pending = 0
    · exact drained_returns h howner hpending
    · have hstep : s.step .expire = some (s.conclude call (.error .shutdownIncomplete)) := by
        simp only [step, howner]
        exact if_pos ⟨hpending, hcompleted⟩
      exact ⟨_, .now hinside hstep rfl⟩
  | cons worker rest ih =>
    by_cases hpending : s.pending = 0
    · exact drained_returns h howner hpending
    · have hstep : s.step .proceed =
          some ({ s with completed := rest, pending := s.pending - 1 }.record
            (.received worker)) := by
        simp only [step, howner, collect, hcompleted]
        exact if_neg hpending
      obtain ⟨result, hreturns⟩ := ih (h.next hstep) howner hinside rfl
      exact ⟨result, .later hinside hstep hreturns⟩

/-- A call of `shutdown` is never stuck. -/
theorem shutdown_returns (h : Reaches Pool.step (· = start count capacity stop) s)
    (hcall : call ≠ .drop) (hinside : Shuts call s.owner) : ∃ result, CanReturn call result s := by
  -- `close` has two actions, and then the owner collects.
  have hlocking : ∀ {s : Pool Job}, Reaches Pool.step (· = start count capacity stop) s →
      s.owner = .locking call → ∃ result, CanReturn call result s := by
    intro s h howner
    have hstep : s.step .proceed = some (s.closeQueue call) := by
      simp only [step, howner]
    have howner₁ : (s.closeQueue call).owner = .collecting call := by
      have hclosed : call.closed = .collecting call := by
        cases call with
        | drop => exact (hcall rfl).elim
        | shutdown => rfl
        | abort => rfl
      unfold closeQueue
      split <;> exact hclosed
    obtain ⟨result, hreturns⟩ := collecting_returns (h.next hstep) howner₁
    exact ⟨result, .later (howner ▸ .locking) hstep hreturns⟩
  generalize howner : s.owner = owner at hinside
  cases hinside with
  | closing =>
    have hstep : s.step .proceed = some { s with stop := true, owner := .locking call } := by
      simp only [step, howner]
    obtain ⟨result, hreturns⟩ := hlocking (h.next hstep) rfl
    exact ⟨result, .later (howner ▸ .closing) hstep hreturns⟩
  | locking => exact hlocking h howner
  | collecting => exact collecting_returns h howner
  | joining => exact joining_returns h howner

/-- What a call returns after a panic is an error. -/
theorem CanReturn.error_of_panicked {result : Except IoError Unit}
    (hreturns : CanReturn call result s)
    (h : Reaches Pool.step (· = start count capacity stop) s) {worker : Nat}
    (hmem : .panicked worker ∈ s.log) : ∃ e, result = .error e := by
  induction hreturns with
  | now _ hstep hlog =>
    cases result with
    | error e => exact ⟨e, rfl⟩
    | ok u =>
      refine ((clean_of_ok h hstep hlog (List.mem_singleton_self _)).noPanic worker ?_).elim
      rw [hlog]
      exact List.mem_append.mpr (.inl hmem)
  | later _ hstep _ ih =>
    obtain ⟨events, hlog, -⟩ := (step_acts hstep).events
    refine ih (h.next hstep) ?_
    rw [hlog]
    exact List.mem_append.mpr (.inl hmem)

/-- `self.pending -= 1` is the only way down, and it does not underflow. -/
theorem Acts.pending {a : Action Job} (h : Acts s a s') :
    s.pending ≤ s'.pending ∨ s'.pending + 1 = s.pending := by
  cases h with
  | works found works => exact .inl works.frame.2.2.2.1.ge
  | spawns => exact .inl (Nat.le_succ _)
  | receives _ pending _ => exact .inr (Nat.succ_pred_eq_of_ne_zero pending)
  | _ => exact .inl le_rfl

/-- What the pool promises about failures, in one state. -/
structure Supervised (s : Pool Job) : Prop where
  /-- `pending` counts the spawned workers whose completion has not been received. -/
  pending : s.pending = ((Finset.range s.threads.length).filter fun i => i ∉ s.received).card
  /-- It never underflows. -/
  countsDown : ∀ a s', s.step a = some s' → s.pending ≤ s'.pending ∨ s'.pending + 1 = s.pending
  /-- A `shutdown` that returns `Ok` leaves a clean pool. -/
  clean : ∀ a s' events, s.step a = some s' → s'.log = s.log ++ events →
    .returned (.ok ()) ∈ events → s'.Clean
  /-- A panic raises the stop flag before its worker is reported as completed. -/
  raises : ∀ worker, .panicked worker ∈ s.log →
    s.stop = true ∨ s.sent worker = 0 ∧ ∃ n ≤ 2, ∃ s',
      runActions Pool.step s (List.replicate n (.worker worker .run)) = some s' ∧ s'.stop = true
  /-- The stop flag stays up. -/
  staysRaised : s.stop = true → ∀ s', Reaches Pool.step (· = s) s' → s'.stop = true
  /-- No `shutdown` has returned `Ok` after a panic. -/
  faulty : s.log.Pairwise Faulty
  /-- A call of `shutdown` can always return, and after a panic only with an error. -/
  returns : ∀ call, call ≠ .drop → Shuts call s.owner → ∃ result, CanReturn call result s
  fails : ∀ call result worker, CanReturn call result s → .panicked worker ∈ s.log →
    ∃ e, result = .error e

/-- However the threads of a pool interleave, no failure of a worker is reported as a clean
shutdown. -/
theorem shutdown_supervised (count capacity : Nat) (stop : Bool)
    (h : Reaches Pool.step (· = start count capacity stop) s) : s.Supervised where
  pending := (reaches_counted h).pending_eq
  countsDown := fun _ _ hstep => (step_acts hstep).pending
  clean := fun _ _ _ hstep hlog hmem => clean_of_ok h hstep hlog hmem
  raises := fun _ hmem => raises_of_panicked h hmem
  staysRaised := by
    intro hstop s' hlater
    refine hlater.invariant ?_ fun s a s' hs hstep => (step_acts hstep).stop_raised hs
    intro s₀ hs
    rw [hs]
    exact hstop
  faulty := reaches_faulty h
  returns := fun _ hcall hinside => shutdown_returns h hcall hinside
  fails := fun _ _ _ hreturns hmem => hreturns.error_of_panicked h hmem

/-- One worker that is shut down before it has a job. -/
def cleanShutdown : List (Action Nat) :=
  [.create true, .spawn true, .shutdown, .proceed, .proceed, .worker 0 .run, .worker 0 .run,
    .worker 0 .run, .worker 0 .run, .proceed, .proceed, .proceed, .proceed]

/-- A second worker cannot be created. The first panics while `Pool::new` shuts it down. -/
def panickingAbort : List (Action Nat) :=
  [.create true, .spawn true, .worker 0 .run, .create false, .proceed, .worker 0 .panic, .proceed,
    .worker 0 .run, .worker 0 .run, .worker 0 .run, .worker 0 .run, .proceed, .worker 0 .run,
    .proceed, .proceed, .proceed]

/-- The first run ends with `Ok`, the second with an error. -/
theorem shutdown_supervised_twoRuns :
    (∃ s : Pool Nat, runActions Pool.step (start 1 1 false) cleanShutdown = some s ∧
      .returned (.ok ()) ∈ s.log ∧ s.Supervised) ∧
    ∃ s : Pool Nat, runActions Pool.step (start 2 1 false) panickingAbort = some s ∧
      .panicked 0 ∈ s.log ∧ .returned (.error .workerTerminated) ∈ s.log ∧ s.Supervised := by
  have hclean : runActions Pool.step (start 1 1 false) cleanShutdown = some _ := rfl
  have habort : runActions Pool.step (start 2 1 false) panickingAbort = some _ := rfl
  refine ⟨⟨_, hclean, ?_, shutdown_supervised 1 1 false (Reaches.of_run (.start rfl) hclean)⟩,
    ⟨_, habort, ?_, ?_, shutdown_supervised 2 1 false (Reaches.of_run (.start rfl) habort)⟩⟩
  · exact List.mem_of_getLast? rfl
  · exact List.mem_of_getElem? (i := 1) rfl
  · exact List.mem_of_getLast? rfl

end

end Pool

end Sederial
