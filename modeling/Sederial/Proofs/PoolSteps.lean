import Sederial.Pool

/-!
# `Sederial.Proofs.PoolSteps`: what one action of the pool does

`Works` lists what an action of a worker thread does to the pool, and `Acts` what any action does.
`step_acts` proves that `Pool.step` does nothing else. Every invariant of the pool is a case
analysis over these two relations. The many moves of a worker that touch nothing but its own phase
are one case, with the possible phases in `Phase.Goes`.
-/

set_option autoImplicit false

namespace Sederial

variable {Job : Type}

/-- Where the owner turns when it only goes on to something else: `new` goes on or aborts, or the
service calls. -/
inductive Owner.Turns : Owner → Action Job → Owner → Prop
  | creates {left : Nat} : Turns (.creating left) (.create true) (.spawning left)
  | cannotCreate {left : Nat} : Turns (.creating left) (.create false) (.closing .abort)
  | cannotSpawn {left : Nat} : Turns (.spawning left) (.spawn false) (.closing .abort)
  | shutsDown : Turns .serving .shutdown (.closing .shutdown)
  | drops : Turns .serving .drop (.closing .drop)

namespace Phase

/-- The worker wants to enter the critical section of `next_job`. -/
inductive Polls : Phase Job → Prop
  | locking : Polls .locking
  | waiting : Polls .waiting

/-- A method of the worker runs, or its destructor. -/
inductive Inside : Phase Job → Prop
  | maintaining : Inside .maintaining
  | handling (ticket : Ticket Job) : Inside (.handling ticket)
  | dropping : Inside .dropping

/-- A worker goes on and touches nothing but its own phase. -/
inductive Goes (panicked : Bool) : Phase Job → Phase Job → Prop
  | stopped : Goes panicked .looking .dropping
  | maintain : Goes panicked .looking .maintaining
  | lock : Goes panicked .maintaining .locking
  | wait {phase : Phase Job} (polls : phase.Polls) : Goes panicked phase .waiting
  | idle {phase : Phase Job} (polls : phase.Polls) : Goes panicked phase .looking
  | quit {phase : Phase Job} (polls : phase.Polls) : Goes panicked phase .dropping
  | done {ticket : Ticket Job} : Goes panicked (.handling ticket) .looking
  | report : Goes panicked .dropping .reporting
  | notified : Goes panicked .notifying .reporting
  | finish : Goes panicked .ending (.finished true)
  | fail (unwound : panicked = true) : Goes panicked .ending (.finished false)

end Phase

namespace Pool

/-- What an action of a worker does to the pool. -/
inductive Works (index : Nat) (thread : Thread Job) (s : Pool Job) : Pool Job → Prop
  | goes {phase : Phase Job} (goes : thread.phase.Goes thread.panicked phase) :
      Works index thread s (s.goto index thread phase)
  | panics (inside : thread.phase.Inside) : Works index thread s (s.unwind index thread)
  | takes {ticket : Ticket Job} {rest : List (Ticket Job)} (polls : thread.phase.Polls)
      (head : s.jobs.queue = ticket :: rest) :
      Works index thread s
        (({ s with jobs := { s.jobs with queue := rest } }.record
          (.dequeued index ticket)).goto index thread (.ready ticket))
  | lockFails (polls : thread.phase.Polls) :
      Works index thread s
        ((s.record (.lockFailed (some index))).goto index thread .lockFailed)
  | fails (phase : thread.phase = .lockFailed) :
      Works index thread s ({ s with failed := true }.goto index thread .stopping)
  | stops (phase : thread.phase = .stopping) :
      Works index thread s ({ s with stop := true }.goto index thread .dropping)
  | discards {ticket : Ticket Job} (phase : thread.phase = .ready ticket) :
      Works index thread s
        ((s.record (.rechecked index ticket true)).goto index thread .dropping)
  | keeps {ticket : Ticket Job} (phase : thread.phase = .ready ticket) :
      Works index thread s
        ((s.record (.rechecked index ticket false)).goto index thread (.starting ticket))
  | handles {ticket : Ticket Job} (phase : thread.phase = .starting ticket) :
      Works index thread s
        ((s.record (.handled index ticket)).goto index thread (.handling ticket))
  | raisesFailed (phase : thread.phase = .unwinding) :
      Works index thread s ({ s with failed := true }.goto index thread .raising)
  | raisesStop (phase : thread.phase = .raising) :
      Works index thread s ({ s with stop := true }.goto index thread .notifying)
  | reports (phase : thread.phase = .reporting) :
      Works index thread s
        ({ s with completed := s.completed ++ [index] }.goto index thread .ending)

section

variable {index : Nat} {thread : Thread Job} {s s' : Pool Job}

/-- One turn of the loop of `next_job`. -/
theorem poll_nextJob (polls : thread.phase.Polls) :
    Works index thread s (s.poll index thread (s.jobs.nextJob s.stop)) := by
  unfold Jobs.nextJob
  split
  · exact .goes (.quit polls)
  · split
    · rename_i ticket rest hqueue
      exact .takes polls hqueue
    · exact .goes (.wait polls)

/-- A poll behind the queue's lock is the worker's own step. -/
theorem pollLocked_works (polls : thread.phase.Polls)
    {result : Option (JobPoll (Ticket Job)) × Jobs (Ticket Job)}
    (h : Works index thread s (s.poll index thread result)) :
    Works index thread s (s.pollLocked index thread result) := by
  unfold pollLocked
  split
  · exact .lockFails polls
  · exact h

/-- A poll that ends a wait is a poll with what the wait left. -/
theorem poll_wakeUp (polls : thread.phase.Polls) (timedOut : Bool) :
    Works index thread s (s.poll index thread (s.jobs.wakeUp s.stop timedOut)) := by
  unfold Jobs.wakeUp
  split
  · exact .goes (.idle polls)
  · exact poll_nextJob polls

/-- An action of a worker does what `Works` says. -/
theorem workerStep_works {move : Move} (h : s.workerStep index thread move = some s') :
    Works index thread s s' := by
  unfold workerStep at h
  -- The cases of the source of `workerStep`, in its order.
  split at h
  · rename_i hphase
    cases h
    refine .goes ?_
    rw [hphase]
    split
    · exact .stopped
    · exact .maintain
  · rename_i hphase
    cases h
    exact .goes (hphase ▸ .lock)
  · rename_i hphase
    cases h
    exact .panics (hphase ▸ .maintaining)
  · rename_i hphase
    cases h
    have polls : thread.phase.Polls := hphase ▸ .locking
    exact pollLocked_works polls (poll_nextJob polls)
  · rename_i hphase
    cases h
    have polls : thread.phase.Polls := hphase ▸ .waiting
    exact pollLocked_works polls (poll_wakeUp polls false)
  · rename_i hphase
    cases h
    have polls : thread.phase.Polls := hphase ▸ .waiting
    exact pollLocked_works polls (poll_wakeUp polls true)
  · rename_i hphase
    cases h
    exact .fails hphase
  · rename_i hphase
    cases h
    exact .stops hphase
  · rename_i hphase
    cases h
    cases hstop : s.stop with
    | true => exact .discards hphase
    | false => exact .keeps hphase
  · rename_i hphase
    cases h
    exact .handles hphase
  · rename_i hphase
    cases h
    exact .goes (hphase ▸ .done)
  · rename_i hphase
    cases h
    exact .panics (hphase ▸ .handling _)
  · rename_i hphase
    cases h
    exact .goes (hphase ▸ .report)
  · rename_i hphase
    cases h
    exact .panics (hphase ▸ .dropping)
  · rename_i hphase
    cases h
    exact .raisesFailed hphase
  · rename_i hphase
    cases h
    exact .raisesStop hphase
  · rename_i hphase
    cases h
    exact .goes (hphase ▸ .notified)
  · rename_i hphase
    cases h
    exact .reports hphase
  · rename_i hphase
    cases h
    exact .goes (hphase ▸ .finish)
  · rename_i hphase
    split at h
    · rename_i hpanicked
      cases h
      exact .goes (hphase ▸ .fail hpanicked)
    · cases h
  · cases h

/-- A worker changes its own thread, and can raise a flag but not lower it. -/
theorem Works.frame (h : Works index thread s s') :
    (∃ thread', s'.threads = s.threads.set index thread') ∧ s'.workers = s.workers ∧
      s'.owner = s.owner ∧ s'.pending = s.pending ∧ s'.jobs.closed = s.jobs.closed ∧
      (s.failed = true → s'.failed = true) ∧ (s.stop = true → s'.stop = true) := by
  cases h with
  | fails => exact ⟨⟨_, rfl⟩, rfl, rfl, rfl, rfl, fun _ => rfl, id⟩
  | stops => exact ⟨⟨_, rfl⟩, rfl, rfl, rfl, rfl, id, fun _ => rfl⟩
  | raisesFailed => exact ⟨⟨_, rfl⟩, rfl, rfl, rfl, rfl, fun _ => rfl, id⟩
  | raisesStop => exact ⟨⟨_, rfl⟩, rfl, rfl, rfl, rfl, id, fun _ => rfl⟩
  | _ => exact ⟨⟨_, rfl⟩, rfl, rfl, rfl, rfl, id, id⟩

/-- A finished thread does nothing. -/
theorem Works.not_finished (h : Works index thread s s') (clean : Bool) :
    thread.phase ≠ .finished clean := by
  intro hphase
  have hpolls : ¬ thread.phase.Polls := by
    rw [hphase]
    exact nofun
  cases h with
  | goes goes =>
    rw [hphase] at goes
    cases goes with
    | wait polls => cases polls
    | idle polls => cases polls
    | quit polls => cases polls
  | panics inside =>
    rw [hphase] at inside
    cases inside
  | takes polls => exact hpolls polls
  | lockFails polls => exact hpolls polls
  | fails phase => exact nomatch hphase.symm.trans phase
  | stops phase => exact nomatch hphase.symm.trans phase
  | discards phase => exact nomatch hphase.symm.trans phase
  | keeps phase => exact nomatch hphase.symm.trans phase
  | handles phase => exact nomatch hphase.symm.trans phase
  | raisesFailed phase => exact nomatch hphase.symm.trans phase
  | raisesStop phase => exact nomatch hphase.symm.trans phase
  | reports phase => exact nomatch hphase.symm.trans phase

end

/-! ### Any action -/

/-- What an action does to the pool. -/
inductive Acts (s : Pool Job) : Action Job → Pool Job → Prop
  | works {index : Nat} {thread : Thread Job} {move : Move} {s' : Pool Job}
      (found : s.threads[index]? = some thread) (works : Works index thread s s') :
      Acts s (.worker index move) s'
  | turns {a : Action Job} {before after : Owner} (owner : s.owner = before)
      (turn : before.Turns a after) : Acts s a { s with owner := after }
  | spawns {left : Nat} (owner : s.owner = .spawning left) : Acts s (.spawn true) (s.addWorker left)
  | accepts {job : Job} (owner : s.owner = .serving) (opened : s.jobs.closed = false)
      (room : s.jobs.queue.length < s.jobs.capacity) (unstopped : s.stop = false) :
      Acts s (.submit job) ({ s with
        submitted := s.submitted + 1
        jobs := { s.jobs with queue := s.jobs.queue ++ [Ticket.mk s.submitted job] } }.record
          (.accepted ⟨s.submitted, job⟩))
  | rejects {job : Job} (owner : s.owner = .serving) :
      Acts s (.submit job)
        ({ s with submitted := s.submitted + 1 }.record (.rejected ⟨s.submitted, job⟩))
  | submitFails {job : Job} (owner : s.owner = .serving) :
      Acts s (.submit job)
        (({ s with submitted := s.submitted + 1, failed := true, stop := true }.record
          (.lockFailed none)).record (.rejected ⟨s.submitted, job⟩))
  | stops {call : Call} (owner : s.owner = .closing call) :
      Acts s .proceed { s with stop := true, owner := .locking call }
  | clears {call : Call} (owner : s.owner = .locking call) :
      Acts s .proceed ({ s with jobs := s.jobs.close, owner := call.closed }.record
        (.cleared s.jobs.queue))
  | closeFails {call : Call} (owner : s.owner = .locking call) :
      Acts s .proceed ({ s with failed := true, owner := call.closed }.record (.lockFailed none))
  | receives {call : Call} {worker : Nat} {rest : List Nat} (owner : s.owner = .collecting call)
      (pending : s.pending ≠ 0) (message : s.completed = worker :: rest) :
      Acts s .proceed
        ({ s with completed := rest, pending := s.pending - 1 }.record (.received worker))
  | expires {call : Call} (owner : s.owner = .collecting call) :
      Acts s .expire (s.conclude call (.error .shutdownIncomplete))
  | collected {call : Call} (owner : s.owner = .collecting call) (pending : s.pending = 0) :
      Acts s .proceed { s with owner := .joining call }
  | joins {call : Call} {worker : Nat} {rest : List Nat} {clean panicked : Bool}
      (owner : s.owner = .joining call) (handle : s.workers = worker :: rest)
      (ended : s.threads[worker]? = some ⟨.finished clean, panicked⟩) :
      Acts s .proceed { s with workers := rest, failed := s.failed || !clean }
  | concludes {call : Call} (owner : s.owner = .joining call) (joined : s.workers = []) :
      Acts s .proceed (s.conclude call (if s.failed then .error .workerTerminated else .ok ()))
  | detaches (owner : s.owner = .detaching) :
      Acts s .proceed { s with workers := [], owner := .gone }
  | requestStop : Acts s .requestStop { s with stop := true }
  | poison : Acts s .poison { s with poisoned := true }

section

variable {s s' : Pool Job}

/-- A submission is one of the actions. -/
theorem submit_acts (owner : s.owner = .serving) (job : Job) :
    Acts s (.submit job) (s.submit job) := by
  unfold submit Jobs.submit
  dsimp only
  split
  · exact .submitFails owner
  · by_cases hfull : (s.stop || s.jobs.closed || decide (s.jobs.capacity ≤ s.jobs.queue.length))
        = true
    · rw [if_pos hfull]
      exact .rejects owner
    · rw [if_neg hfull]
      have hclosed : s.jobs.closed = false := by
        cases hclosed : s.jobs.closed with
        | false => rfl
        | true => simp [hclosed] at hfull
      have hroom : s.jobs.queue.length < s.jobs.capacity := by
        by_contra hroom
        simp [Nat.not_lt.mp hroom] at hfull
      have hunstopped : s.stop = false := by
        cases hstop : s.stop with
        | false => rfl
        | true => simp [hstop] at hfull
      exact .accepts owner hclosed hroom hunstopped

/-- Closing the queue is one of the actions. -/
theorem closeQueue_acts {call : Call} (owner : s.owner = .locking call) :
    Acts s .proceed (s.closeQueue call) := by
  unfold closeQueue
  split
  · exact .closeFails owner
  · exact .clears owner

/-- Collecting a notice is one of the actions. -/
theorem collect_acts {call : Call} (owner : s.owner = .collecting call)
    (h : s.collect call = some s') : Acts s .proceed s' := by
  unfold collect at h
  split at h
  · rename_i hpending
    cases h
    exact .collected owner hpending
  · rename_i hpending
    split at h
    · rename_i worker rest hmessage
      cases h
      exact .receives owner hpending hmessage
    · cases h

/-- Joining a thread is one of the actions. -/
theorem join_acts {call : Call} (owner : s.owner = .joining call) (h : s.join call = some s') :
    Acts s .proceed s' := by
  unfold join at h
  split at h
  · rename_i worker rest hhandle
    split at h
    · rename_i clean panicked hover
      cases h
      exact .joins owner hhandle hover
    · cases h
  · rename_i hjoined
    cases h
    exact .concludes owner hjoined

/-- Every action of the pool does what `Acts` says. -/
theorem step_acts {a : Action Job} (h : s.step a = some s') : Acts s a s' := by
  -- The cases of the source of `step`, one action each.
  cases a with
  | create ok =>
    dsimp only [step] at h
    split at h
    · rename_i left howner
      cases h
      cases ok with
      | true => exact .turns howner .creates
      | false => exact .turns howner .cannotCreate
    · cases h
  | spawn ok =>
    dsimp only [step] at h
    split at h
    · rename_i left howner
      cases ok with
      | true =>
        cases h
        exact .spawns howner
      | false =>
        cases h
        exact .turns howner .cannotSpawn
    · cases h
  | submit job =>
    dsimp only [step] at h
    split at h
    · rename_i howner
      cases h
      exact submit_acts howner job
    · cases h
  | shutdown =>
    dsimp only [step] at h
    split at h
    · rename_i howner
      cases h
      exact .turns howner .shutsDown
    · cases h
  | drop =>
    dsimp only [step] at h
    split at h
    · rename_i howner
      cases h
      exact .turns howner .drops
    · cases h
  -- What `proceed` does depends on where the owner is.
  | proceed =>
    dsimp only [step] at h
    split at h
    · rename_i call howner
      cases h
      exact .stops howner
    · rename_i call howner
      cases h
      exact closeQueue_acts howner
    · rename_i call howner
      exact collect_acts howner h
    · rename_i call howner
      exact join_acts howner h
    · rename_i howner
      cases h
      exact .detaches howner
    · cases h
  | expire =>
    dsimp only [step] at h
    split at h
    · rename_i call howner
      split at h
      · cases h
        exact .expires howner
      · cases h
    · cases h
  | worker index move =>
    dsimp only [step] at h
    split at h
    · rename_i thread hthread
      exact .works hthread (workerStep_works h)
    · cases h
  | requestStop =>
    cases h
    exact .requestStop
  | poison =>
    cases h
    exact .poison

end

end Pool

end Sederial
