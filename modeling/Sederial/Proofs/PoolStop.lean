import Sederial.Proofs.ServiceShutdown

/-!
# `Sederial.Proofs.PoolStop`: a pool before its stop flag is up, and after it

`Halted` is the invariant before: the queue is closed, the owner is past `close`, and workers are
through with their loops only with the stop flag up. With `Staffed` it follows that a pool that
serves with the flag down has all its workers at work (`reaches_atWork`). A worker that panicked or
could not lock the queue is the exception, and the flag is up after its next two actions.

`Winds` is what an action can do after: no job is accepted, and each worker begins at most the job
with which it passed the guard behind `next_job` before.
-/

set_option autoImplicit false

namespace Sederial

open Sederial.Lib

section

variable {Job : Type}

/-- A worker that is here saw the stop flag, or raised it. -/
def Phase.Out : Phase Job → Prop
  | .dropping | .notifying | .reporting | .ending | .finished _ => True
  | _ => False

/-- A worker that is here is in its loop. -/
def Phase.Loops : Phase Job → Prop
  | .looking | .maintaining | .locking | .waiting | .ready _ | .starting _ | .handling _ => True
  | _ => False

/-- The owner is past the first line of `close`, and not back from `shutdown`. -/
def Owner.Closes : Owner → Prop
  | .locking _ | .collecting _ | .joining _ | .detaching | .gone => True
  | _ => False

namespace Pool

variable {s s' : Pool Job} {index : Nat} {thread : Thread Job} {move : Move}

/-- Nobody is through before the stop flag is up. -/
structure Halted (s : Pool Job) : Prop where
  workers : ∀ (index : Nat) (thread : Thread Job), s.threads[index]? = some thread →
    thread.phase.Out → s.stop = true
  closed : s.jobs.closed = true → s.stop = true
  owner : s.owner.Closes → s.stop = true

/-- A critical section of `next_job` with the stop flag down does not end the loop. -/
theorem poll_loops {result : Option (JobPoll (Ticket Job)) × Jobs (Ticket Job)}
    (hresult : result.1 ≠ some .stopped) :
    ∃ thread', (s.pollLocked index thread result).threads = s.threads.set index thread' ∧
      ¬ thread'.phase.Out := by
  unfold pollLocked
  split
  · exact ⟨_, rfl, id⟩
  · obtain ⟨poll, jobs⟩ := result
    cases poll with
    | none => exact ⟨_, rfl, id⟩
    | some poll =>
      cases poll with
      | ready ticket => exact ⟨_, rfl, id⟩
      | idle => exact ⟨_, rfl, id⟩
      | stopped => exact (hresult rfl).elim

/-- A worker that finds an open queue and no stop flag does not stop. -/
theorem nextJob_loops {jobs : Jobs (Ticket Job)} (hclosed : jobs.closed = false) :
    (jobs.nextJob false).1 ≠ some .stopped := by
  unfold Jobs.nextJob
  rw [hclosed, if_neg nofun]
  split <;> exact nofun

/-- Nor does a worker that wakes up then. -/
theorem wakeUp_loops {jobs : Jobs (Ticket Job)} (hclosed : jobs.closed = false)
    (timedOut : Bool) : (jobs.wakeUp false timedOut).1 ≠ some .stopped := by
  unfold Jobs.wakeUp
  split
  · exact nofun
  · exact nextJob_loops hclosed

/-- With the stop flag down and the queue open, a worker stays in its loop or is about to raise the
flag. -/
theorem workerStep_loops (hstop : s.stop = false) (hclosed : s.jobs.closed = false)
    (hphase : ¬ thread.phase.Out) (h : s.workerStep index thread move = some s') :
    s'.stop = true ∨ ∃ thread', s'.threads = s.threads.set index thread' ∧
      ¬ thread'.phase.Out := by
  have hout : ∀ {phase : Phase Job}, thread.phase = phase → phase.Out →
      s'.stop = true ∨ ∃ thread', s'.threads = s.threads.set index thread' ∧
        ¬ thread'.phase.Out := fun heq h => (hphase (heq ▸ h)).elim
  unfold workerStep at h
  -- The cases of the source of `workerStep`, in its order.
  split at h
  · cases h
    refine .inr ⟨{ thread with phase := .maintaining }, ?_, id⟩
    rw [hstop]
    rfl
  · cases h
    exact .inr ⟨_, rfl, id⟩
  · cases h
    exact .inr ⟨_, rfl, id⟩
  · cases h
    rw [hstop]
    exact .inr (poll_loops (nextJob_loops hclosed))
  · cases h
    rw [hstop]
    exact .inr (poll_loops (wakeUp_loops hclosed false))
  · cases h
    rw [hstop]
    exact .inr (poll_loops (wakeUp_loops hclosed true))
  · cases h
    exact .inr ⟨_, rfl, id⟩
  · cases h
    exact .inl rfl
  · rename_i ticket _
    cases h
    refine .inr ⟨{ thread with phase := .starting ticket }, ?_, id⟩
    rw [hstop]
    rfl
  · cases h
    exact .inr ⟨_, rfl, id⟩
  · cases h
    exact .inr ⟨_, rfl, id⟩
  · cases h
    exact .inr ⟨_, rfl, id⟩
  · rename_i heq
    exact hout heq trivial
  · rename_i heq
    exact hout heq trivial
  · cases h
    exact .inr ⟨_, rfl, id⟩
  · cases h
    exact .inl rfl
  · rename_i heq
    exact hout heq trivial
  · rename_i heq
    exact hout heq trivial
  · rename_i heq
    exact hout heq trivial
  · rename_i heq
    exact hout heq trivial
  · cases h

/-- An action that closes nothing and keeps the threads. -/
theorem Halted.same (hs : s.Halted) (hthreads : s'.threads = s.threads)
    (hjobs : s'.jobs.closed = s.jobs.closed) (howner : ¬ s'.owner.Closes)
    (hstop : s'.stop = s.stop) : s'.Halted where
  workers := by
    rw [hthreads, hstop]
    exact hs.workers
  closed := by
    rw [hjobs, hstop]
    exact hs.closed
  owner := fun h => (howner h).elim

/-- A pool with the flag up owes nothing. -/
theorem Halted.of_stop (h : s.stop = true) : s.Halted :=
  ⟨fun _ _ _ _ => h, fun _ => h, fun _ => h⟩

/-- One action: a worker stops, and the queue is closed, only with the flag up or by the owner. -/
theorem step_halted {a : Action Job} (hs : s.Halted) (h : s.step a = some s') : s'.Halted := by
  cases hstop : s.stop with
  | true => exact .of_stop ((step_acts h).stop_raised hstop)
  | false =>
    -- Then nobody is through, and the owner does not close the pool.
    have hdown : ∀ {P : Prop}, (P → s.stop = true) → ¬ P := by
      intro P himp hP
      exact nomatch hstop.symm.trans (himp hP)
    have hclosed : s.jobs.closed = false := by
      cases hclosed : s.jobs.closed with
      | false => rfl
      | true => exact (hdown hs.closed hclosed).elim
    have howner := hdown hs.owner
    have hnext : ∀ left, ¬ (Owner.next left).Closes := by
      intro left
      cases left <;> exact id
    have hcloses : ∀ {owner : Owner}, s.owner = owner → ¬ owner.Closes := fun heq => heq ▸ howner
    cases step_acts h with
    | @works index thread move _ found works =>
      have hphase := hdown (hs.workers index thread found)
      obtain ⟨-, -, hsame, -, hjobs, -⟩ := works.frame
      rw [step_worker found] at h
      rcases workerStep_loops hstop hclosed hphase h with hraised | ⟨thread', hthreads, hin⟩
      · exact .of_stop hraised
      · refine ⟨fun i t ht hout => ?_, fun h => (hdown hs.closed (hjobs ▸ h)).elim,
          fun h => (howner (hsame ▸ h)).elim⟩
        rw [hthreads] at ht
        refine (forall_getElem?_set (P := fun _ t => ¬ t.phase.Out) ?_ (fun _ => hin) i t ht
          hout).elim
        exact fun j t ht _ => hdown (hs.workers j t ht)
    | turns _ turn => exact hs.same rfl rfl (by cases turn <;> exact id) rfl
    | @spawns left =>
      refine ⟨?_, hs.closed, fun hcloses => (hnext left hcloses).elim⟩
      intro index thread hthread hout
      rcases getElem?_concat_eq_some hthread with hold | ⟨-, rfl⟩
      · exact hs.workers index thread hold hout
      · exact hout.elim
    | accepts | rejects | poison => exact hs.same rfl rfl howner rfl
    | submitFails | stops | requestStop => exact .of_stop rfl
    | clears owner | closeFails owner | receives owner | expires owner | collected owner
    | joins owner | concludes owner | detaches owner => exact (hcloses owner trivial).elim

/-- In every run a worker that stops has a reason. -/
theorem reaches_halted {count capacity : Nat} {stop : Bool}
    (h : Reaches Pool.step (· = start count capacity stop) s) : s.Halted := by
  refine h.invariant ?_ fun s a s' hs hstep => step_halted hs hstep
  intro s hs
  subst hs
  refine ⟨nofun, nofun, fun hcloses => ?_⟩
  have hnot : ¬ (Owner.next count).Closes := by
    cases count <;> exact id
  exact (hnot hcloses).elim

/-! ### The workers of a pool that serves -/

/-- All workers are spawned that are to be spawned by now. -/
def Staffed (count : Nat) (s : Pool Job) : Prop :=
  s.owner.Building ∨ s.owner = .serving → s.threads.length + s.owner.toGo = count

/-- An action that starts no thread keeps the count. -/
theorem Staffed.same {count : Nat} (hs : s.Staffed count)
    (hthreads : s'.threads.length = s.threads.length) (howner : s'.owner = s.owner) :
    s'.Staffed count := by
  unfold Staffed
  rw [hthreads, howner]
  exact hs

/-- A pool that is closed need not be staffed. -/
theorem Staffed.closes {count : Nat} {call : Call} (howner : s'.owner = .closing call) :
    s'.Staffed count := by
  intro hserves
  rw [howner] at hserves
  rcases hserves with hbuilding | hserving
  · cases hbuilding
  · cases hserving

/-- One action: until the flag is up, every turn of `Pool::new` starts its worker. -/
theorem step_staffed {count : Nat} {a : Action Job} (hhalted : s.Halted)
    (hs : s.stop = false → s.Staffed count) (h : s.step a = some s') :
    s'.stop = false → s'.Staffed count := by
  intro hdown'
  have hdown : s.stop = false := by
    cases hstop : s.stop with
    | false => rfl
    | true => exact nomatch hdown'.symm.trans ((step_acts h).stop_raised hstop)
  have howner : ¬ s.owner.Closes := fun hcloses => nomatch hdown.symm.trans (hhalted.owner hcloses)
  have hstaffed := hs hdown
  have hcloses : ∀ {owner : Owner}, s.owner = owner → ¬ owner.Closes := fun heq => heq ▸ howner
  cases step_acts h with
  -- A worker starts no thread.
  | works found works =>
    obtain ⟨⟨thread', hthreads⟩, -, hsame, -⟩ := works.frame
    exact hstaffed.same (by rw [hthreads, List.length_set]) hsame
  | turns owner turn =>
    cases turn with
    | creates =>
      intro _
      have hcount := hstaffed (.inl (owner ▸ .creating _))
      rw [owner] at hcount
      exact hcount
    | _ => exact .closes rfl
  | @spawns left owner =>
    intro _
    have hcount := hstaffed (.inl (owner ▸ .spawning left))
    rw [owner] at hcount
    show (s.threads ++ [_]).length + (Owner.next left).toGo = count
    rw [toGo_next, List.length_append, List.length_singleton]
    dsimp only [Owner.toGo] at hcount
    omega
  | accepts | rejects | poison => exact hstaffed.same rfl rfl
  | submitFails | stops | requestStop => cases hdown'
  -- With the flag down the owner is not on its way out.
  | clears owner | closeFails owner | receives owner | expires owner | collected owner
  | joins owner | concludes owner | detaches owner => exact (hcloses owner trivial).elim

/-- In every run a pool that serves has all its workers, until the flag is up. -/
theorem reaches_staffed {count capacity : Nat} {stop : Bool}
    (h : Reaches Pool.step (· = start count capacity stop) s) :
    s.stop = false → s.Staffed count := by
  induction h with
  | start hs =>
    subst hs
    intro _ _
    exact (Nat.zero_add _).trans (toGo_next count)
  | next before hstep ih => exact step_staffed (reaches_halted before) ih hstep

/-- The flag is up after the next actions of this worker, which wait for nobody. -/
def Raises (s : Pool Job) (worker : Nat) : Prop :=
  ∃ n ≤ 2, ∃ s', runActions Pool.step s (List.replicate n (.worker worker .run)) = some s' ∧
    s'.stop = true

/-- The pool has all its workers, and each is in its loop or stops the service now. -/
structure AtWork (count : Nat) (s : Pool Job) : Prop where
  all : s.threads.length = count
  each : ∀ (worker : Nat) (thread : Thread Job), s.threads[worker]? = some thread →
    thread.phase.Loops ∨ s.Raises worker

/-- A worker one action away from the flag. -/
theorem raise_next {worker : Nat} (hthread : s.threads[worker]? = some thread)
    (hphase : thread.phase = .stopping ∨ thread.phase = .raising) :
    ∃ s', s.step (.worker worker .run) = some s' ∧ s'.stop = true := by
  rcases hphase with hphase | hphase
  · refine ⟨{ s with stop := true }.goto worker thread .dropping, ?_, rfl⟩
    simp only [step_worker hthread, workerStep, hphase]
  · exact raise_stop hthread hphase

/-- A worker that is about to raise the flag does so with its next action or the one after. -/
theorem raises_one {worker : Nat} (hthread : s.threads[worker]? = some thread)
    (hphase : thread.phase = .stopping ∨ thread.phase = .raising) : s.Raises worker := by
  obtain ⟨s', hstep, hstop⟩ := raise_next hthread hphase
  refine ⟨1, Nat.le_succ 1, s', ?_, hstop⟩
  simp only [List.replicate, runActions, hstep, Option.bind_some]

/-- A worker two actions away from the flag. -/
theorem raises_two {worker : Nat} (hthread : s.threads[worker]? = some thread)
    (hphase : thread.phase = .lockFailed ∨ thread.phase = .unwinding) : s.Raises worker := by
  have hlt : worker < s.threads.length := (List.getElem?_eq_some_iff.mp hthread).1
  obtain ⟨s₁, phase, hstep, hthread₁, hphase₁⟩ : ∃ s₁ thread₁,
      s.step (.worker worker .run) = some s₁ ∧ s₁.threads[worker]? = some thread₁ ∧
        (thread₁.phase = .stopping ∨ thread₁.phase = .raising) := by
    rcases hphase with hphase | hphase
    · refine ⟨{ s with failed := true }.goto worker thread .stopping, _, ?_,
        List.getElem?_set_self hlt, .inl rfl⟩
      simp only [step_worker hthread, workerStep, hphase]
    · refine ⟨{ s with failed := true }.goto worker thread .raising, _, ?_,
        List.getElem?_set_self hlt, .inr rfl⟩
      simp only [step_worker hthread, workerStep, hphase]
  obtain ⟨s', hstep', hstop⟩ := raise_next hthread₁ hphase₁
  refine ⟨2, Nat.le_refl 2, s', ?_, hstop⟩
  simp only [List.replicate, runActions, hstep, hstep', Option.bind_some]

/-- A pool that serves with the stop flag down has its workers. -/
theorem reaches_atWork {count capacity : Nat} {stop : Bool}
    (h : Reaches Pool.step (· = start count capacity stop) s) (hserving : s.owner = .serving)
    (hdown : s.stop = false) : s.AtWork count where
  all := by
    have hcount := reaches_staffed h hdown (.inr hserving)
    rw [hserving] at hcount
    exact hcount
  each := by
    intro worker thread hthread
    have hin : ¬ thread.phase.Out := fun hout =>
      nomatch hdown.symm.trans ((reaches_halted h).workers worker thread hthread hout)
    cases hphase : thread.phase with
    | lockFailed => exact .inr (raises_two hthread (.inl hphase))
    | unwinding => exact .inr (raises_two hthread (.inr hphase))
    | stopping => exact .inr (raises_one hthread (.inl hphase))
    | raising => exact .inr (raises_one hthread (.inr hphase))
    | dropping | notifying | reporting | ending | finished =>
      rw [hphase] at hin
      exact (hin trivial).elim
    | _ => exact .inl trivial

/-! ### A pool with the stop flag up -/

end Pool

/-- The worker is past the guard behind `next_job`. -/
def Phase.begins : Phase Job → Nat
  | .starting _ => 1
  | _ => 0

/-- The job with which the worker is past the guard. -/
def Phase.passed : Phase Job → List (Ticket Job)
  | .starting ticket => [ticket]
  | _ => []

/-- A move of the program counter alone ends with no job past its check. -/
theorem Phase.Goes.passed {panicked : Bool} {phase phase' : Phase Job}
    (h : phase.Goes panicked phase') : phase'.passed = [] := by
  cases h <;> rfl

/-- A worker that polls begins nothing. -/
theorem Phase.Polls.begins {phase : Phase Job} (h : phase.Polls) : phase.begins = 0 := by
  cases h <;> rfl

/-- A worker inside a method has begun its job already. -/
theorem Phase.Inside.begins {phase : Phase Job} (h : phase.Inside) : phase.begins = 0 := by
  cases h <;> rfl

/-- A move of the program counter alone begins nothing. -/
theorem Phase.Goes.begins {panicked : Bool} {phase phase' : Phase Job}
    (h : phase.Goes panicked phase') : phase'.begins = 0 := by
  cases h <;> rfl

namespace Pool

variable {s s' s'' : Pool Job} {index : Nat} {thread : Thread Job} {move : Move}

/-- How many workers are past the guard. -/
def starting (s : Pool Job) : Nat := (s.threads.map fun thread => thread.phase.begins).sum

/-- The job with which a worker is past the guard. -/
def passed (worker : Nat) (s : Pool Job) : List (Ticket Job) :=
  s.threads[worker]?.elim [] fun thread => thread.phase.passed

/-- An action that keeps the threads keeps what they have past their checks. -/
theorem passed_congr (hthreads : s'.threads = s.threads) (worker : Nat) :
    s'.passed worker = s.passed worker := by
  unfold passed
  rw [hthreads]

/-- Nothing is accepted any more, and what is handled was past the guard. -/
structure Counts (s s' : Pool Job) : Prop where
  accepted : s'.ledger.accepted = s.ledger.accepted
  handled : s'.ledger.handled.length + s'.starting ≤ s.ledger.handled.length + s.starting

/-- What a pool still does: it accepts nothing, and a worker begins no job but the one with which
it was past the guard. -/
structure Winds (s s' : Pool Job) : Prop extends Counts s s' where
  each : ∀ worker, s'.handledBy worker ++ s'.passed worker =
    s.handledBy worker ++ s.passed worker

/-- A change that the workers and the log do not see. -/
theorem Winds.frame (hlog : s'.log = s.log) (hthreads : s'.threads = s.threads) : s.Winds s' where
  accepted := by
    show s'.log.flatMap PoolEvent.accepts = _
    rw [hlog]
    rfl
  handled := by
    show (s'.log.flatMap PoolEvent.handles).length + _ ≤ _
    unfold starting
    rw [hlog, hthreads]
    exact Nat.le_refl _
  each := by
    intro worker
    unfold handledBy
    rw [hlog, passed_congr hthreads]

/-- Nothing happens, and nothing is begun. -/
theorem Winds.refl (s : Pool Job) : s.Winds s := .frame rfl rfl

/-- Of two stretches, the second begins what the first has left. -/
theorem Winds.trans (h : s.Winds s') (h' : s'.Winds s'') : s.Winds s'' where
  accepted := h'.accepted.trans h.accepted
  handled := h'.handled.trans h.handled
  each := fun worker => (h'.each worker).trans (h.each worker)

end Pool

end

end Sederial
