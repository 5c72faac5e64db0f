import Mathlib.Algebra.BigOperators.Ring.List
import Sederial.Crew
import Sederial.Proofs.PoolQueue

/-!
# `Sederial.Proofs.CrewRuns`: each worker works alone

However the threads of a pool interleave, the state of a worker is the state of a sequential
program: the worker that `create_worker` returned, called with one job after the other, with
maintenance in between (`Worker.Runs`). Nothing that another worker does enters it.

`Called` relates the calls of `handle` in the log with the calls that returned. They differ by one
call at most: the one that is running, or the one that panicked. `reaches_staffed` is the
invariant, and `handled_eq_sum` says that the jobs of the workers together are the handled jobs of
the pool.
-/

set_option autoImplicit false

namespace Sederial

open Sederial.Lib

variable {W Job : Type}

/-- A worker that was created in `w₀` and is through with these jobs, in this order. -/
inductive Worker.Runs (worker : Worker W Job) (w₀ : W) : List (Ticket Job) → W → Prop
  | created : Worker.Runs worker w₀ [] w₀
  | maintained {tickets : List (Ticket Job)} {w : W} (before : Worker.Runs worker w₀ tickets w) :
      Worker.Runs worker w₀ tickets (worker.maintain w)
  | handled {tickets : List (Ticket Job)} {w : W} (before : Worker.Runs worker w₀ tickets w)
      (ticket : Ticket Job) :
      Worker.Runs worker w₀ (tickets ++ [ticket]) (worker.handle ticket.job w)

/-- The job a worker was called with. -/
def PoolEvent.handledBy (index : Nat) : PoolEvent Job → List (Ticket Job)
  | .handled worker ticket => if worker = index then [ticket] else []
  | _ => []

/-- The job of a call of `handle` that has not returned. -/
def Phase.running : Phase Job → List (Ticket Job)
  | .handling ticket => [ticket]
  | _ => []

/-- A thread that left its last phase is not inside a job. -/
theorem Phase.Goes.running {panicked : Bool} {phase phase' : Phase Job}
    (h : phase.Goes panicked phase') : phase'.running = [] := by
  cases h <;> rfl

namespace Pool

/-- The jobs a worker was called with, in order. -/
def handledBy (index : Nat) (s : Pool Job) : List (Ticket Job) :=
  s.log.flatMap (PoolEvent.handledBy index)

/-- One event adds to the jobs of a worker those that it names. -/
theorem handledBy_record (index : Nat) (e : PoolEvent Job) (s : Pool Job) :
    (s.record e).handledBy index = s.handledBy index ++ e.handledBy index := by
  show (s.log ++ [e]).flatMap (PoolEvent.handledBy index) = _
  rw [List.flatMap_append, List.flatMap_singleton]
  rfl

/-- An event that is no call of `handle`. -/
theorem handledBy_record_of_nil {index : Nat} {e : PoolEvent Job} (he : e.handledBy index = [])
    (s : Pool Job) : (s.record e).handledBy index = s.handledBy index := by
  rw [handledBy_record, he, List.append_nil]

/-- A worker was called with `tickets`, and the calls with `done` returned. -/
structure Called (tickets done : List (Ticket Job)) (thread : Thread Job) : Prop where
  open_ : ∃ rest, tickets = done ++ rest ∧ rest.length ≤ 1 ∧
    (thread.panicked = false → rest = thread.phase.running)
  unwound : thread.panicked = true → thread.phase.Leaving

section

variable {s s' : Pool Job} {index : Nat} {thread : Thread Job} {tickets done : List (Ticket Job)}

/-- A worker goes on, with no call of `handle` running before or after. -/
theorem Called.goes {phase : Phase Job} (h : Called tickets done thread)
    (hbefore : thread.phase.running = []) (hafter : phase.running = [])
    (hleaving : thread.phase.Leaving → phase.Leaving) :
    Called tickets done { thread with phase := phase } := by
  obtain ⟨⟨rest, htickets, hone, hrunning⟩, hunwound⟩ := h
  refine ⟨⟨rest, htickets, hone, fun hpanicked => ?_⟩, fun hpanicked => ?_⟩
  · rw [hafter, hrunning hpanicked, hbefore]
  · exact hleaving (hunwound hpanicked)

/-- A worker panics. -/
theorem Called.panics (h : Called tickets done thread) :
    Called tickets done { thread with panicked := true, phase := .unwinding } := by
  obtain ⟨⟨rest, htickets, hone, -⟩, -⟩ := h
  exact ⟨⟨rest, htickets, hone, nofun⟩, fun _ => .unwinding⟩

/-- An action of a worker is no call of `handle` by another one. -/
theorem Works.handledBy_ne (h : Works index thread s s') {other : Nat} (hne : index ≠ other) :
    s'.handledBy other = s.handledBy other := by
  cases h with
  | @handles ticket phase =>
    have hother : (PoolEvent.handled index ticket).handledBy other = [] := if_neg hne
    exact handledBy_record_of_nil hother s
  | panics | takes | lockFails | discards | keeps => exact handledBy_record_of_nil rfl s
  | goes | fails | stops | raisesFailed | raisesStop | reports => rfl

/-- A worker calls `handle` when it starts a job. -/
theorem Works.handledBy_self (h : Works index thread s s')
    (hstarting : ∀ ticket, thread.phase ≠ .starting ticket) :
    s'.handledBy index = s.handledBy index := by
  cases h with
  | handles phase => exact (hstarting _ phase).elim
  | panics | takes | lockFails | discards | keeps => exact handledBy_record_of_nil rfl s
  | goes | fails | stops | raisesFailed | raisesStop | reports => rfl

/-- A worker that is in no call of `handle` and starts none performs an action. -/
theorem Works.called (h : Works index thread s s') (hbefore : thread.phase.running = [])
    (hstarting : ∀ ticket, thread.phase ≠ .starting ticket)
    (hcalled : Called tickets done thread) :
    ∃ thread', s'.threads = s.threads.set index thread' ∧ Called tickets done thread' := by
  have hpolls : ∀ phase : Phase Job, thread.phase.Polls → thread.phase.Leaving → phase.Leaving :=
    fun _ polls h => (polls.not_leaving h).elim
  cases h with
  | goes goes => exact ⟨_, rfl, hcalled.goes hbefore goes.running goes.leaving⟩
  | panics => exact ⟨_, rfl, hcalled.panics⟩
  | takes polls => exact ⟨_, rfl, hcalled.goes hbefore rfl (hpolls _ polls)⟩
  | lockFails polls => exact ⟨_, rfl, hcalled.goes hbefore rfl (hpolls _ polls)⟩
  | fails phase =>
    rw [phase] at hbefore
    exact ⟨_, rfl, hcalled.goes (phase ▸ hbefore) rfl fun h => nomatch phase ▸ h⟩
  | stops => exact ⟨_, rfl, hcalled.goes hbefore rfl fun _ => .dropping⟩
  | discards => exact ⟨_, rfl, hcalled.goes hbefore rfl fun _ => .dropping⟩
  | keeps phase =>
    exact ⟨_, rfl, hcalled.goes hbefore rfl fun h => nomatch phase ▸ h⟩
  | handles phase => exact (hstarting _ phase).elim
  | raisesFailed => exact ⟨_, rfl, hcalled.goes hbefore rfl fun _ => .raising⟩
  | raisesStop => exact ⟨_, rfl, hcalled.goes hbefore rfl fun _ => .notifying⟩
  | reports => exact ⟨_, rfl, hcalled.goes hbefore rfl fun _ => .ending⟩

/-- A call of `handle` begins. -/
theorem Called.starts {ticket : Ticket Job} (h : Called tickets done thread)
    (hphase : thread.phase = .starting ticket) :
    Called (tickets ++ [ticket]) done { thread with phase := .handling ticket } := by
  obtain ⟨⟨rest, htickets, -, hrunning⟩, hunwound⟩ := h
  -- The worker did not panic, since it is in its loop.
  have hpanicked : thread.panicked = false := by
    cases hpanicked : thread.panicked with
    | false => rfl
    | true => exact nomatch hphase ▸ hunwound hpanicked
  have hnone : rest = [] := by
    rw [hrunning hpanicked, hphase]
    rfl
  refine ⟨⟨[ticket], ?_, Nat.le_refl 1, fun _ => rfl⟩, fun h => ?_⟩
  · rw [htickets, hnone, List.append_nil]
  · exact nomatch hpanicked.symm.trans h

/-- A worker that begins its job appends it to those it was called on. -/
theorem Works.starts {ticket : Ticket Job} (h : Works index thread s s')
    (hphase : thread.phase = .starting ticket) (hcalled : Called (s.handledBy index) done thread) :
    ∃ thread', s'.threads = s.threads.set index thread' ∧
      Called (s'.handledBy index) done thread' := by
  have hpolls : ¬ thread.phase.Polls := by
    rw [hphase]
    exact nofun
  cases h with
  | @handles started phase =>
    have heq : ticket = started := Phase.starting.inj (hphase.symm.trans phase)
    subst heq
    have hevent : (PoolEvent.handled index ticket).handledBy index = [ticket] := if_pos rfl
    refine ⟨_, rfl, ?_⟩
    show Called ((s.record (.handled index ticket)).handledBy index) done _
    rw [handledBy_record, hevent]
    exact hcalled.starts phase
  | goes goes =>
    rw [hphase] at goes
    cases goes with
    | wait polls => cases polls
    | idle polls => cases polls
    | quit polls => cases polls
  | panics inside =>
    rw [hphase] at inside
    cases inside
  | takes polls => exact (hpolls polls).elim
  | lockFails polls => exact (hpolls polls).elim
  | fails phase => exact nomatch hphase.symm.trans phase
  | stops phase => exact nomatch hphase.symm.trans phase
  | discards phase => exact nomatch hphase.symm.trans phase
  | keeps phase => exact nomatch hphase.symm.trans phase
  | raisesFailed phase => exact nomatch hphase.symm.trans phase
  | raisesStop phase => exact nomatch hphase.symm.trans phase
  | reports phase => exact nomatch hphase.symm.trans phase

/-- The actions of the owner and of the surroundings call no worker and spawn none, apart from
`spawn`. -/
theorem step_quiet {a : Action Job} (h : s.step a = some s')
    (hworker : ∀ index move, a ≠ .worker index move) (hspawn : a ≠ .spawn true) :
    s'.threads = s.threads ∧ ∀ index, s'.handledBy index = s.handledBy index := by
  have hsame : ∀ {e : PoolEvent Job}, (∀ index, e.handledBy index = []) → ∀ (t : Pool Job) index,
      (t.record e).handledBy index = t.handledBy index :=
    fun he t index => handledBy_record_of_nil (he index) t
  cases step_acts h with
  | works => exact (hworker _ _ rfl).elim
  | spawns => exact (hspawn rfl).elim
  | submitFails =>
    exact ⟨rfl, fun index => (hsame (fun _ => rfl) _ index).trans (hsame (fun _ => rfl) _ index)⟩
  | accepts | rejects | clears | closeFails | receives | expires | concludes =>
    exact ⟨rfl, fun index => hsame (fun _ => rfl) _ index⟩
  | turns | stops | collected | joins | detaches | requestStop | poison =>
    exact ⟨rfl, fun _ => rfl⟩

/-- A new thread. -/
theorem step_spawn (h : s.step (.spawn true) = some s') :
    ∃ left, s.owner = .spawning left ∧ s' = s.addWorker left := by
  dsimp only [step] at h
  split at h
  · rename_i left howner
    cases h
    exact ⟨left, howner, rfl⟩
  · cases h

/-- A worker that is added has handled nothing yet. -/
theorem handledBy_addWorker (left index : Nat) :
    (s.addWorker left).handledBy index = s.handledBy index :=
  handledBy_record_of_nil rfl s

/-- A call of `handle` is a call by one of the first workers. -/
theorem sum_handledBy_event {n : Nat} {e : PoolEvent Job}
    (h : ∀ index, n ≤ index → e.handledBy index = []) :
    ((List.range n).map fun index => (e.handledBy index : Multiset (Ticket Job))).sum =
      e.handles := by
  have hzero : (∀ index, e.handledBy index = []) → ((List.range n).map fun index =>
      (e.handledBy index : Multiset (Ticket Job))).sum = 0 := by
    intro hnone
    refine List.sum_eq_zero fun m hm => ?_
    obtain ⟨index, -, rfl⟩ := List.mem_map.mp hm
    rw [hnone index]
    rfl
  cases e with
  | handled worker ticket =>
    have hlt : worker < n := by
      by_contra hlt
      have hnone := h worker (Nat.not_lt.mp hlt)
      rw [show (PoolEvent.handled worker ticket).handledBy worker = [ticket] from if_pos rfl]
        at hnone
      cases hnone
    have hcoe : ∀ index, ((PoolEvent.handled worker ticket).handledBy index :
        Multiset (Ticket Job)) = if worker = index then {ticket} else 0 := by
      intro index
      unfold PoolEvent.handledBy
      dsimp only
      split <;> rfl
    simp only [hcoe]
    rw [sum_range_ite, if_pos hlt]
    rfl
  | _ => exact hzero fun _ => rfl

/-- The jobs of the workers are the handled jobs of the pool. -/
theorem handled_eq_sum {n : Nat} (log : List (PoolEvent Job))
    (h : ∀ index, n ≤ index → log.flatMap (PoolEvent.handledBy index) = []) :
    ((log.flatMap PoolEvent.handles : List (Ticket Job)) : Multiset (Ticket Job)) =
      ((List.range n).map fun index =>
        (log.flatMap (PoolEvent.handledBy index) : Multiset (Ticket Job))).sum := by
  induction log with
  | nil =>
    symm
    refine List.sum_eq_zero fun m hm => ?_
    obtain ⟨index, -, rfl⟩ := List.mem_map.mp hm
    rfl
  | cons e log ih =>
    simp only [List.flatMap_cons, List.append_eq_nil_iff] at h
    have hevent := sum_handledBy_event fun index hindex => (h index hindex).1
    have hlog := ih fun index hindex => (h index hindex).2
    simp only [List.flatMap_cons, ← Multiset.coe_add]
    rw [hlog, ← hevent, List.sum_map_add]

end

end Pool

namespace Crew

/-- Each worker has a state, and it is the state of a run of its own. -/
structure WorkersRun (worker : Worker W Job) (initial : Nat → W) (s : Crew W Job) : Prop where
  sized : s.states.length = s.pool.threads.length
  serves : ∀ (index : Nat) (thread : Thread Job), s.pool.threads[index]? = some thread →
    ∃ w done, s.states[index]? = some w ∧ worker.Runs (initial index) done w ∧
      Pool.Called (s.pool.handledBy index) done thread
  unborn : ∀ index, s.pool.threads.length ≤ index → s.pool.handledBy index = []

section

variable {worker : Worker W Job} {initial : Nat → W} {s s' : Crew W Job}

/-- A step of the crew is one of its pool, with the states the workers' calls leave. -/
theorem step_pool {a : Action Job} (h : s.step worker initial a = some s') :
    s.pool.step a = some s'.pool ∧ s'.states = s.work worker initial a := by
  obtain ⟨pool, hpool, hs⟩ := Option.map_eq_some_iff.mp h
  cases hs
  exact ⟨hpool, rfl⟩

/-- One worker performs an action, and the states and the calls of the others stay. -/
theorem WorkersRun.update {index : Nat} {thread thread' : Thread Job} {w : W}
    {done : List (Ticket Job)} (hs : s.WorkersRun worker initial)
    (hthread : s.pool.threads[index]? = some thread)
    (hthreads : s'.pool.threads = s.pool.threads.set index thread')
    (hothers : ∀ other, index ≠ other → s'.pool.handledBy other = s.pool.handledBy other)
    (hlength : s'.states.length = s.states.length)
    (hstates : ∀ other, index ≠ other → s'.states[other]? = s.states[other]?)
    (hw : s'.states[index]? = some w) (hruns : worker.Runs (initial index) done w)
    (hcalled : Pool.Called (s'.pool.handledBy index) done thread') :
    s'.WorkersRun worker initial := by
  have hlt : index < s.pool.threads.length := (List.getElem?_eq_some_iff.mp hthread).1
  refine ⟨?_, ?_, fun other hother => ?_⟩
  · rw [hlength, hthreads, List.length_set, hs.sized]
  · intro other t ht
    by_cases hne : index = other
    · subst hne
      rw [hthreads, List.getElem?_set_self hlt] at ht
      cases ht
      exact ⟨w, done, hw, hruns, hcalled⟩
    · rw [hthreads, List.getElem?_set_ne hne] at ht
      rw [hothers other hne, hstates other hne]
      exact hs.serves other t ht
  · rw [hthreads, List.length_set] at hother
    rw [hothers other (by omega)]
    exact hs.unborn other hother

/-- A call of a worker on another thread leaves the states of the rest alone. -/
theorem getElem?_modify_of_ne {index other : Nat} (hne : index ≠ other) (f : W → W) (l : List W) :
    (l.modify index f)[other]? = l[other]? := List.getElem?_modify_ne f l hne

/-- What the action of a worker does to the states. -/
theorem work_worker {index : Nat} {thread : Thread Job} {move : Move}
    (hthread : s.pool.threads[index]? = some thread) (hrunning : thread.phase.running = []) :
    s.work worker initial (.worker index move) = s.states ∨
      s.work worker initial (.worker index move) = s.states.modify index worker.maintain := by
  cases move with
  | run =>
    dsimp only [work]
    rw [hthread]
    split
    · exact .inr rfl
    · rename_i heq
      cases heq
      cases hrunning
    · exact .inl rfl
  | panic => exact .inl rfl
  | timeout => exact .inl rfl

/-- The step lemma at one worker's move: its state is still that of its own run. -/
theorem WorkersRun.moves {index : Nat} {move : Move} (hs : s.WorkersRun worker initial)
    (h : s.step worker initial (.worker index move) = some s') : s'.WorkersRun worker initial := by
  obtain ⟨hpool, hwork⟩ := step_pool h
  obtain ⟨thread, hthread, hstep⟩ : ∃ thread, s.pool.threads[index]? = some thread ∧
      s.pool.workerStep index thread move = some s'.pool := by
    dsimp only [Pool.step] at hpool
    split at hpool
    · rename_i thread hthread
      exact ⟨thread, hthread, hpool⟩
    · cases hpool
  obtain ⟨w, done, hw, hruns, hcalled⟩ := hs.serves index thread hthread
  have hworks := Pool.workerStep_works hstep
  have hothers : ∀ other, index ≠ other → s'.pool.handledBy other = s.pool.handledBy other :=
    fun other hne => hworks.handledBy_ne hne
  by_cases hrunning : thread.phase.running = []
  · -- No call of `handle` is running: the state is kept or maintained.
    obtain ⟨thread', hthreads, hcalled'⟩ : ∃ thread',
        s'.pool.threads = s.pool.threads.set index thread' ∧
          Pool.Called (s'.pool.handledBy index) done thread' := by
      by_cases hstarting : ∃ ticket, thread.phase = .starting ticket
      · obtain ⟨ticket, hphase⟩ := hstarting
        exact hworks.starts hphase hcalled
      · have hno : ∀ ticket, thread.phase ≠ .starting ticket := not_exists.mp hstarting
        rw [hworks.handledBy_self hno]
        exact hworks.called hrunning hno hcalled
    rcases work_worker hthread hrunning with
      hsame | hmaintain
    · have hstates : s'.states = s.states := hwork.trans hsame
      exact hs.update hthread hthreads hothers (by rw [hstates]) (fun _ _ => by rw [hstates])
        (hstates ▸ hw) hruns hcalled'
    · have hstates := hwork.trans hmaintain
      refine hs.update hthread hthreads hothers (by rw [hstates, List.length_modify])
        (fun other hne => by rw [hstates, getElem?_modify_of_ne hne]) ?_ hruns.maintained hcalled'
      rw [hstates, List.getElem?_modify_eq, hw]
      rfl
  · obtain ⟨phase, panicked⟩ := thread
    cases phase with
    | handling ticket =>
      obtain ⟨⟨rest, htickets, -, hopen⟩, hunwound⟩ := id hcalled
      cases move with
      | run =>
        -- The call returns, and its job is done.
        have hpanicked : panicked = false := by
          cases panicked with
          | false => rfl
          | true => exact nomatch hunwound rfl
        have hrest : rest = [ticket] := hopen hpanicked
        have hstates : s'.states = s.states.modify index (worker.handle ticket.job) := by
          rw [hwork]
          dsimp only [work]
          rw [hthread]
        have hend : s'.pool = s.pool.goto index ⟨.handling ticket, panicked⟩ .looking :=
          (Option.some.inj hstep).symm
        have hcalls : s'.pool.handledBy index = s.pool.handledBy index := by
          rw [hend]
          rfl
        refine hs.update hthread (by rw [hend]; rfl) hothers (by rw [hstates, List.length_modify])
          (fun other hne => by rw [hstates, getElem?_modify_of_ne hne]) ?_ (hruns.handled ticket)
          ⟨⟨[], ?_, Nat.zero_le 1, fun _ => rfl⟩, fun h => ?_⟩
        · rw [hstates, List.getElem?_modify_eq, hw]
          rfl
        · rw [hcalls, List.append_nil, ← hrest]
          exact htickets
        · exact nomatch hpanicked.symm.trans h
      | panic =>
        have hend : s'.pool = s.pool.unwind index ⟨.handling ticket, panicked⟩ :=
          (Option.some.inj hstep).symm
        have hcalls : s'.pool.handledBy index = s.pool.handledBy index := by
          rw [hend]
          have hnone : (PoolEvent.panicked index : PoolEvent Job).handledBy index = [] := rfl
          exact Pool.handledBy_record_of_nil hnone s.pool
        have hstates : s'.states = s.states := hwork
        refine hs.update hthread (by rw [hend]; rfl) hothers (by rw [hstates])
          (fun _ _ => by rw [hstates]) (by rw [hstates, hw]) hruns ?_
        rw [hcalls]
        exact hcalled.panics
      | timeout => cases hstep
    | _ => exact (hrunning rfl).elim

/-- The step lemma: every action keeps each worker's state that of its own run. -/
theorem WorkersRun.step {a : Action Job} (hs : s.WorkersRun worker initial)
    (h : s.step worker initial a = some s') : s'.WorkersRun worker initial := by
  obtain ⟨hpool, hwork⟩ := step_pool h
  by_cases hworker : ∃ index move, a = .worker index move
  -- The state of a worker changes with its own moves only.
  · obtain ⟨index, move, rfl⟩ := hworker
    exact hs.moves h
  by_cases hspawn : a = .spawn true
  · subst hspawn
    -- A worker is born with its state, and its run starts there.
    obtain ⟨left, -, hadded⟩ := Pool.step_spawn hpool
    have hthreads : s'.pool.threads = s.pool.threads ++ [⟨.looking, false⟩] := by
      rw [hadded]
      rfl
    have hcalls : ∀ index, s'.pool.handledBy index = s.pool.handledBy index := by
      intro index
      rw [hadded]
      exact Pool.handledBy_addWorker left index
    have hstates : s'.states = s.states ++ [initial s.states.length] := hwork
    refine ⟨?_, fun index thread hthread => ?_, fun index hindex => ?_⟩
    · rw [hstates, hthreads, List.length_append, List.length_append, hs.sized]
      rfl
    · rw [hthreads] at hthread
      rw [hcalls, hstates]
      rcases getElem?_concat_eq_some hthread with hold | ⟨hindex, hnew⟩
      · obtain ⟨w, done, hw, hruns, hcalled⟩ := hs.serves index thread hold
        exact ⟨w, done, getElem?_append_of_some hw, hruns, hcalled⟩
      · subst hindex hnew
        refine ⟨initial s.pool.threads.length, [], ?_, .created, ⟨[], ?_, Nat.zero_le 1, ?_⟩, nofun⟩
        · rw [← hs.sized]
          exact List.getElem?_concat_length
        · exact hs.unborn _ (Nat.le_refl _)
        · exact fun _ => rfl
    · rw [hthreads, List.length_append] at hindex
      rw [hcalls]
      exact hs.unborn index (Nat.le_of_succ_le hindex)
  · -- The threads and their states stay.
    obtain ⟨hthreads, hcalls⟩ :=
      Pool.step_quiet hpool (fun index move ha => hworker ⟨index, move, ha⟩)
      hspawn
    have hstates : s'.states = s.states := by
      rw [hwork]
      cases a with
      | worker index move => exact (hworker ⟨index, move, rfl⟩).elim
      | spawn ok =>
        cases ok with
        | true => exact (hspawn rfl).elim
        | false => rfl
      | _ => rfl
    refine ⟨?_, fun index thread hthread => ?_, fun index hindex => ?_⟩
    · rw [hstates, hthreads, hs.sized]
    · rw [hthreads] at hthread
      rw [hcalls, hstates]
      exact hs.serves index thread hthread
    · rw [hthreads] at hindex
      rw [hcalls]
      exact hs.unborn index hindex

/-- Every run. -/
theorem reaches_staffed {count capacity : Nat} {stop : Bool}
    (h : Reaches (Crew.step worker initial) (· = start count capacity stop) s) :
    s.WorkersRun worker initial := by
  refine h.invariant ?_ fun s a s' hs hstep => hs.step hstep
  intro s hs
  subst hs
  exact ⟨rfl, nofun, fun _ _ => rfl⟩

/-- The pool of a crew takes the actions of the crew. -/
theorem reaches_pool {count capacity : Nat} {stop : Bool}
    (h : Reaches (Crew.step worker initial) (· = start count capacity stop) s) :
    Reaches Pool.step (· = Pool.start count capacity stop) s.pool := by
  refine h.refines Crew.pool ?_ fun s a s' _ hstep => .one (step_pool hstep).1
  intro s hs
  subst hs
  exact .start rfl

/-- The state of a worker is one of a run of its own, on the first of its jobs. -/
theorem WorkersRun.runs {index : Nat} {w : W} (hs : s.WorkersRun worker initial)
    (hw : s.states[index]? = some w) :
    ∃ done, worker.Runs (initial index) done w ∧ done <+: s.pool.handledBy index := by
  have hlt : index < s.pool.threads.length := by
    rw [← hs.sized]
    exact (List.getElem?_eq_some_iff.mp hw).1
  obtain ⟨w', done, hw', hdone, hcalled⟩ := hs.serves index _ (List.getElem?_eq_getElem hlt)
  rw [hw, Option.some.injEq] at hw'
  subst hw'
  obtain ⟨rest, htickets, -⟩ := hcalled.open_
  exact ⟨done, hdone, rest, htickets.symm⟩

/-- What was handled was accepted. -/
theorem handled_le_accepted {count capacity : Nat} {stop : Bool}
    (h : Reaches (Crew.step worker initial) (· = start count capacity stop) s) :
    (s.pool.ledger.handled : Multiset (Ticket Job)) ≤ s.pool.ledger.accepted := by
  have hsound := (Pool.reaches_sound (reaches_pool h)).1
  rw [← hsound.balanced]
  exact Multiset.le_add_right _ _ |>.trans' (Multiset.le_add_left _ _)

/-- What the workers made, each from some of the jobs it was called with, was made together from
jobs that the queue accepted, with none of them used twice. -/
theorem exists_made {Out : Type} {f : W → Multiset Out} {r : Ticket Job → Out → Prop}
    {count capacity : Nat} {stop : Bool}
    (h : Reaches (Crew.step worker initial) (· = start count capacity stop) s)
    (hruns : ∀ index done w, worker.Runs (initial index) done w →
      ∃ jobs ≤ (done : Multiset (Ticket Job)), Multiset.Rel r jobs (f w)) :
    ∃ jobs ≤ (s.pool.ledger.accepted : Multiset (Ticket Job)), (jobs.map Ticket.number).Nodup ∧
      Multiset.Rel r jobs (s.states.map f).sum := by
  have hstaffed := reaches_staffed h
  have hsound := (Pool.reaches_sound (reaches_pool h)).1
  have hworkers : ∀ index w, s.states[index]? = some w →
      ∃ jobs ≤ (s.pool.handledBy index : Multiset (Ticket Job)), Multiset.Rel r jobs (f w) := by
    intro index w hw
    obtain ⟨done, hdone, hprefix⟩ := hstaffed.runs hw
    obtain ⟨jobs, hle, hrel⟩ := hruns index done w hdone
    exact ⟨jobs, hle.trans (Multiset.coe_le.mpr hprefix.sublist.subperm), hrel⟩
  obtain ⟨jobs, hle, hrel⟩ := exists_rel_sum _ _ hworkers
  have haccepted : jobs ≤ (s.pool.ledger.accepted : Multiset (Ticket Job)) := by
    refine hle.trans ?_
    rw [hstaffed.sized]
    exact (Pool.handled_eq_sum s.pool.log hstaffed.unborn).symm.trans_le (handled_le_accepted h)
  have hnumbered :
      ((s.pool.ledger.accepted.map Ticket.number : List Nat) : Multiset Nat).Nodup := by
    have hboth := hsound.numbered
    rw [List.map_append] at hboth
    exact (List.nodup_append.mp hboth).1
  exact ⟨jobs, haccepted, Multiset.nodup_of_le (Multiset.map_le_map haccepted) hnumbered, hrel⟩

/-- What each worker spends is bounded by the jobs it was called with, so what they spend together
is bounded by the jobs that the queue accepted. -/
theorem sum_le_accepted {spent : W → Nat} {price : Nat} {count capacity : Nat} {stop : Bool}
    (h : Reaches (Crew.step worker initial) (· = start count capacity stop) s)
    (hruns : ∀ index done w, worker.Runs (initial index) done w →
      spent w ≤ price * done.length) :
    (s.states.map spent).sum ≤ price * s.pool.ledger.accepted.length := by
  have hstaffed := reaches_staffed h
  have hworkers : ∀ index w, s.states[index]? = some w →
      spent w ≤ price * (s.pool.handledBy index).length := by
    intro index w hw
    obtain ⟨done, hdone, hprefix⟩ := hstaffed.runs hw
    exact (hruns index done w hdone).trans (Nat.mul_le_mul_left price hprefix.length_le)
  have hcalls : s.pool.ledger.handled.length =
      ((List.range s.pool.threads.length).map fun index =>
        (s.pool.handledBy index).length).sum := by
    have hcard := congrArg Multiset.cardHom (Pool.handled_eq_sum s.pool.log hstaffed.unborn)
    rw [map_list_sum, List.map_map] at hcard
    exact hcard
  calc (s.states.map spent).sum
      ≤ ((List.range s.states.length).map fun index =>
          price * (s.pool.handledBy index).length).sum := sum_map_le_sum_range _ hworkers
    _ = price * s.pool.ledger.handled.length := by
        rw [hstaffed.sized, hcalls, List.sum_map_mul_left]
    _ ≤ price * s.pool.ledger.accepted.length :=
        Nat.mul_le_mul_left price (Multiset.card_le_card (handled_le_accepted h))

/-- However the threads of a pool interleave, each worker works alone. Its state is that of a
sequential program that started in the state `create_worker` returned and performed calls of
`handle` on the first of its jobs in their order, with `maintain` in between. At most the last job
is missing there, and only while its call is running or after it panicked. The jobs of the workers
together are the handled jobs of the pool, and none of them is there twice. -/
theorem workers_alone (worker : Worker W Job) (initial : Nat → W) (count capacity : Nat)
    (stop : Bool) (h : Reaches (Crew.step worker initial) (· = start count capacity stop) s) :
    (∀ (index : Nat) (thread : Thread Job), s.pool.threads[index]? = some thread →
      ∃ w done, s.states[index]? = some w ∧ worker.Runs (initial index) done w ∧
        done <+: s.pool.handledBy index ∧
        (s.pool.handledBy index).length ≤ done.length + 1 ∧
        (thread.panicked = false → thread.phase.running = [] →
          done = s.pool.handledBy index)) ∧
      (s.pool.ledger.handled : Multiset (Ticket Job)) =
        ((List.range s.pool.threads.length).map fun index =>
          (s.pool.handledBy index : Multiset (Ticket Job))).sum ∧
      s.pool.ledger.handled.Nodup := by
  have hstaffed := reaches_staffed h
  refine ⟨fun index thread hthread => ?_, ?_, ?_⟩
  · obtain ⟨w, done, hw, hruns, ⟨rest, htickets, hone, hopen⟩, -⟩ :=
      hstaffed.serves index thread hthread
    refine ⟨w, done, hw, hruns, ⟨rest, htickets.symm⟩, ?_, fun hpanicked hrunning => ?_⟩
    · rw [htickets, List.length_append]
      exact Nat.add_le_add_left hone _
    · rw [htickets, hopen hpanicked, hrunning, List.append_nil]
  · exact Pool.handled_eq_sum s.pool.log hstaffed.unborn
  · exact (Pool.nodup_places (Pool.reaches_sound (reaches_pool h)).1).2.1

/-- A worker that keeps its jobs. -/
def collector : Worker (List Nat) Nat where
  handle := fun job w => w ++ [job]
  maintain := id

/-- Of two workers, one has handled a job and the other one none. -/
theorem workers_alone_collector : ∃ s : Crew (List Nat) Nat,
    runActions (Crew.step collector fun _ => []) (start 2 1 false)
        (Pool.twoWorkers ++ [.worker 0 .run]) = some s ∧
      s.states = [[7], []] ∧ s.pool.ledger.handled.Nodup := by
  have hstates : (runActions (Crew.step collector fun _ => []) (start 2 1 false)
      (Pool.twoWorkers ++ [.worker 0 .run])).map Crew.states = some [[7], []] := by
    decide +kernel
  obtain ⟨s, hs, heq⟩ := Option.map_eq_some_iff.mp hstates
  exact ⟨s, hs, heq,
    (workers_alone collector _ 2 1 false (Reaches.of_run (.start rfl) hs)).2.2⟩

end

end Crew

end Sederial
