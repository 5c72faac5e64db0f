import Mathlib.Algebra.Order.Group.Multiset
import Mathlib.Tactic.Abel
import Sederial.Lib.Machine
import Sederial.Proofs.PoolSteps

/-!
# `Sederial.Proofs.PoolQueue`: the queue loses and duplicates no job

A `Ledger` is what the jobs see of a pool: the queue, the jobs in the hands of workers, and the
history of every `submit` call. Its `Step` has six cases, and `Ledger.Sound` is an induction over
them: the accepted jobs are those queued, held, handled and discarded, each once.

`step_ledger` shows that every action of the pool is one of these steps or leaves the ledger
alone, whatever the threads do in between. So the ledger of every reachable state is sound.
-/

set_option autoImplicit false

namespace Sederial

open Sederial.Lib

variable {Job : Type}

/-! ### The history of the jobs -/

namespace PoolEvent

/-- The job that the queue accepted with this event. -/
def accepts : PoolEvent Job → List (Ticket Job)
  | .accepted ticket => [ticket]
  | _ => []

/-- The job that the queue rejected with this event. -/
def rejects : PoolEvent Job → List (Ticket Job)
  | .rejected ticket => [ticket]
  | _ => []

/-- The job that a worker took with this event. -/
def dequeues : PoolEvent Job → List (Ticket Job)
  | .dequeued _ ticket => [ticket]
  | _ => []

/-- The job that a worker handled with this event. -/
def handles : PoolEvent Job → List (Ticket Job)
  | .handled _ ticket => [ticket]
  | _ => []

/-- A job is dropped unhandled when the queue is cleared, and when the worker that dequeued it
sees the stop flag. -/
def discards : PoolEvent Job → List (Ticket Job)
  | .rechecked _ ticket true => [ticket]
  | .cleared tickets => tickets
  | _ => []

end PoolEvent

/-- The job of a worker that has dequeued it and not yet called `handle`. -/
def Phase.holds : Phase Job → List (Ticket Job)
  | .ready ticket | .starting ticket => [ticket]
  | _ => []

/-- What the jobs see of a pool. -/
structure Ledger (Job : Type) where
  capacity : Nat
  closed : Bool
  submitted : Nat
  queue : List (Ticket Job)
  held : Multiset (Ticket Job)
  accepted : List (Ticket Job)
  rejected : List (Ticket Job)
  dequeued : List (Ticket Job)
  handled : List (Ticket Job)
  discarded : List (Ticket Job)

namespace Pool

/-- The jobs in the hands of workers. -/
def held (s : Pool Job) : Multiset (Ticket Job) :=
  (s.threads.map fun thread => (thread.phase.holds : Multiset (Ticket Job))).sum

/-- The accounts of the queue of a pool, read off its log. -/
def ledger (s : Pool Job) : Ledger Job where
  capacity := s.jobs.capacity
  closed := s.jobs.closed
  submitted := s.submitted
  queue := s.jobs.queue
  held := s.held
  accepted := s.log.flatMap PoolEvent.accepts
  rejected := s.log.flatMap PoolEvent.rejects
  dequeued := s.log.flatMap PoolEvent.dequeues
  handled := s.log.flatMap PoolEvent.handles
  discarded := s.log.flatMap PoolEvent.discards

end Pool

namespace Ledger

/-- An event is entered in the history. -/
def post (e : PoolEvent Job) (l : Ledger Job) : Ledger Job :=
  match e with
  | .accepted ticket => { l with accepted := l.accepted ++ [ticket] }
  | .rejected ticket => { l with rejected := l.rejected ++ [ticket] }
  | .dequeued _ ticket => { l with dequeued := l.dequeued ++ [ticket] }
  | .handled _ ticket => { l with handled := l.handled ++ [ticket] }
  | .rechecked _ ticket true => { l with discarded := l.discarded ++ [ticket] }
  | .cleared tickets => { l with discarded := l.discarded ++ tickets }
  | _ => l

/-- What can happen to a job. -/
inductive Step : Ledger Job → Ledger Job → Prop
  | accept {l : Ledger Job} {ticket : Ticket Job} (new : ticket.number = l.submitted)
      (opened : l.closed = false) (room : l.queue.length < l.capacity) :
      Step l { l with
        submitted := l.submitted + 1
        queue := l.queue ++ [ticket]
        accepted := l.accepted ++ [ticket] }
  | reject {l : Ledger Job} {ticket : Ticket Job} (new : ticket.number = l.submitted) :
      Step l { l with submitted := l.submitted + 1, rejected := l.rejected ++ [ticket] }
  | dequeue {l : Ledger Job} {ticket : Ticket Job} {rest : List (Ticket Job)}
      (head : l.queue = ticket :: rest) :
      Step l { l with
        queue := rest
        held := ticket ::ₘ l.held
        dequeued := l.dequeued ++ [ticket] }
  | handle {l : Ledger Job} {ticket : Ticket Job} {rest : Multiset (Ticket Job)}
      (held : l.held = ticket ::ₘ rest) :
      Step l { l with held := rest, handled := l.handled ++ [ticket] }
  | discard {l : Ledger Job} {ticket : Ticket Job} {rest : Multiset (Ticket Job)}
      (held : l.held = ticket ::ₘ rest) :
      Step l { l with held := rest, discarded := l.discarded ++ [ticket] }
  | close {l : Ledger Job} :
      Step l { l with closed := true, queue := [], discarded := l.discarded ++ l.queue }

/-- The accounts of a queue. -/
structure Sound (l : Ledger Job) : Prop where
  bounded : l.queue.length ≤ l.capacity
  emptied : l.closed = true → l.queue = []
  /-- Until the queue is closed, what is not dequeued is queued. -/
  ordered : l.dequeued ++ l.queue = l.accepted ∨ l.closed = true ∧ l.dequeued <+: l.accepted
  balanced : (l.queue : Multiset (Ticket Job)) + l.held + l.handled + l.discarded = l.accepted
  numbered : ((l.accepted ++ l.rejected).map Ticket.number).Nodup
  old : ∀ ticket ∈ l.accepted ++ l.rejected, ticket.number < l.submitted

/-- No job is accepted twice. -/
theorem Sound.nodup_accepted {l : Ledger Job} (h : l.Sound) : l.accepted.Nodup :=
  (List.nodup_append.mp (List.Nodup.of_map _ h.numbered)).1

/-- No two of the accounts share a job. -/
theorem Sound.nodup {l : Ledger Job} (h : l.Sound) :
    ((l.queue : Multiset (Ticket Job)) + l.held + l.handled + l.discarded).Nodup := by
  rw [h.balanced]
  exact Multiset.coe_nodup.mpr h.nodup_accepted

/-- A new ticket is none of the old ones. -/
theorem Sound.numbered_cons {l : Ledger Job} (h : l.Sound) {ticket : Ticket Job}
    (hnew : ticket.number = l.submitted) (tickets : List (Ticket Job))
    (hperm : tickets.Perm (ticket :: (l.accepted ++ l.rejected))) :
    (tickets.map Ticket.number).Nodup ∧ ∀ t ∈ tickets, t.number < l.submitted + 1 := by
  refine ⟨((hperm.map Ticket.number).nodup_iff).mpr (List.nodup_cons.mpr ⟨?_, h.numbered⟩), ?_⟩
  · intro hmem
    obtain ⟨old, hold, hnumber⟩ := List.mem_map.mp hmem
    have hlt := h.old old hold
    rw [hnumber, hnew] at hlt
    exact Nat.lt_irrefl _ hlt
  · intro t ht
    rcases List.mem_cons.mp (hperm.mem_iff.mp ht) with rfl | ht
    · rw [hnew]
      exact Nat.lt_succ_self _
    · exact Nat.lt_succ_of_lt (h.old t ht)

/-- One more element of a list, as a multiset. -/
theorem coe_append_singleton {α : Type} (l : List α) (a : α) :
    ((l ++ [a] : List α) : Multiset α) = (l : Multiset α) + {a} := rfl

/-- Every step keeps the accounts. -/
theorem Step.sound {l l' : Ledger Job} (h : Step l l') (hl : l.Sound) : l'.Sound := by
  have hbalanced := hl.balanced
  cases h with
  -- An accepted ticket has the next number and goes behind the queue, which is open.
  | @accept ticket new opened room =>
    obtain ⟨hnumbered, hold⟩ := hl.numbered_cons new (l.accepted ++ [ticket] ++ l.rejected)
      (by rw [List.append_assoc]; exact List.perm_middle)
    refine ⟨?_, fun h => ?_, ?_, ?_, hnumbered, hold⟩
    · rw [List.length_append]
      exact room
    · rw [opened] at h
      cases h
    · rcases hl.ordered with hordered | ⟨hclosed, -⟩
      · exact .inl (by rw [← List.append_assoc, hordered])
      · rw [opened] at hclosed
        cases hclosed
    · dsimp only
      rw [coe_append_singleton, coe_append_singleton, ← hbalanced]
      abel
  | @reject ticket new =>
    obtain ⟨hnumbered, hold⟩ := hl.numbered_cons new (l.accepted ++ (l.rejected ++ [ticket]))
      (by rw [← List.append_assoc]; exact List.perm_append_singleton ..)
    exact ⟨hl.bounded, hl.emptied, hl.ordered, hbalanced, hnumbered, hold⟩
  -- The queue is not empty, so it was not closed.
  | @dequeue ticket rest head =>
    have hopened : l.closed = false := by
      by_contra hclosed
      rw [hl.emptied (by simpa using hclosed)] at head
      cases head
    refine ⟨?_, fun h => ?_, ?_, ?_, hl.numbered, hl.old⟩
    · have hbounded := hl.bounded
      rw [head] at hbounded
      exact Nat.le_of_succ_le hbounded
    · rw [hopened] at h
      cases h
    · rcases hl.ordered with hordered | ⟨hclosed, -⟩
      · refine .inl ?_
        rw [← hordered, head, List.append_assoc]
        rfl
      · rw [hopened] at hclosed
        cases hclosed
    · dsimp only
      rw [← hbalanced, head, ← Multiset.cons_coe, ← Multiset.singleton_add,
        ← Multiset.singleton_add]
      abel
  -- Handling and discarding take the ticket out of the same hand.
  | @handle ticket rest held =>
    refine ⟨hl.bounded, hl.emptied, hl.ordered, ?_, hl.numbered, hl.old⟩
    dsimp only
    rw [coe_append_singleton, ← hbalanced, held, ← Multiset.singleton_add]
    abel
  | @discard ticket rest held =>
    refine ⟨hl.bounded, hl.emptied, hl.ordered, ?_, hl.numbered, hl.old⟩
    dsimp only
    rw [coe_append_singleton, ← hbalanced, held, ← Multiset.singleton_add]
    abel
  -- Closing leaves the queue empty, and what was in it is discarded.
  | close =>
    refine ⟨Nat.zero_le _, fun _ => rfl, .inr ⟨rfl, ?_⟩, ?_, hl.numbered, hl.old⟩
    · rcases hl.ordered with hordered | ⟨-, hbefore⟩
      · exact ⟨l.queue, hordered⟩
      · exact hbefore
    · dsimp only
      rw [← hbalanced, ← Multiset.coe_add, Multiset.coe_nil]
      abel

end Ledger

/-! ### The actions of the pool -/

/-- A worker that polls holds no job. -/
theorem Phase.Polls.holds {phase : Phase Job} (h : phase.Polls) : phase.holds = [] := by
  cases h <;> rfl

/-- Nor does a worker inside a method: the job that it is given there counts as handled. -/
theorem Phase.Inside.holds {phase : Phase Job} (h : phase.Inside) : phase.holds = [] := by
  cases h <;> rfl

/-- A move of the program counter alone begins and ends without a job. -/
theorem Phase.Goes.holds {panicked : Bool} {phase phase' : Phase Job}
    (h : phase.Goes panicked phase') : phase.holds = [] ∧ phase'.holds = [] := by
  cases h with
  | wait polls => exact ⟨polls.holds, rfl⟩
  | idle polls => exact ⟨polls.holds, rfl⟩
  | quit polls => exact ⟨polls.holds, rfl⟩
  | _ => exact ⟨rfl, rfl⟩

namespace Pool

variable {s : Pool Job} {index : Nat} {thread : Thread Job}

/-- The jobs in the hands of the other workers, when one worker goes on to another phase. -/
theorem held_goto (h : s.threads[index]? = some thread) :
    ∃ rest, s.held = thread.phase.holds + rest ∧
      ∀ (s' : Pool Job) (thread' : Thread Job) (phase : Phase Job), s'.threads = s.threads →
        (s'.goto index thread' phase).held = phase.holds + rest := by
  obtain ⟨rest, hheld, hset⟩ := exists_sum_set
    (fun thread : Thread Job => (thread.phase.holds : Multiset (Ticket Job))) h
  refine ⟨rest, hheld, fun s' thread' phase hthreads => ?_⟩
  unfold held goto
  rw [hthreads]
  exact hset _

/-- A worker without a job goes on to another phase without one. -/
theorem ledger_goto {s' : Pool Job} {thread' : Thread Job} {phase : Phase Job}
    (h : s.threads[index]? = some thread) (hthreads : s'.threads = s.threads)
    (hs : s'.ledger = s.ledger) (hnone : thread.phase.holds = []) (hphase : phase.holds = []) :
    (s'.goto index thread' phase).ledger = s.ledger := by
  obtain ⟨rest, hheld, hgoto⟩ := held_goto h
  have hsame : (s'.goto index thread' phase).held = s'.held := by
    have hheld' : s'.held = s.held := congrArg Ledger.held hs
    rw [hgoto s' thread' phase hthreads, hheld', hheld, hnone, hphase]
  rw [← hs]
  unfold ledger
  rw [hsame]
  rfl

/-- What an event adds to the ledger. -/
theorem ledger_record (e : PoolEvent Job) : (s.record e).ledger = s.ledger.post e := by
  unfold ledger record held
  simp only [List.flatMap_append, List.flatMap_cons, List.flatMap_nil, List.append_nil]
  cases e with
  | rechecked worker ticket stop =>
    cases stop <;> simp only [Ledger.post, PoolEvent.accepts, PoolEvent.rejects,
      PoolEvent.dequeues, PoolEvent.handles, PoolEvent.discards, List.append_nil]
  | _ => simp only [Ledger.post, PoolEvent.accepts, PoolEvent.rejects, PoolEvent.dequeues,
      PoolEvent.handles, PoolEvent.discards, List.append_nil]

/-- Only the phases of the threads decide about the jobs in the hands of workers. -/
theorem ledger_set_held {s' : Pool Job} (thread' : Thread Job) (phase : Phase Job) :
    (s'.goto index thread' phase).ledger =
      { s'.ledger with held := (s'.goto index thread' phase).held } := rfl

/-- One action of a worker. -/
theorem Works.ledger {s' : Pool Job} (hthread : s.threads[index]? = some thread)
    (h : Works index thread s s') : s'.ledger = s.ledger ∨ s.ledger.Step s'.ledger := by
  obtain ⟨rest, hheld, hgoto⟩ := held_goto hthread
  cases h with
  -- A phase that holds no ticket has nothing to do with the ledger.
  | goes goes => exact .inl (ledger_goto hthread rfl rfl goes.holds.1 goes.holds.2)
  | panics inside =>
    have hs := ledger_record (s := s) (.panicked index)
    exact .inl (ledger_goto hthread rfl hs inside.holds rfl)
  -- The worker takes the head of the queue into its hand.
  | @takes ticket queue polls head =>
    have hnone : s.held = rest := by
      rw [hheld, polls.holds]
      exact zero_add rest
    have htaken := hgoto ({ s with jobs := { s.jobs with queue := queue } }.record
      (.dequeued index ticket)) thread (.ready ticket) rfl
    refine .inr ?_
    rw [ledger_set_held, htaken, ledger_record, ← hnone]
    exact Ledger.Step.dequeue (l := s.ledger) head
  | lockFails polls =>
    have hs := ledger_record (s := s) (.lockFailed (some index))
    exact .inl (ledger_goto hthread rfl hs polls.holds rfl)
  | fails phase => exact .inl (ledger_goto hthread rfl rfl (by rw [phase]; rfl) rfl)
  | stops phase => exact .inl (ledger_goto hthread rfl rfl (by rw [phase]; rfl) rfl)
  | @discards ticket phase =>
    have hone : s.held = ticket ::ₘ rest := by
      rw [hheld, phase]
      exact Multiset.singleton_add ticket rest
    have hnone : ((s.record (.rechecked index ticket true)).goto index thread .dropping).held =
        rest :=
      (hgoto _ thread .dropping rfl).trans (zero_add rest)
    refine .inr ?_
    rw [ledger_set_held, hnone, ledger_record]
    exact Ledger.Step.discard (l := s.ledger) hone
  -- The guard has let the ticket through, which stays in the hand.
  | @keeps ticket phase =>
    refine .inl ?_
    have hsame := hgoto (s.record (.rechecked index ticket false)) thread (.starting ticket) rfl
    have hs := ledger_record (s := s) (.rechecked index ticket false)
    have hheld' : s.ledger.held = ↑(Phase.starting ticket).holds + rest := by
      show s.held = _
      rw [hheld, phase]
      rfl
    rw [ledger_set_held, hsame, hs, ← hheld']
    rfl
  -- The call of `handle` takes it out of the hand.
  | @handles ticket phase =>
    have hone : s.held = ticket ::ₘ rest := by
      rw [hheld, phase]
      exact Multiset.singleton_add ticket rest
    have hnone : ((s.record (.handled index ticket)).goto index thread (.handling ticket)).held =
        rest :=
      (hgoto _ thread (.handling ticket) rfl).trans (zero_add rest)
    refine .inr ?_
    rw [ledger_set_held, hnone, ledger_record]
    exact Ledger.Step.handle (l := s.ledger) hone
  | raisesFailed phase => exact .inl (ledger_goto hthread rfl rfl (by rw [phase]; rfl) rfl)
  | raisesStop phase => exact .inl (ledger_goto hthread rfl rfl (by rw [phase]; rfl) rfl)
  | reports phase => exact .inl (ledger_goto hthread rfl rfl (by rw [phase]; rfl) rfl)

/-- A thread that was just spawned has no job. -/
theorem ledger_addWorker (left : Nat) : (s.addWorker left).ledger = s.ledger := by
  have hheld : (s.addWorker left).held = s.held := by
    unfold held addWorker
    rw [List.map_append, List.sum_append]
    exact add_zero _
  unfold ledger
  rw [hheld]
  unfold addWorker
  simp only [List.flatMap_append, List.flatMap_cons, List.flatMap_nil, PoolEvent.accepts,
    PoolEvent.rejects, PoolEvent.dequeues, PoolEvent.handles, PoolEvent.discards, List.append_nil]

/-- Every action is a step of the ledger or none of its business. -/
theorem Acts.ledger {s' : Pool Job} {a : Action Job} (h : Acts s a s') :
    s'.ledger = s.ledger ∨ s.ledger.Step s'.ledger := by
  cases h with
  | works found works => exact works.ledger found
  | turns => exact .inl rfl
  | spawns => exact .inl (ledger_addWorker _)
  | @accepts job _ opened room =>
    refine .inr ?_
    rw [ledger_record]
    exact Ledger.Step.accept (l := s.ledger) rfl opened room
  | @rejects job =>
    refine .inr ?_
    rw [ledger_record]
    exact Ledger.Step.reject (l := s.ledger) rfl
  | @submitFails job =>
    refine .inr ?_
    rw [ledger_record, ledger_record]
    exact Ledger.Step.reject (l := s.ledger) rfl
  | stops => exact .inl rfl
  | clears =>
    refine .inr ?_
    rw [ledger_record]
    exact Ledger.Step.close (l := s.ledger)
  | closeFails => exact .inl (ledger_record _)
  | receives => exact .inl (ledger_record _)
  | expires => exact .inl (ledger_record _)
  | collected => exact .inl rfl
  | joins => exact .inl rfl
  | concludes => exact .inl (ledger_record _)
  | detaches => exact .inl rfl
  | requestStop => exact .inl rfl
  | poison => exact .inl rfl

end Pool

/-! ### A worker that saw the stop flag -/

/-- A worker that is through with its loop. -/
inductive Phase.Leaving : Phase Job → Prop
  | dropping : Leaving .dropping
  | unwinding : Leaving .unwinding
  | raising : Leaving .raising
  | notifying : Leaving .notifying
  | reporting : Leaving .reporting
  | ending : Leaving .ending
  | finished (clean : Bool) : Leaving (.finished clean)

/-- A worker that polls is not leaving. -/
theorem Phase.Polls.not_leaving {phase : Phase Job} (h : phase.Polls) : ¬ phase.Leaving := by
  intro hleaving
  cases h <;> cases hleaving

/-- A worker that leaves goes on leaving. -/
theorem Phase.Goes.leaving {panicked : Bool} {phase phase' : Phase Job}
    (h : phase.Goes panicked phase') (hleaving : phase.Leaving) : phase'.Leaving := by
  cases h with
  | wait polls => exact (polls.not_leaving hleaving).elim
  | idle polls => exact (polls.not_leaving hleaving).elim
  | report => exact .reporting
  | notified => exact .reporting
  | finish => exact .finished true
  | fail => exact .finished false
  | quit => exact .dropping
  | stopped => exact .dropping
  | maintain => cases hleaving
  | lock => cases hleaving
  | done => cases hleaving

/-- After the first event of a worker the second never comes. -/
def PoolEvent.Obeys (e e' : PoolEvent Job) : Prop :=
  ∀ worker ticket ticket', e = .rechecked worker ticket true → e' ≠ .handled worker ticket'

namespace Pool

/-- A worker is through with its loop. -/
def Left (s : Pool Job) (worker : Nat) : Prop :=
  ∃ thread, s.threads[worker]? = some thread ∧ thread.phase.Leaving

/-- Who reads the stop flag behind `JobPoll::Ready` leaves, and calls `handle` no more. -/
structure Obedient (s : Pool Job) : Prop where
  leaves : ∀ worker ticket, .rechecked worker ticket true ∈ s.log → s.Left worker
  obeys : s.log.Pairwise PoolEvent.Obeys

section

variable {s s' : Pool Job}

/-- A worker moves, and one that left has still left. -/
theorem Left.set {worker index : Nat} {thread' : Thread Job} (h : s.Left worker)
    (hthreads : s'.threads = s.threads.set index thread')
    (hphase : index = worker → thread'.phase.Leaving) : s'.Left worker := by
  obtain ⟨thread, hthread, hleaving⟩ := h
  unfold Left
  rw [hthreads]
  by_cases heq : index = worker
  · subst heq
    have hlt : index < s.threads.length := (List.getElem?_eq_some_iff.mp hthread).1
    exact ⟨thread', List.getElem?_set_self hlt, hphase rfl⟩
  · exact ⟨thread, by rw [List.getElem?_set_ne heq, hthread], hleaving⟩

/-- An action of a worker brings back none that left. -/
theorem Works.left {index worker : Nat} {thread : Thread Job}
    (hthread : s.threads[index]? = some thread) (h : Works index thread s s')
    (hleft : s.Left worker) : s'.Left worker := by
  -- Either the action is not one of this worker, or its thread is already leaving.
  have hleaving : index = worker → thread.phase.Leaving := by
    intro heq
    obtain ⟨thread', hthread', hleaving⟩ := hleft
    rw [← heq, hthread, Option.some.injEq] at hthread'
    rwa [hthread']
  cases h with
  | goes goes => exact hleft.set rfl fun heq => goes.leaving (hleaving heq)
  | panics => exact hleft.set rfl fun _ => .unwinding
  | takes polls => exact hleft.set rfl fun heq => (polls.not_leaving (hleaving heq)).elim
  | lockFails polls => exact hleft.set rfl fun heq => (polls.not_leaving (hleaving heq)).elim
  | fails phase =>
    rw [phase] at hleaving
    exact hleft.set rfl fun heq => nomatch hleaving heq
  | stops => exact hleft.set rfl fun _ => .dropping
  | discards => exact hleft.set rfl fun _ => .dropping
  | keeps phase =>
    rw [phase] at hleaving
    exact hleft.set rfl fun heq => nomatch hleaving heq
  | handles phase =>
    rw [phase] at hleaving
    exact hleft.set rfl fun heq => nomatch hleaving heq
  | raisesFailed => exact hleft.set rfl fun _ => .raising
  | raisesStop => exact hleft.set rfl fun _ => .notifying
  | reports => exact hleft.set rfl fun _ => .ending

/-- Nor does any other action. -/
theorem Acts.left {worker : Nat} {a : Action Job} (h : Acts s a s') (hleft : s.Left worker) :
    s'.Left worker := by
  cases h with
  | works found works => exact works.left found hleft
  | spawns =>
    obtain ⟨thread, hthread, hleaving⟩ := hleft
    exact ⟨thread, getElem?_append_of_some hthread, hleaving⟩
  | _ => exact hleft

/-- Without an event. -/
theorem Obedient.mono (h : s.Obedient) (hleft : ∀ worker, s.Left worker → s'.Left worker)
    (hlog : s'.log = s.log) : s'.Obedient := by
  refine ⟨fun worker ticket hmem => ?_, ?_⟩
  · rw [hlog] at hmem
    exact hleft worker (h.leaves worker ticket hmem)
  · rw [hlog]
    exact h.obeys

/-- One more event. -/
theorem Obedient.record (h : s.Obedient) (hleft : ∀ worker, s.Left worker → s'.Left worker)
    {e : PoolEvent Job} (hlog : s'.log = s.log ++ [e])
    (hhandled : ∀ worker ticket, e = .handled worker ticket → ¬ s.Left worker)
    (hrechecked : ∀ worker ticket, e = .rechecked worker ticket true → s'.Left worker) :
    s'.Obedient := by
  refine ⟨fun worker ticket hmem => ?_, ?_⟩
  · rw [hlog] at hmem
    rcases List.mem_append.mp hmem with hmem | hmem
    · exact hleft worker (h.leaves worker ticket hmem)
    · exact hrechecked worker ticket (List.mem_singleton.mp hmem).symm
  · rw [hlog]
    refine List.pairwise_append.mpr ⟨h.obeys, List.pairwise_singleton _ _, ?_⟩
    intro e₀ hmem e' he' worker ticket ticket' hstop hstart
    rw [List.mem_singleton.mp he'] at hstart
    exact hhandled worker ticket' hstart (h.leaves worker ticket (hstop ▸ hmem))

/-- An action of a worker, and the jobs that were begun after the stop. -/
theorem Works.obedient {index : Nat} {thread : Thread Job}
    (hthread : s.threads[index]? = some thread) (h : Works index thread s s')
    (hs : s.Obedient) : s'.Obedient := by
  have hleft : ∀ worker, s.Left worker → s'.Left worker := fun _ => h.left hthread
  cases h with
  | goes => exact hs.mono hleft rfl
  | panics => exact hs.record hleft rfl nofun nofun
  | takes => exact hs.record hleft rfl nofun nofun
  | lockFails => exact hs.record hleft rfl nofun nofun
  | fails => exact hs.mono hleft rfl
  | stops => exact hs.mono hleft rfl
  | discards =>
    refine hs.record hleft rfl nofun fun worker ticket heq => ?_
    cases heq
    have hlt : index < s.threads.length := (List.getElem?_eq_some_iff.mp hthread).1
    exact ⟨_, List.getElem?_set_self hlt, .dropping⟩
  | keeps => exact hs.record hleft rfl nofun nofun
  | handles phase =>
    refine hs.record hleft rfl (fun worker ticket heq hleft' => ?_) nofun
    cases heq
    obtain ⟨thread', hthread', hleaving⟩ := hleft'
    rw [hthread, Option.some.injEq] at hthread'
    rw [← hthread', phase] at hleaving
    cases hleaving
  | raisesFailed => exact hs.mono hleft rfl
  | raisesStop => exact hs.mono hleft rfl
  | reports => exact hs.mono hleft rfl

/-- Every action, and the jobs that were begun after the stop. -/
theorem Acts.obedient {a : Action Job} (h : Acts s a s') (hs : s.Obedient) : s'.Obedient := by
  have hleft : ∀ worker, s.Left worker → s'.Left worker := fun _ => h.left
  cases h with
  | works found works => exact works.obedient found hs
  | spawns => exact hs.record hleft rfl nofun nofun
  | accepts => exact hs.record hleft rfl nofun nofun
  | rejects => exact hs.record hleft rfl nofun nofun
  | submitFails =>
    have hlocked : Pool.Obedient (s.record (.lockFailed none)) :=
      hs.record (fun _ h => h) rfl nofun nofun
    exact hlocked.record hleft rfl nofun nofun
  | clears => exact hs.record hleft rfl nofun nofun
  | closeFails => exact hs.record hleft rfl nofun nofun
  | receives => exact hs.record hleft rfl nofun nofun
  | expires => exact hs.record hleft rfl nofun nofun
  | concludes => exact hs.record hleft rfl nofun nofun
  | _ => exact hs.mono hleft rfl

end

end Pool

/-! ### Every job in its place -/

/-- Where a job is. -/
inductive Place where
  | queued
  | held (worker : Nat)
  | handled
  | discarded

namespace Pool

/-- Where a job is. -/
def At (s : Pool Job) (ticket : Ticket Job) : Place → Prop
  | .queued => ticket ∈ s.jobs.queue
  | .held worker => ∃ thread, s.threads[worker]? = some thread ∧ ticket ∈ thread.phase.holds
  | .handled => ticket ∈ s.ledger.handled
  | .discarded => ticket ∈ s.ledger.discarded

variable {s : Pool Job} {ticket : Ticket Job}

/-- A job is in hand when some worker holds it. -/
theorem mem_held : ticket ∈ s.held ↔ ∃ worker, s.At ticket (.held worker) := mem_sum_map

/-- A sound ledger has every accepted job in one place. -/
theorem existsUnique_place (h : s.ledger.Sound) (hticket : ticket ∈ s.ledger.accepted) :
    ∃! place, s.At ticket place := by
  have hnodup := h.nodup
  rw [Multiset.nodup_add, Multiset.nodup_add, Multiset.nodup_add] at hnodup
  obtain ⟨⟨⟨-, hsum, hdisjoint₁⟩, -, hdisjoint₂⟩, -, hdisjoint₃⟩ := hnodup
  -- No two places have the job, in the order queued, held, handled, discarded.
  have hone : ∀ i j, s.At ticket (.held i) → s.At ticket (.held j) → i = j := by
    intro i j ⟨thread, hi, hmem⟩ ⟨thread', hj, hmem'⟩
    exact eq_of_mem_of_nodup_sum _ hsum hi hj hmem hmem'
  have hheld : ∀ i, s.At ticket (.held i) → ¬ s.At ticket .queued := by
    intro i hi hqueue
    exact Multiset.disjoint_left.mp hdisjoint₁ hqueue (mem_held.mpr ⟨i, hi⟩)
  have hhandled : s.At ticket .handled →
      ¬ s.At ticket .queued ∧ ∀ i, ¬ s.At ticket (.held i) := by
    intro hhandled
    have hrest := Multiset.disjoint_right.mp hdisjoint₂ hhandled
    rw [Multiset.mem_add, not_or] at hrest
    exact ⟨hrest.1, fun i hi => hrest.2 (mem_held.mpr ⟨i, hi⟩)⟩
  have hdiscarded : s.At ticket .discarded →
      ¬ s.At ticket .queued ∧ (∀ i, ¬ s.At ticket (.held i)) ∧ ¬ s.At ticket .handled := by
    intro hdiscarded
    have hrest := Multiset.disjoint_right.mp hdisjoint₃ hdiscarded
    rw [Multiset.mem_add, Multiset.mem_add, not_or, not_or] at hrest
    exact ⟨hrest.1.1, fun i hi => hrest.1.2 (mem_held.mpr ⟨i, hi⟩), hrest.2⟩
  have hunique : ∀ place place', s.At ticket place → s.At ticket place' → place = place' := by
    intro place place' h h'
    cases place <;> cases place' <;> grind
  -- And one of them has it.
  rw [← Multiset.mem_coe, ← h.balanced, Multiset.mem_add, Multiset.mem_add, Multiset.mem_add]
    at hticket
  rcases hticket with ((hqueued | hheld) | hhandled) | hdiscarded
  · exact ⟨.queued, hqueued, fun place h => hunique place .queued h hqueued⟩
  · obtain ⟨i, hi⟩ := mem_held.mp hheld
    exact ⟨.held i, hi, fun place h => hunique place (.held i) h hi⟩
  · exact ⟨.handled, hhandled, fun place h => hunique place .handled h hhandled⟩
  · exact ⟨.discarded, hdiscarded, fun place h => hunique place .discarded h hdiscarded⟩

/-- Nothing is known of the jobs before the first action. -/
theorem ledger_start (count capacity : Nat) (stop : Bool) :
    (start count capacity stop : Pool Job).ledger.Sound where
  bounded := Nat.zero_le _
  emptied := fun h => nomatch h
  ordered := .inl rfl
  balanced := rfl
  numbered := List.nodup_nil
  old := fun _ h => nomatch h

/-- The ledger of every state of every run is sound. -/
theorem reaches_sound {count capacity : Nat} {stop : Bool}
    (h : Reaches Pool.step (· = start count capacity stop) s) :
    s.ledger.Sound ∧ s.jobs.capacity = capacity := by
  refine Reaches.simulates ledger Ledger.Step (fun l => l.Sound ∧ l.capacity = capacity) h ?_
    (fun s a s' hstep => (step_acts hstep).ledger) ?_
  · intro s hs
    subst hs
    exact ⟨ledger_start count capacity stop, rfl⟩
  · intro l l' hl hstep
    refine ⟨hstep.sound hl.1, ?_⟩
    cases hstep <;> exact hl.2

/-- In every run the workers obey the stop flag. -/
theorem reaches_obedient {count capacity : Nat} {stop : Bool}
    (h : Reaches Pool.step (· = start count capacity stop) s) : s.Obedient := by
  refine h.invariant ?_ fun s a s' hs hstep => (step_acts hstep).obedient hs
  intro s hs
  subst hs
  exact ⟨nofun, List.Pairwise.nil⟩

/-- A closed queue stays closed. -/
theorem reaches_closed {s' : Pool Job} (h : Reaches Pool.step (· = s) s')
    (hclosed : s.jobs.closed = true) : s'.jobs.closed = true := by
  refine Reaches.simulates ledger Ledger.Step (fun l => l.closed = true) h ?_
    (fun s a s' hstep => (step_acts hstep).ledger) ?_
  · intro s₀ hs
    rw [hs]
    exact hclosed
  · intro l l' hl hstep
    cases hstep with
    | close => rfl
    | _ => exact hl

/-- What the queue promises, in a state of a pool with this capacity. -/
structure Accounted (capacity : Nat) (s : Pool Job) : Prop where
  bounded : s.jobs.queue.length ≤ capacity
  /-- An accepted job is queued, held by one worker, handled or discarded. -/
  placed : ∀ ticket ∈ s.ledger.accepted, ∃! place, s.At ticket place
  /-- It is there once. -/
  queuedOnce : s.jobs.queue.Nodup
  handledOnce : s.ledger.handled.Nodup
  discardedOnce : s.ledger.discarded.Nodup
  inOrder : s.ledger.dequeued <+: s.ledger.accepted
  refused : ∀ ticket ∈ s.ledger.rejected, ticket ∉ s.ledger.handled
  emptied : s.jobs.closed = true → s.jobs.queue = []
  staysEmpty : s.jobs.closed = true →
    ∀ s', Reaches Pool.step (· = s) s' → s'.jobs.closed = true ∧ s'.jobs.queue = []
  /-- No worker handles a job of which a worker saw the stop flag after taking it. -/
  dropped : ∀ worker ticket, .rechecked worker ticket true ∈ s.log → ticket ∉ s.ledger.handled
  /-- And that worker handles no other job later. -/
  obeys : s.log.Pairwise PoolEvent.Obeys

/-- No job is in two of the places. -/
theorem nodup_places (h : s.ledger.Sound) :
    s.jobs.queue.Nodup ∧ s.ledger.handled.Nodup ∧ s.ledger.discarded.Nodup ∧
      ∀ ticket ∈ s.ledger.discarded, ticket ∉ s.ledger.handled := by
  have hnodup := h.nodup
  rw [Multiset.nodup_add, Multiset.nodup_add, Multiset.nodup_add] at hnodup
  obtain ⟨⟨⟨hqueue, -, -⟩, hhandled, -⟩, hdiscarded, hdisjoint⟩ := hnodup
  refine ⟨hqueue, hhandled, hdiscarded, fun ticket hmem hhandled => ?_⟩
  exact Multiset.disjoint_right.mp hdisjoint hmem (Multiset.mem_add.mpr (.inr hhandled))

/-- However the threads of a pool interleave, the queue loses and duplicates nothing. -/
theorem queue_accounted (count capacity : Nat) (stop : Bool)
    (h : Reaches Pool.step (· = start count capacity stop) s) : s.Accounted capacity := by
  obtain ⟨hsound, hcapacity⟩ := reaches_sound h
  obtain ⟨hqueue, hhandled, hdiscarded, hdropped⟩ := nodup_places hsound
  refine ⟨?_, fun ticket => existsUnique_place hsound, hqueue, hhandled, hdiscarded, ?_, ?_,
    hsound.emptied, ?_, ?_, (reaches_obedient h).obeys⟩
  · rw [← hcapacity]
    exact hsound.bounded
  · rcases hsound.ordered with hordered | ⟨-, hbefore⟩
    · exact ⟨s.ledger.queue, hordered⟩
    · exact hbefore
  · -- What was handled was accepted, and an accepted job has another number.
    intro ticket hrejected hhandled
    have haccepted : ticket ∈ s.ledger.accepted := by
      rw [← Multiset.mem_coe, ← hsound.balanced]
      exact Multiset.mem_add.mpr (.inl (Multiset.mem_add.mpr (.inr hhandled)))
    exact (List.nodup_append.mp (List.Nodup.of_map _ hsound.numbered)).2.2 ticket haccepted ticket
      hrejected rfl
  · intro hclosed s' hlater
    have hclosed' := reaches_closed hlater hclosed
    exact ⟨hclosed', (reaches_sound (h.trans hlater)).1.emptied hclosed'⟩
  · intro worker ticket hmem
    exact hdropped ticket (List.mem_flatMap.mpr ⟨_, hmem, List.mem_singleton_self ticket⟩)

/-- Two workers and a queue for one job. -/
def twoWorkers : List (Action Nat) :=
  [.create true, .spawn true, .create true, .spawn true, .submit 7, .submit 8,
    .worker 0 .run, .worker 0 .run, .worker 0 .run, .submit 9, .worker 0 .run,
    .worker 1 .run, .worker 1 .run, .worker 1 .run, .requestStop, .worker 1 .run,
    .worker 0 .run, .submit 10, .shutdown, .proceed, .proceed]

/-- Of four jobs one is handled, one is dropped by its worker at the stop flag, and two are
refused. -/
theorem queue_accounted_twoWorkers : ∃ s : Pool Nat,
    runActions Pool.step (start 2 1 false) twoWorkers = some s ∧
      s.ledger.accepted = [⟨0, 7⟩, ⟨2, 9⟩] ∧ s.ledger.rejected = [⟨1, 8⟩, ⟨3, 10⟩] ∧
      s.At ⟨0, 7⟩ .handled ∧ s.At ⟨2, 9⟩ .discarded ∧ s.Accounted 1 := by
  have hrun : runActions Pool.step (start 2 1 false) twoWorkers = some _ := rfl
  exact ⟨_, hrun, rfl, rfl, List.mem_singleton.mpr rfl, List.mem_singleton.mpr rfl,
    queue_accounted 2 1 false (Reaches.of_run (.start rfl) hrun)⟩

end Pool

end Sederial
