import Sederial.Lib.Machine
import Sederial.Proofs.PoolSteps

/-!
# `Sederial.Proofs.PoolFailure`: completions, flags and join handles

Three invariants of the pool, each with the proof that every action keeps it. `Counted`: a worker
sends one completion, and `pending` counts the ones that are still to be received. `Flagged`: a
panic or a failed lock is followed by the stores of the flags, and only the worker that owes them
is between the two. `Joined`: the owner joins when nothing is pending, and a thread whose handle
is gone is over.
-/

set_option autoImplicit false

namespace Sederial

open Sederial.Lib

variable {Job : Type}

/-! ### The completions -/

/-- The worker that the owner heard of with this event. -/
def PoolEvent.receives : PoolEvent Job → List Nat
  | .received worker => [worker]
  | _ => []

/-- The completions a thread has sent. -/
def Phase.sent : Phase Job → Nat
  | .ending | .finished _ => 1
  | _ => 0

/-- A worker that polls has not reported yet. -/
theorem Phase.Polls.sent {phase : Phase Job} (h : phase.Polls) : phase.sent = 0 := by
  cases h <;> rfl

/-- Nor has a worker inside a method. -/
theorem Phase.Inside.sent {phase : Phase Job} (h : phase.Inside) : phase.sent = 0 := by
  cases h <;> rfl

/-- A move of the program counter alone reports nothing. -/
theorem Phase.Goes.sent {panicked : Bool} {phase phase' : Phase Job}
    (h : phase.Goes panicked phase') : phase'.sent = phase.sent := by
  cases h with
  | wait polls => exact polls.sent.symm
  | idle polls => exact polls.sent.symm
  | quit polls => exact polls.sent.symm
  | _ => rfl

namespace Pool

/-- The workers whose completion the owner has received. -/
def received (s : Pool Job) : List Nat := s.log.flatMap PoolEvent.receives

/-- How many messages a worker has sent. -/
def sent (s : Pool Job) (worker : Nat) : Nat :=
  (s.threads[worker]?.map fun thread => thread.phase.sent).getD 0

/-- The accounts of the completion channel. -/
structure Counted (s : Pool Job) : Prop where
  once : ∀ worker, (s.received ++ s.completed).count worker = s.sent worker
  total : s.pending + s.received.length = s.threads.length

section

variable {s s' : Pool Job} {index : Nat} {thread thread' : Thread Job}

/-- What the owner has received, one event later. -/
theorem received_record {e : PoolEvent Job} (h : s'.log = s.log ++ [e]) :
    s'.received = s.received ++ e.receives := by
  unfold received
  rw [h, List.flatMap_append, List.flatMap_singleton]

/-- An event that is no completion. -/
theorem received_silent {e : PoolEvent Job} (h : s'.log = s.log ++ [e])
    (hsilent : e.receives = []) :
    s'.received = s.received := by
  rw [received_record h, hsilent, List.append_nil]

/-- What a worker has sent is a matter of its own phase. -/
theorem sent_eq (h : s.threads[index]? = some thread) : s.sent index = thread.phase.sent := by
  unfold sent
  rw [h]
  rfl

/-- A worker moves, and the others have sent what they had. -/
theorem sent_set (h : s.threads[index]? = some thread)
    (hthreads : s'.threads = s.threads.set index thread') (worker : Nat) :
    s'.sent worker = if index = worker then thread'.phase.sent else s.sent worker := by
  unfold sent
  rw [hthreads]
  have hlt : index < s.threads.length := (List.getElem?_eq_some_iff.mp h).1
  by_cases heq : index = worker
  · subst heq
    rw [List.getElem?_set_self hlt, if_pos rfl]
    rfl
  · rw [List.getElem?_set_ne heq, if_neg heq]

/-- A worker goes on without a completion. -/
theorem Counted.goes (h : s.Counted) (hthread : s.threads[index]? = some thread)
    (hthreads : s'.threads = s.threads.set index thread')
    (hsent : thread'.phase.sent = thread.phase.sent) (hreceived : s'.received = s.received)
    (hcompleted : s'.completed = s.completed) (hpending : s'.pending = s.pending) :
    s'.Counted := by
  refine ⟨fun worker => ?_, ?_⟩
  · rw [hreceived, hcompleted, h.once, sent_set hthread hthreads]
    split
    · rename_i heq
      rw [← heq, sent_eq hthread, hsent]
    · rfl
  · rw [hreceived, hpending, h.total, hthreads, List.length_set]

/-- An action of a worker sends one message at most. -/
theorem Works.counted (hthread : s.threads[index]? = some thread) (h : Works index thread s s')
    (hs : s.Counted) : s'.Counted := by
  cases h with
  | goes goes => exact hs.goes hthread rfl goes.sent rfl rfl rfl
  | panics inside =>
    exact hs.goes hthread rfl inside.sent.symm (received_silent rfl rfl) rfl rfl
  | takes polls =>
    exact hs.goes hthread rfl polls.sent.symm (received_silent rfl rfl) rfl rfl
  | lockFails polls =>
    exact hs.goes hthread rfl polls.sent.symm (received_silent rfl rfl) rfl rfl
  | fails phase => exact hs.goes hthread rfl (by rw [phase]; rfl) rfl rfl rfl
  | stops phase => exact hs.goes hthread rfl (by rw [phase]; rfl) rfl rfl rfl
  | discards phase =>
    exact hs.goes hthread rfl (by rw [phase]; rfl) (received_silent rfl rfl) rfl rfl
  | keeps phase =>
    exact hs.goes hthread rfl (by rw [phase]; rfl) (received_silent rfl rfl) rfl rfl
  | handles phase =>
    exact hs.goes hthread rfl (by rw [phase]; rfl) (received_silent rfl rfl) rfl rfl
  | raisesFailed phase => exact hs.goes hthread rfl (by rw [phase]; rfl) rfl rfl rfl
  | raisesStop phase => exact hs.goes hthread rfl (by rw [phase]; rfl) rfl rfl rfl
  | reports phase =>
    -- The only place where a completion is sent, and the thread had sent none.
    refine ⟨fun worker => ?_, ?_⟩
    · rw [sent_set (s := s) hthread rfl worker]
      show (s.received ++ (s.completed ++ [index])).count worker = _
      rw [← List.append_assoc, List.count_append, hs.once, List.count_singleton]
      by_cases heq : index = worker
      · subst heq
        rw [sent_eq hthread, phase, if_pos rfl]
        simp [Phase.sent]
      · simp [heq]
    · show s.pending + s.received.length = (s.threads.set index _).length
      rw [hs.total, List.length_set]

/-- The owner does something else than receiving, and spawns nothing. -/
theorem Counted.same (h : s.Counted) (hthreads : s'.threads = s.threads)
    (hreceived : s'.received = s.received) (hcompleted : s'.completed = s.completed)
    (hpending : s'.pending = s.pending) : s'.Counted := by
  refine ⟨fun worker => ?_, ?_⟩
  · rw [hreceived, hcompleted, h.once]
    unfold sent
    rw [hthreads]
  · rw [hreceived, hpending, h.total, hthreads]

/-- Every action keeps the account of the messages. -/
theorem Acts.counted {a : Action Job} (h : Acts s a s') (hs : s.Counted) : s'.Counted := by
  cases h with
  | works found works => exact works.counted found hs
  -- A new thread has sent nothing, and it is waited for from now on.
  | @spawns left =>
    refine ⟨fun worker => ?_, ?_⟩
    · have hsent : (s.addWorker left).sent worker = s.sent worker := by
        unfold sent addWorker
        rw [List.getElem?_append]
        split
        · rfl
        · rename_i hlt
          rw [List.getElem?_eq_none (Nat.not_lt.mp hlt)]
          rcases Nat.eq_zero_or_pos (worker - s.threads.length) with hzero | hpos
          · rw [hzero]
            rfl
          · rw [List.getElem?_eq_none (l := [_]) hpos]
      rw [hsent, received_silent (s := s) rfl rfl]
      exact hs.once worker
    · rw [received_silent (s := s) rfl rfl]
      show s.pending + 1 + s.received.length = (s.threads ++ [_]).length
      rw [List.length_append, ← hs.total]
      exact Nat.add_right_comm ..
  | accepts => exact hs.same rfl (received_silent rfl rfl) rfl rfl
  | rejects => exact hs.same rfl (received_silent rfl rfl) rfl rfl
  -- Two events are recorded, neither a receipt.
  | submitFails =>
    have hlocked : (s.record (.lockFailed none)).received = s.received := received_silent rfl rfl
    exact hs.same rfl ((received_silent (s := s.record (.lockFailed none)) rfl rfl).trans hlocked)
      rfl rfl
  | clears => exact hs.same rfl (received_silent rfl rfl) rfl rfl
  | closeFails => exact hs.same rfl (received_silent rfl rfl) rfl rfl
  -- What is received is the head of the completion channel.
  | @receives call worker rest owner pending message =>
    have hreceived : ({ s with completed := rest, pending := s.pending - 1 }.record
        (.received worker)).received = s.received ++ [worker] :=
      received_record (s := s) (e := .received worker) rfl
    refine ⟨fun other => ?_, ?_⟩
    · rw [hreceived]
      show (s.received ++ [worker] ++ rest).count other = s.sent other
      rw [← hs.once, message, List.append_assoc]
      rfl
    · rw [hreceived]
      show s.pending - 1 + (s.received ++ [worker]).length = s.threads.length
      rw [← hs.total, List.length_append, List.length_singleton]
      omega
  | expires => exact hs.same rfl (received_silent rfl rfl) rfl rfl
  | concludes => exact hs.same rfl (received_silent rfl rfl) rfl rfl
  | _ => exact hs.same rfl rfl rfl rfl

end

end Pool

/-! ### The flags -/

/-- The next thing the thread does is none of the stores that a failure calls for. -/
def Phase.Steady (phase : Phase Job) : Prop :=
  phase ≠ .unwinding ∧ phase ≠ .raising ∧ phase ≠ .lockFailed

/-- A phase that is none of the three is steady. -/
theorem Phase.Steady.of_eq {phase phase' : Phase Job} (h : phase = phase')
    (hunwinding : phase' ≠ .unwinding) (hraising : phase' ≠ .raising)
    (hlock : phase' ≠ .lockFailed) : phase.Steady := by
  rw [h]
  exact ⟨hunwinding, hraising, hlock⟩

/-- A worker that polls is steady. -/
theorem Phase.Polls.steady {phase : Phase Job} (h : phase.Polls) : phase.Steady := by
  cases h <;> exact ⟨nofun, nofun, nofun⟩

/-- A worker inside a method is steady. -/
theorem Phase.Inside.steady {phase : Phase Job} (h : phase.Inside) : phase.Steady := by
  cases h <;> exact ⟨nofun, nofun, nofun⟩

/-- A move of the program counter alone begins in a steady phase. -/
theorem Phase.Goes.steady {panicked : Bool} {phase phase' : Phase Job}
    (h : phase.Goes panicked phase') : phase.Steady := by
  cases h with
  | wait polls => exact polls.steady
  | idle polls => exact polls.steady
  | quit polls => exact polls.steady
  | _ => exact ⟨nofun, nofun, nofun⟩

/-- How far a panicked thread is with the stores of the flags. -/
def Thread.Flags (failed stop : Bool) (thread : Thread Job) : Prop :=
  thread.panicked = true →
    thread.phase = .unwinding ∨ (thread.phase = .raising ∧ failed = true) ∨
      (failed = true ∧ stop = true)

/-- The flags stay up. -/
theorem Thread.Flags.mono {failed stop failed' stop' : Bool} {thread : Thread Job}
    (h : thread.Flags failed stop) (hfailed : failed = true → failed' = true)
    (hstop : stop = true → stop' = true) : thread.Flags failed' stop' := by
  intro hpanicked
  rcases h hpanicked with hunwinding | ⟨hraising, hf⟩ | ⟨hf, hs⟩
  · exact .inl hunwinding
  · exact .inr (.inl ⟨hraising, hfailed hf⟩)
  · exact .inr (.inr ⟨hfailed hf, hstop hs⟩)

/-- A panicked thread that is behind the stores. -/
theorem Thread.Flags.raised {failed stop : Bool} {thread : Thread Job}
    (h : thread.Flags failed stop) (hsteady : thread.phase.Steady)
    (hpanicked : thread.panicked = true) : failed = true ∧ stop = true := by
  rcases h hpanicked with hunwinding | ⟨hraising, -⟩ | hraised
  · exact (hsteady.1 hunwinding).elim
  · exact (hsteady.2.1 hraising).elim
  · exact hraised

namespace Pool

/-- Who owes a store to the flags after a failure. -/
structure Flagged (s : Pool Job) : Prop where
  flags : ∀ (worker : Nat) (thread : Thread Job), s.threads[worker]? = some thread →
    thread.Flags s.failed s.stop
  panicked : ∀ worker, .panicked worker ∈ s.log →
    ∃ thread, s.threads[worker]? = some thread ∧ thread.panicked = true
  lockFailed : ∀ worker, .lockFailed (some worker) ∈ s.log →
    s.failed = true ∨ ∃ thread, s.threads[worker]? = some thread ∧ thread.phase = .lockFailed
  ownerFailed : .lockFailed none ∈ s.log → s.failed = true

/-- What an action of a worker has to do with the flags. -/
structure Fails (index : Nat) (thread : Thread Job) (s s' : Pool Job) (thread' : Thread Job)
    (events : List (PoolEvent Job)) : Prop where
  threads : s'.threads = s.threads.set index thread'
  log : s'.log = s.log ++ events
  flags : thread.Flags s.failed s.stop → thread'.Flags s'.failed s'.stop
  panicked : thread.panicked = true → thread'.panicked = true
  stored : thread.phase = .lockFailed → s'.failed = true
  panics : ∀ worker, .panicked worker ∈ events → worker = index ∧ thread'.panicked = true
  locks : ∀ worker, .lockFailed worker ∈ events →
    worker = some index ∧ thread'.phase = .lockFailed

section

variable {s s' : Pool Job} {index : Nat} {thread thread' : Thread Job}

/-- A worker goes on and touches no flag. -/
theorem Fails.steady {phase : Phase Job} {events : List (PoolEvent Job)}
    (hsteady : thread.phase.Steady)
    (hthreads : s'.threads = s.threads.set index { thread with phase := phase })
    (hlog : s'.log = s.log ++ events) (hfailed : s.failed = true → s'.failed = true)
    (hstop : s.stop = true → s'.stop = true) (hpanics : ∀ worker, .panicked worker ∉ events)
    (hlocks : ∀ worker, .lockFailed worker ∈ events → worker = some index ∧ phase = .lockFailed) :
    Fails index thread s s' { thread with phase := phase } events where
  threads := hthreads
  log := hlog
  flags := by
    intro hflags hpanicked
    obtain ⟨hf, hs⟩ := hflags.raised hsteady hpanicked
    exact .inr (.inr ⟨hfailed hf, hstop hs⟩)
  panicked := id
  stored := fun hphase => (hsteady.2.2 hphase).elim
  panics := fun worker hmem => (hpanics worker hmem).elim
  locks := hlocks

/-- What can go wrong in an action of a worker, with the flags that it raises. -/
theorem Works.exists_fails (h : Works index thread s s') :
    ∃ thread' events, Fails index thread s s' thread' events := by
  have hquiet : ∀ phase : Phase Job, ∀ worker, (PoolEvent.lockFailed worker : PoolEvent Job) ∈ [] →
      worker = some index ∧ phase = .lockFailed := fun _ _ h => nomatch h
  cases h with
  -- A thread that is steady owes no store. The others are on their way to raise a flag.
  | goes goes =>
    exact ⟨_, [], .steady goes.steady rfl (List.append_nil _).symm id id nofun (hquiet _)⟩
  | panics inside =>
    refine ⟨{ thread with panicked := true, phase := .unwinding }, [.panicked index], rfl, rfl,
      fun _ _ => .inl rfl, fun _ => rfl, fun hphase => ?_, fun worker hmem => ?_, ?_⟩
    · exact (inside.steady.2.2 hphase).elim
    · cases List.mem_singleton.mp hmem
      exact ⟨rfl, rfl⟩
    · intro worker hmem
      cases List.mem_singleton.mp hmem
  | takes polls =>
    exact ⟨_, [_], .steady polls.steady rfl rfl id id (by simp) (by simp)⟩
  | lockFails polls =>
    refine ⟨_, [_], .steady polls.steady rfl rfl id id (by simp) fun worker hmem => ?_⟩
    cases List.mem_singleton.mp hmem
    exact ⟨rfl, rfl⟩
  -- The thread is in front of the store of `failed`, so one of the two flags is still to come.
  | fails phase =>
    refine ⟨_, [], rfl, (List.append_nil _).symm, fun hflags hpanicked => ?_, id, fun _ => rfl,
      nofun, nofun⟩
    rcases hflags hpanicked with h | ⟨h, -⟩ | ⟨-, hstop⟩
    · exact nomatch h.symm.trans phase
    · exact nomatch h.symm.trans phase
    · exact .inr (.inr ⟨rfl, hstop⟩)
  | stops phase =>
    exact ⟨_, [], .steady (.of_eq phase nofun nofun nofun) rfl (List.append_nil _).symm id
      (fun _ => rfl) nofun (hquiet _)⟩
  | discards phase =>
    exact ⟨_, [_], .steady (.of_eq phase nofun nofun nofun) rfl rfl id id (by simp) (by simp)⟩
  | keeps phase =>
    exact ⟨_, [_], .steady (.of_eq phase nofun nofun nofun) rfl rfl id id (by simp) (by simp)⟩
  | handles phase =>
    exact ⟨_, [_], .steady (.of_eq phase nofun nofun nofun) rfl rfl id id (by simp) (by simp)⟩
  | raisesFailed phase =>
    exact ⟨_, [], rfl, (List.append_nil _).symm, fun _ _ => .inr (.inl ⟨rfl, rfl⟩), id,
      fun _ => rfl, nofun, nofun⟩
  -- The store of `stop` is the last one that is owed.
  | raisesStop phase =>
    refine ⟨_, [], rfl, (List.append_nil _).symm, fun hflags hpanicked => ?_, id,
      fun hphase => (nomatch hphase.symm.trans phase), nofun, nofun⟩
    rcases hflags hpanicked with h | ⟨-, hfailed⟩ | ⟨hfailed, -⟩
    · exact nomatch h.symm.trans phase
    · exact .inr (.inr ⟨hfailed, rfl⟩)
    · exact .inr (.inr ⟨hfailed, rfl⟩)
  | reports phase =>
    exact ⟨_, [], .steady (.of_eq phase nofun nofun nofun) rfl (List.append_nil _).symm id id
      nofun (hquiet _)⟩

/-- An action of a worker keeps the flags in step with its phase. -/
theorem Works.flagged (hthread : s.threads[index]? = some thread) (h : Works index thread s s')
    (hs : s.Flagged) : s'.Flagged := by
  obtain ⟨-, -, -, -, -, hfailed, hstop⟩ := h.frame
  obtain ⟨thread', events, hfails⟩ := h.exists_fails
  have hlt : index < s.threads.length := (List.getElem?_eq_some_iff.mp hthread).1
  have hset : s'.threads[index]? = some thread' := by
    rw [hfails.threads, List.getElem?_set_self hlt]
  have hother : ∀ worker, index ≠ worker → s'.threads[worker]? = s.threads[worker]? := by
    intro worker hne
    rw [hfails.threads, List.getElem?_set_ne hne]
  refine ⟨?_, fun worker hmem => ?_, fun worker hmem => ?_, fun hmem => ?_⟩
  -- The flags of the pool only rise, and this thread has stored what it owes.
  · rw [hfails.threads]
    exact forall_getElem?_set (P := fun _ t => Thread.Flags s'.failed s'.stop t)
      (fun worker t ht _ => (hs.flags worker t ht).mono hfailed hstop)
      fun _ => hfails.flags (hs.flags index thread hthread)
  · rw [hfails.log] at hmem
    rcases List.mem_append.mp hmem with hmem | hmem
    · obtain ⟨t, ht, hpanicked⟩ := hs.panicked worker hmem
      by_cases heq : index = worker
      · subst heq
        rw [hthread, Option.some.injEq] at ht
        exact ⟨thread', hset, hfails.panicked (ht ▸ hpanicked)⟩
      · exact ⟨t, by rw [hother worker heq, ht], hpanicked⟩
    -- The panic that is logged now is this thread's own.
    · obtain ⟨rfl, hpanicked⟩ := hfails.panics worker hmem
      exact ⟨thread', hset, hpanicked⟩
  · rw [hfails.log] at hmem
    rcases List.mem_append.mp hmem with hmem | hmem
    · rcases hs.lockFailed worker hmem with hdown | ⟨t, ht, hphase⟩
      · exact .inl (hfailed hdown)
      · by_cases heq : index = worker
        · -- The worker that could not lock stores the failure now.
          subst heq
          rw [hthread, Option.some.injEq] at ht
          exact .inl (hfails.stored (ht ▸ hphase))
        · exact .inr ⟨t, by rw [hother worker heq, ht], hphase⟩
    · obtain ⟨heq, hphase⟩ := hfails.locks _ hmem
      cases heq
      exact .inr ⟨thread', hset, hphase⟩
  · rw [hfails.log] at hmem
    rcases List.mem_append.mp hmem with hmem | hmem
    · exact hfailed (hs.ownerFailed hmem)
    · exact nomatch (hfails.locks none hmem).1

/-- The threads stay as they are, and no flag is lowered. -/
theorem Flagged.same {events : List (PoolEvent Job)} (h : s.Flagged)
    (hthreads : s'.threads = s.threads) (hlog : s'.log = s.log ++ events)
    (hfailed : s.failed = true → s'.failed = true) (hstop : s.stop = true → s'.stop = true)
    (hpanics : ∀ worker, .panicked worker ∉ events)
    (hlocks : ∀ worker, .lockFailed worker ∈ events → worker = none ∧ s'.failed = true) :
    s'.Flagged := by
  refine ⟨?_, ?_, ?_, ?_⟩
  · intro worker t ht
    rw [hthreads] at ht
    exact (h.flags worker t ht).mono hfailed hstop
  · intro worker hmem
    rw [hlog] at hmem
    rw [hthreads]
    rcases List.mem_append.mp hmem with hmem | hmem
    · exact h.panicked worker hmem
    · exact (hpanics worker hmem).elim
  · intro worker hmem
    rw [hlog] at hmem
    rw [hthreads]
    rcases List.mem_append.mp hmem with hmem | hmem
    · exact (h.lockFailed worker hmem).imp_left hfailed
    · exact nomatch (hlocks _ hmem).1
  · intro hmem
    rw [hlog] at hmem
    rcases List.mem_append.mp hmem with hmem | hmem
    · exact hfailed (h.ownerFailed hmem)
    · exact (hlocks _ hmem).2

/-- So does every action. -/
theorem Acts.flagged {a : Action Job} (h : Acts s a s') (hs : s.Flagged) : s'.Flagged := by
  have hnil : s.log = s.log ++ [] := (List.append_nil _).symm
  cases h with
  | works found works => exact works.flagged found hs
  | spawns =>
    -- The new thread has not panicked, and the old ones are where they were.
    refine ⟨fun worker t ht => ?_, fun worker hmem => ?_, fun worker hmem => ?_, fun hmem => ?_⟩
    · rcases getElem?_concat_eq_some ht with hold | ⟨-, rfl⟩
      · exact hs.flags worker t hold
      · exact nofun
    · obtain ⟨t, ht, hpanicked⟩ := hs.panicked worker (by simpa [addWorker] using hmem)
      exact ⟨t, getElem?_append_of_some ht, hpanicked⟩
    · refine (hs.lockFailed worker (by simpa [addWorker] using hmem)).imp_right fun h => ?_
      obtain ⟨t, ht, hphase⟩ := h
      exact ⟨t, getElem?_append_of_some ht, hphase⟩
    · exact hs.ownerFailed (by simpa [addWorker] using hmem)
  | accepts => exact hs.same rfl rfl id id (by simp) (by simp)
  | rejects => exact hs.same rfl rfl id id (by simp) (by simp)
  | submitFails =>
    refine hs.same rfl (List.append_assoc ..) (fun _ => rfl) (fun _ => rfl) (by simp)
      fun worker hmem => ?_
    exact ⟨by simpa using hmem, rfl⟩
  | stops => exact hs.same rfl hnil id (fun _ => rfl) nofun nofun
  | clears => exact hs.same rfl rfl id id (by simp) (by simp)
  | closeFails =>
    refine hs.same rfl rfl (fun _ => rfl) id (by simp) fun worker hmem => ?_
    exact ⟨by simpa using hmem, rfl⟩
  | receives => exact hs.same rfl rfl id id (by simp) (by simp)
  | expires => exact hs.same rfl rfl id id (by simp) (by simp)
  | joins =>
    refine hs.same rfl hnil (fun hfailed => ?_) id nofun nofun
    rw [hfailed]
    rfl
  | concludes => exact hs.same rfl rfl id id (by simp) (by simp)
  | requestStop => exact hs.same rfl hnil id (fun _ => rfl) nofun nofun
  | _ => exact hs.same rfl hnil id id nofun nofun

end

/-! ### The join handles -/

/-- How far the owner is with a shutdown. -/
structure Joined (s : Pool Job) : Prop where
  closed : ∀ call, s.owner = .collecting call ∨ s.owner = .joining call →
    s.jobs.closed = true ∨ s.failed = true
  drained : ∀ call, s.owner = .joining call → s.pending = 0
  handles : ∀ worker ∈ s.workers, worker < s.threads.length
  ended : s.owner ≠ .gone → ∀ (worker : Nat) (thread : Thread Job),
    s.threads[worker]? = some thread → worker ∈ s.workers ∨ ∃ clean, thread.phase = .finished clean

section

variable {s s' : Pool Job} {index : Nat} {thread : Thread Job}

/-- An action of a worker keeps the account of the joins. -/
theorem Works.joined (hthread : s.threads[index]? = some thread) (h : Works index thread s s')
    (hs : s.Joined) : s'.Joined := by
  obtain ⟨⟨thread', hthreads⟩, hworkers, howner, hpending, hclosed, hfailed, -⟩ := h.frame
  refine ⟨?_, ?_, ?_, ?_⟩
  · intro call hcall
    rw [howner] at hcall
    rw [hclosed]
    exact (hs.closed call hcall).imp_right hfailed
  · intro call hcall
    rw [hpending]
    exact hs.drained call (howner ▸ hcall)
  · intro worker hmem
    rw [hthreads, List.length_set]
    exact hs.handles worker (hworkers ▸ hmem)
  · intro hgone
    rw [howner] at hgone
    rw [hthreads, hworkers]
    refine forall_getElem?_set (fun worker t ht _ => hs.ended hgone worker t ht) fun _ => ?_
    rcases hs.ended hgone index thread hthread with hmem | ⟨clean, hphase⟩
    · exact .inl hmem
    · exact (h.not_finished clean hphase).elim

/-- The owner turns to something that is neither collecting nor joining. -/
theorem Joined.turns (hs : s.Joined) (hthreads : s'.threads = s.threads)
    (hworkers : s'.workers = s.workers) (hgone : s.owner ≠ .gone)
    (howner : ∀ call, s'.owner ≠ .collecting call ∧ s'.owner ≠ .joining call) : s'.Joined := by
  refine ⟨fun call hcall => ?_, fun call hcall => ?_, fun worker hmem => ?_, fun _ => ?_⟩
  · exact (hcall.elim (howner call).1 (howner call).2).elim
  · exact ((howner call).2 hcall).elim
  · rw [hthreads]
    exact hs.handles worker (hworkers ▸ hmem)
  · rw [hthreads, hworkers]
    exact hs.ended hgone

/-- The owner goes on with what it is doing. -/
theorem Joined.same (hs : s.Joined) (hthreads : s'.threads = s.threads)
    (hworkers : s'.workers = s.workers) (howner : s'.owner = s.owner)
    (hclosed : s'.jobs.closed = s.jobs.closed) (hfailed : s.failed = true → s'.failed = true)
    (hpending : s.pending = 0 → s'.pending = 0) : s'.Joined := by
  refine ⟨fun call hcall => ?_, fun call hcall => ?_, fun worker hmem => ?_, fun hgone => ?_⟩
  · rw [howner] at hcall
    rw [hclosed]
    exact (hs.closed call hcall).imp_right hfailed
  · exact hpending (hs.drained call (howner ▸ hcall))
  · rw [hthreads]
    exact hs.handles worker (hworkers ▸ hmem)
  · rw [hthreads, hworkers]
    exact hs.ended (howner ▸ hgone)

/-- `close` returns, with the queue closed or a failure noted. -/
theorem Joined.closes {call : Call} (hs : s.Joined) (hgone : s.owner ≠ .gone)
    (hthreads : s'.threads = s.threads) (hworkers : s'.workers = s.workers)
    (howner : s'.owner = call.closed) (hclosed : s'.jobs.closed = true ∨ s'.failed = true) :
    s'.Joined := by
  have hjoining : ∀ call', s'.owner ≠ .joining call' := by
    intro call'
    rw [howner]
    cases call <;> exact nofun
  refine ⟨fun _ _ => hclosed, fun call' h => (hjoining call' h).elim, fun worker hmem => ?_, ?_⟩
  · rw [hthreads]
    exact hs.handles worker (hworkers ▸ hmem)
  · intro _
    rw [hthreads, hworkers]
    exact hs.ended hgone

/-- Behind a call the owner neither collects nor joins. -/
theorem after_ne (call call' : Call) :
    call.after ≠ .collecting call' ∧ call.after ≠ .joining call' := by
  cases call <;> exact ⟨nofun, nofun⟩

/-- Every action keeps the account of the joins. -/
theorem Acts.joined {a : Action Job} (h : Acts s a s') (hs : s.Joined) : s'.Joined := by
  cases h with
  | works found works => exact works.joined found hs
  | turns owner turn =>
    have hgone : s.owner ≠ .gone := by
      rw [owner]
      cases turn <;> exact nofun
    refine hs.turns rfl rfl hgone fun call => ?_
    cases turn <;> exact ⟨nofun, nofun⟩
  -- A new thread has a handle, and the others keep theirs.
  | @spawns left owner =>
    have hnext : ∀ call, Owner.next left ≠ .collecting call ∧ Owner.next left ≠ .joining call := by
      intro call
      cases left <;> exact ⟨nofun, nofun⟩
    refine ⟨fun call h => ?_, fun call h => ?_, fun worker hmem => ?_, fun _ worker t ht => ?_⟩
    · exact (h.elim (hnext call).1 (hnext call).2).elim
    · exact ((hnext call).2 h).elim
    · show worker < (s.threads ++ [_]).length
      rw [List.length_append, List.length_singleton]
      rcases List.mem_append.mp hmem with hold | hnew
      · exact Nat.lt_succ_of_lt (hs.handles worker hold)
      · rw [List.mem_singleton.mp hnew]
        exact Nat.lt_succ_self _
    · rcases getElem?_concat_eq_some ht with hold | ⟨hnew, -⟩
      · refine (hs.ended (by rw [owner]; nofun) worker t hold).imp_left fun hmem => ?_
        exact List.mem_append.mpr (.inl hmem)
      · exact .inl (List.mem_append.mpr (.inr (List.mem_singleton.mpr hnew)))
  | accepts owner => exact hs.same rfl rfl rfl rfl id id
  | rejects owner => exact hs.same rfl rfl rfl rfl id id
  | submitFails owner => exact hs.same rfl rfl rfl rfl (fun _ => rfl) id
  | stops owner => exact hs.turns rfl rfl (by rw [owner]; nofun) fun _ => ⟨nofun, nofun⟩
  | clears owner => exact hs.closes (by rw [owner]; nofun) rfl rfl rfl (.inl rfl)
  | closeFails owner => exact hs.closes (by rw [owner]; nofun) rfl rfl rfl (.inr rfl)
  | receives owner pending message => exact hs.same rfl rfl rfl rfl id (fun h => (pending h).elim)
  | expires owner => exact hs.turns rfl rfl (by rw [owner]; nofun) (after_ne _)
  | @collected call owner pending =>
    refine ⟨fun _ _ => hs.closed call (.inl owner), fun _ _ => pending, hs.handles, fun _ => ?_⟩
    exact hs.ended (by rw [owner]; nofun)
  -- The thread that is joined is over, and its failure is noted.
  | @joins call worker rest clean panicked owner handle ended =>
    refine ⟨fun _ _ => ?_, fun _ _ => hs.drained call owner, fun other hmem => ?_, fun _ => ?_⟩
    · refine (hs.closed call (.inr owner)).imp_right fun hfailed => ?_
      show (s.failed || !clean) = true
      rw [hfailed]
      rfl
    · exact hs.handles other (handle ▸ List.mem_cons_of_mem worker hmem)
    · -- The handle that is dropped belongs to a thread that is over.
      intro other t ht
      rcases hs.ended (by rw [owner]; nofun) other t ht with hmem | hover
      · rw [handle] at hmem
        rcases List.mem_cons.mp hmem with rfl | hmem
        · rw [ended, Option.some.injEq] at ht
          exact .inr ⟨clean, by rw [← ht]⟩
        · exact .inl hmem
      · exact .inr hover
  | concludes owner => exact hs.turns rfl rfl (by rw [owner]; nofun) (after_ne _)
  | detaches => exact ⟨nofun, nofun, nofun, fun h => (h rfl).elim⟩
  | requestStop => exact hs.same rfl rfl rfl rfl id id
  | poison => exact hs.same rfl rfl rfl rfl id id

end

end Pool

end Sederial
