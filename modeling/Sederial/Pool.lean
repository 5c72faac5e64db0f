import Sederial.World

/-!
# `Sederial.Pool`: the worker pool as a system of threads

The model of `src/server/pool.rs`. A `Pool` is the state that the threads share, the phase of
every worker thread, and the phase of the thread that owns the pool. `Pool.step` performs one
atomic action of one of them. The mutex makes a critical section atomic, so a critical section is
one action; everything outside the lock is an action of its own, down to the single stores of
the stop and failure flags. A run is any sequence of actions, so it is any interleaving.

What the code does not control is chosen by the action: whether `create_worker` and `spawn`
succeed, whether a call of the worker panics, and when a wait times out. Two actions belong to
the surroundings: the stop flag is shared with the service, and a panic under the lock poisons
the mutex. From then on every attempt to lock it fails.

Three things are there for the theorems only: the number in a `Ticket`, which tells equal jobs
apart, the thread index in a completion message, and the log.
-/

set_option autoImplicit false

namespace Sederial

/-- A job with the number of the `submit` call that brought it. -/
structure Ticket (Job : Type) where
  number : Nat
  job : Job

/-- The queue of a pool, behind its lock. -/
structure Jobs (T : Type) where
  queue : List T
  capacity : Nat
  closed : Bool

/-- What a worker finds in the queue. -/
inductive JobPoll (T : Type) where
  | ready (job : T)
  | idle
  | stopped

namespace Jobs

variable {T : Type}

/-- The critical section of `submit`. -/
def submit (jobs : Jobs T) (stop : Bool) (job : T) : Bool × Jobs T :=
  if stop || jobs.closed || decide (jobs.capacity ≤ jobs.queue.length) then (false, jobs)
  else (true, { jobs with queue := jobs.queue ++ [job] })

/-- The critical section of `close`. -/
def close (jobs : Jobs T) : Jobs T := { jobs with closed := true, queue := [] }

/-- One turn of the loop of `next_job`. Without a result the worker waits. -/
def nextJob (jobs : Jobs T) (stop : Bool) : Option (JobPoll T) × Jobs T :=
  if stop || jobs.closed then (some .stopped, jobs)
  else
    match jobs.queue with
    | job :: rest => (some (.ready job), { jobs with queue := rest })
    | [] => (none, jobs)

/-- `next_job` after a wait. -/
def wakeUp (jobs : Jobs T) (stop timedOut : Bool) : Option (JobPoll T) × Jobs T :=
  if timedOut && jobs.queue.isEmpty && !jobs.closed && !stop then (some .idle, jobs)
  else jobs.nextJob stop

end Jobs

/-- The next thing a worker thread does. -/
inductive Phase (Job : Type) where
  /-- `while !stop.load(..)`. -/
  | looking
  /-- `state.maintain()`. -/
  | maintaining
  /-- `jobs.lock()` in `next_job`. -/
  | locking
  /-- `ready.wait_timeout(..)`. -/
  | waiting
  /-- The lock failed: `failed.store(true, ..)` in `next_job`. -/
  | lockFailed
  /-- `stop.store(true, ..)` in `next_job`. -/
  | stopping
  /-- The guard of `JobPoll::Ready(job) if !stop.load(..)`. -/
  | ready (ticket : Ticket Job)
  /-- The guard saw no stop flag. -/
  | starting (ticket : Ticket Job)
  /-- `state.handle(job)`. -/
  | handling (ticket : Ticket Job)
  /-- `drop(state)`. -/
  | dropping
  /-- A panic was caught: `failed.store(true, ..)`. -/
  | unwinding
  /-- `stop.store(true, ..)` after a panic. -/
  | raising
  /-- `ready.notify_all()`, which wakes waiting workers and changes nothing else. -/
  | notifying
  /-- `completed.send(())`. -/
  | reporting
  /-- The end of the closure, where the payload of a panic is dropped. -/
  | ending
  /-- The thread is over. A join reports a panic unless the end was clean. -/
  | finished (clean : Bool)

/-- A worker thread, and whether `catch_unwind` returned an error. -/
structure Thread (Job : Type) where
  phase : Phase Job
  panicked : Bool

/-- What made the owner close the pool. -/
inductive Call where
  /-- `Pool::shutdown`, called by the service. -/
  | shutdown
  /-- `pool.shutdown(..)` in `Pool::new`, when a worker cannot be created or spawned. -/
  | abort
  /-- `Drop for Pool`. -/
  | drop
  deriving DecidableEq, Repr

/-- The next thing the owner of the pool does. -/
inductive Owner where
  /-- `create_worker()`, with so many workers to go. -/
  | creating (left : Nat)
  /-- `thread::Builder::spawn`, with so many workers to go. -/
  | spawning (left : Nat)
  /-- The pool is built, and its methods can be called. -/
  | serving
  /-- `self.stop.store(true, ..)` in `close`. -/
  | closing (call : Call)
  /-- `self.jobs.lock()` in `close`. -/
  | locking (call : Call)
  /-- `while self.pending > 0` in `shutdown`. -/
  | collecting (call : Call)
  /-- `for worker in self.workers.drain(..)` in `shutdown`. -/
  | joining (call : Call)
  /-- The loop of `drop`. -/
  | detaching
  /-- The pool was dropped. -/
  | gone
  deriving DecidableEq, Repr

/-- What a run of the pool did. -/
inductive PoolEvent (Job : Type) where
  | spawned (worker : Nat)
  /-- `submit` returned `true`. -/
  | accepted (ticket : Ticket Job)
  /-- `submit` returned `false`. -/
  | rejected (ticket : Ticket Job)
  | dequeued (worker : Nat) (ticket : Ticket Job)
  /-- The guard behind `JobPoll::Ready` read the stop flag. -/
  | rechecked (worker : Nat) (ticket : Ticket Job) (stop : Bool)
  /-- `state.handle(job)` was called. -/
  | handled (worker : Nat) (ticket : Ticket Job)
  /-- `close` cleared the queue. -/
  | cleared (tickets : List (Ticket Job))
  | panicked (worker : Nat)
  /-- A worker, or without one the owner, could not lock the queue. -/
  | lockFailed (worker : Option Nat)
  /-- The owner received a completion. -/
  | received (worker : Nat)
  /-- `shutdown` returned. -/
  | returned (result : Except IoError Unit)

/-- The state of a pool: its queue, its threads, its owner, and what passes between them. -/
structure Pool (Job : Type) where
  jobs : Jobs (Ticket Job)
  poisoned : Bool
  stop : Bool
  failed : Bool
  /-- Every thread that was ever spawned. -/
  threads : List (Thread Job)
  /-- The join handles, as indices of threads. -/
  workers : List Nat
  /-- The messages in the completion channel. -/
  completed : List Nat
  pending : Nat
  owner : Owner
  /-- The number of `submit` calls. -/
  submitted : Nat
  log : List (PoolEvent Job)

/-- How the next thing a worker does turns out. -/
inductive Move where
  | run
  /-- The call panics. -/
  | panic
  /-- The wait times out. -/
  | timeout
  deriving DecidableEq, Repr

/-- One action of the owner, of a worker or of the surroundings. -/
inductive Action (Job : Type) where
  /-- `create_worker` returns. -/
  | create (ok : Bool)
  /-- `spawn` returns. -/
  | spawn (ok : Bool)
  | submit (job : Job)
  /-- The service calls `shutdown`. -/
  | shutdown
  /-- The service drops the pool. -/
  | drop
  /-- The owner goes on with what it is doing. -/
  | proceed
  /-- `recv_timeout` gives up. -/
  | expire
  | worker (index : Nat) (move : Move)
  /-- Someone else sets the stop flag. -/
  | requestStop
  /-- A panic under the lock. -/
  | poison

/-- The workers did not end in time. -/
def IoError.shutdownIncomplete : IoError := ⟨.timedOut, .message "worker shutdown incomplete"⟩

/-- `io::Error::other`. -/
def IoError.workerTerminated : IoError :=
  ⟨.other 0, .message "worker or queue terminated unexpectedly"⟩

/-- The loop of `Pool::new` with so many workers to go. -/
def Owner.next : Nat → Owner
  | 0 => .serving
  | left + 1 => .creating left

/-- What the owner does when `shutdown` has returned. `Pool::new` returns its error, which drops
the pool. -/
def Call.after : Call → Owner
  | .shutdown => .serving
  | .abort | .drop => .closing .drop

/-- What the owner does when `close` has returned. -/
def Call.closed : Call → Owner
  | .drop => .detaching
  | call => .collecting call

namespace Pool

variable {Job : Type}

/-- The pool before the loop of `Pool::new`. -/
def start (count capacity : Nat) (stop : Bool) : Pool Job where
  jobs := ⟨[], capacity, false⟩
  poisoned := false
  stop := stop
  failed := false
  threads := []
  workers := []
  completed := []
  pending := 0
  owner := .next count
  submitted := 0
  log := []

/-- Records an event. -/
def record (e : PoolEvent Job) (s : Pool Job) : Pool Job := { s with log := s.log ++ [e] }

/-- A thread goes on to another phase. -/
def goto (index : Nat) (thread : Thread Job) (phase : Phase Job) (s : Pool Job) : Pool Job :=
  { s with threads := s.threads.set index { thread with phase := phase } }

/-- A panic of the worker, caught by `catch_unwind`. -/
def unwind (index : Nat) (thread : Thread Job) (s : Pool Job) : Pool Job :=
  (s.record (.panicked index)).goto index { thread with panicked := true } .unwinding

/-- What a worker does with the result of a critical section of `next_job`. -/
def poll (index : Nat) (thread : Thread Job)
    (result : Option (JobPoll (Ticket Job)) × Jobs (Ticket Job)) (s : Pool Job) : Pool Job :=
  match result with
  | (none, jobs) => { s with jobs := jobs }.goto index thread .waiting
  | (some (.ready ticket), jobs) =>
    ({ s with jobs := jobs }.record (.dequeued index ticket)).goto index thread (.ready ticket)
  | (some .idle, jobs) => { s with jobs := jobs }.goto index thread .looking
  | (some .stopped, jobs) => { s with jobs := jobs }.goto index thread .dropping

/-- A critical section of `next_job`, or the failure to enter it. -/
def pollLocked (index : Nat) (thread : Thread Job)
    (result : Option (JobPoll (Ticket Job)) × Jobs (Ticket Job)) (s : Pool Job) : Pool Job :=
  if s.poisoned then (s.record (.lockFailed (some index))).goto index thread .lockFailed
  else s.poll index thread result

/-- One action of a worker thread. -/
def workerStep (index : Nat) (thread : Thread Job) (move : Move) (s : Pool Job) :
    Option (Pool Job) :=
  match thread.phase, move with
  | .looking, .run => some (s.goto index thread (if s.stop then .dropping else .maintaining))
  | .maintaining, .run => some (s.goto index thread .locking)
  | .maintaining, .panic => some (s.unwind index thread)
  | .locking, .run => some (s.pollLocked index thread (s.jobs.nextJob s.stop))
  | .waiting, .run => some (s.pollLocked index thread (s.jobs.wakeUp s.stop false))
  | .waiting, .timeout => some (s.pollLocked index thread (s.jobs.wakeUp s.stop true))
  | .lockFailed, .run => some ({ s with failed := true }.goto index thread .stopping)
  | .stopping, .run => some ({ s with stop := true }.goto index thread .dropping)
  | .ready ticket, .run =>
    some ((s.record (.rechecked index ticket s.stop)).goto index thread
      (if s.stop then .dropping else .starting ticket))
  | .starting ticket, .run =>
    some ((s.record (.handled index ticket)).goto index thread (.handling ticket))
  | .handling _, .run => some (s.goto index thread .looking)
  | .handling _, .panic => some (s.unwind index thread)
  | .dropping, .run => some (s.goto index thread .reporting)
  | .dropping, .panic => some (s.unwind index thread)
  | .unwinding, .run => some ({ s with failed := true }.goto index thread .raising)
  | .raising, .run => some ({ s with stop := true }.goto index thread .notifying)
  | .notifying, .run => some (s.goto index thread .reporting)
  | .reporting, .run =>
    some ({ s with completed := s.completed ++ [index] }.goto index thread .ending)
  | .ending, .run => some (s.goto index thread (.finished true))
  -- Only the payload of an earlier panic is dropped here.
  | .ending, .panic =>
    if thread.panicked then some (s.goto index thread (.finished false)) else none
  | _, _ => none

/-- A spawned thread, its join handle and its place among the pending ones. -/
def addWorker (left : Nat) (s : Pool Job) : Pool Job :=
  { s with
    threads := s.threads ++ [{ phase := .looking, panicked := false }]
    workers := s.workers ++ [s.threads.length]
    pending := s.pending + 1
    owner := .next left
    log := s.log ++ [.spawned s.threads.length] }

/-- `submit`. -/
def submit (job : Job) (s : Pool Job) : Pool Job :=
  let ticket : Ticket Job := ⟨s.submitted, job⟩
  let s := { s with submitted := s.submitted + 1 }
  if s.poisoned then
    ({ s with failed := true, stop := true }.record (.lockFailed none)).record (.rejected ticket)
  else
    match s.jobs.submit s.stop ticket with
    | (true, jobs) => { s with jobs := jobs }.record (.accepted ticket)
    | (false, jobs) => { s with jobs := jobs }.record (.rejected ticket)

/-- The second half of `close`. -/
def closeQueue (call : Call) (s : Pool Job) : Pool Job :=
  if s.poisoned then
    { s with failed := true, owner := call.closed }.record (.lockFailed none)
  else
    { s with jobs := s.jobs.close, owner := call.closed }.record (.cleared s.jobs.queue)

/-- `shutdown` returns. -/
def conclude (call : Call) (result : Except IoError Unit) (s : Pool Job) : Pool Job :=
  { s with owner := call.after }.record (.returned result)

/-- `while self.pending > 0`, when a message is there or none is needed. -/
def collect (call : Call) (s : Pool Job) : Option (Pool Job) :=
  if s.pending = 0 then some { s with owner := .joining call }
  else
    match s.completed with
    | worker :: rest =>
      some ({ s with completed := rest, pending := s.pending - 1 }.record (.received worker))
    | [] => none

/-- `worker.join()`, which waits for the thread, and the end of `shutdown`. -/
def join (call : Call) (s : Pool Job) : Option (Pool Job) :=
  match s.workers with
  | worker :: rest =>
    match s.threads[worker]? with
    | some ⟨.finished clean, _⟩ =>
      some { s with workers := rest, failed := s.failed || !clean }
    | _ => none
  | [] => some (s.conclude call (if s.failed then .error .workerTerminated else .ok ()))

/-- One action of the pool, if it is possible. -/
def step (s : Pool Job) : Action Job → Option (Pool Job)
  | .create ok =>
    match s.owner with
    | .creating left => some { s with owner := if ok then .spawning left else .closing .abort }
    | _ => none
  | .spawn ok =>
    match s.owner with
    | .spawning left =>
      if ok then some (s.addWorker left) else some { s with owner := .closing .abort }
    | _ => none
  | .submit job => if s.owner = .serving then some (s.submit job) else none
  | .shutdown => if s.owner = .serving then some { s with owner := .closing .shutdown } else none
  | .drop => if s.owner = .serving then some { s with owner := .closing .drop } else none
  | .proceed =>
    match s.owner with
    | .closing call => some { s with stop := true, owner := .locking call }
    | .locking call => some (s.closeQueue call)
    | .collecting call => s.collect call
    | .joining call => s.join call
    | .detaching => some { s with workers := [], owner := .gone }
    | _ => none
  | .expire =>
    match s.owner with
    | .collecting call =>
      -- A message that is there is received, even at the deadline.
      if s.pending ≠ 0 ∧ s.completed = [] then
        some (s.conclude call (.error .shutdownIncomplete))
      else none
    | _ => none
  | .worker index move =>
    match s.threads[index]? with
    | some thread => s.workerStep index thread move
    | none => none
  | .requestStop => some { s with stop := true }
  | .poison => some { s with poisoned := true }

end Pool

end Sederial
