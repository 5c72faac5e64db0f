import Sederial.Pool

/-!
# `Sederial.Crew`: a pool with the states of its workers

`Pool` models when the threads of `src/server/pool.rs` call the methods of the trait `Worker`. A
`Crew` adds what these calls do. Each thread owns the state of its worker, so a call changes one
entry of `Crew.states`, and no call reads another entry.

A call is performed when it returns. A call that panics leaves the entry as it was: the state of
that worker is dropped, and nobody reads it again.
-/

set_option autoImplicit false

namespace Sederial

/-- `trait Worker`, for workers with a state of type `W`. -/
structure Worker (W Job : Type) where
  handle : Job → W → W
  maintain : W → W

/-- A pool with the states of its workers. -/
structure Crew (W Job : Type) where
  pool : Pool Job
  /-- The state of the worker on each thread. -/
  states : List W

namespace Crew

variable {W Job : Type}

/-- A crew before the loop of `Pool::new`. -/
def start (count capacity : Nat) (stop : Bool) : Crew W Job := ⟨.start count capacity stop, []⟩

/-- What an action does to the states of the workers. `initial` is what `create_worker` returns
for each thread. -/
def work (worker : Worker W Job) (initial : Nat → W) (s : Crew W Job) : Action Job → List W
  | .spawn true => s.states ++ [initial s.states.length]
  | .worker index .run =>
    match s.pool.threads[index]? with
    | some ⟨.maintaining, _⟩ => s.states.modify index worker.maintain
    | some ⟨.handling ticket, _⟩ => s.states.modify index (worker.handle ticket.job)
    | _ => s.states
  | _ => s.states

/-- One action of the crew, if it is possible for the pool. -/
def step (worker : Worker W Job) (initial : Nat → W) (s : Crew W Job) (a : Action Job) :
    Option (Crew W Job) :=
  (s.pool.step a).map fun pool => ⟨pool, s.work worker initial a⟩

end Crew

end Sederial
