/-!
Tasks shared among workers. A worker that is idle may take any task that is pending, and a worker
that is busy may finish at any time. A result goes to the slot of its task, so results are delivered
in the order in which the tasks came.
-/
namespace Deadwood

/-- Each task is kept with the number of its slot. -/
structure Pool (α β : Type) where
  pending : List (α × Nat)
  workers : List (Option (α × Nat))
  slots : List (Option β)

namespace Pool

variable {α β : Type}

/-- A worker takes the task at a position among those pending, or finishes its own. -/
inductive Action where
  | take (worker position : Nat)
  | finish (worker : Nat)
  deriving DecidableEq, Repr

def start (count : Nat) (tasks : List α) : Pool α β where
  pending := tasks.zipIdx
  workers := List.replicate count none
  slots := List.replicate tasks.length none

def step (f : α → β) (pool : Pool α β) : Action → Option (Pool α β)
  | .take worker position =>
    match pool.workers[worker]?, pool.pending[position]? with
    | some none, some task =>
      some { pool with
        pending := pool.pending.eraseIdx position
        workers := pool.workers.set worker (some task) }
    | _, _ => none
  | .finish worker =>
    match pool.workers[worker]? with
    | some (some (a, slot)) =>
      some { pool with
        workers := pool.workers.set worker none
        slots := pool.slots.set slot (some (f a)) }
    | _ => none

def run (f : α → β) (pool : Pool α β) (actions : List Action) : Option (Pool α β) :=
  actions.foldlM (step f) pool

def outstanding (pool : Pool α β) : List (α × Nat) :=
  pool.pending ++ pool.workers.filterMap id

def isDone (pool : Pool α β) : Bool :=
  pool.outstanding.isEmpty

def results (pool : Pool α β) : List β :=
  pool.slots.filterMap id

/-- How many actions are left: a pending task has to be taken and finished. -/
def work (pool : Pool α β) : Nat :=
  pool.pending.length + pool.outstanding.length

def next? (pool : Pool α β) : Option Action :=
  match pool.pending, pool.workers.findIdx? Option.isNone with
  | _ :: _, some worker => some (.take worker 0)
  | _, _ => (pool.workers.findIdx? Option.isSome).map .finish

def advance (f : α → β) : Nat → Pool α β → Pool α β
  | 0, pool => pool
  | n + 1, pool =>
    match pool.next?.bind (pool.step f) with
    | some pool => advance f n pool
    | none => pool

def complete (f : α → β) (count : Nat) (tasks : List α) : List β :=
  let pool : Pool α β := start count tasks
  (advance f pool.work pool).results

end Pool

end Deadwood
