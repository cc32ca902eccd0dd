/-!
# A pool of workers

The tasks of a run are handed out in their order, each to a worker of its own, and never more workers
than allowed have a place in the pool. Every task has a slot that only its worker writes. A worker first
writes what came of its task and then gives its place up. In which order workers come to do either is
open: a `Pool` is the state they share, a `Move` is one step of it, and a list of moves is one way in
which things may happen. The pool has come to its end when no move is left.
-/

namespace InfraSmells.Run

/-- How many workers may have a place in the pool: as many as asked for, or else as there are
processors, but not more than there are tasks. -/
def workers (jobs : Int) (processors count : Nat) : Nat :=
  min (if jobs ≤ 0 then processors else jobs.toNat) count

/-- The state that workers share. -/
structure Pool (β : Type) where
  /-- How many tasks have been handed out. -/
  begun : Nat
  /-- The tasks that are worked on. -/
  busy : List Nat
  /-- The tasks that are done, but whose workers still have their places. -/
  leaving : List Nat
  /-- What has come of each task. -/
  slots : List β
  deriving DecidableEq, Repr

/-- One step of a pool. -/
inductive Move where
  /-- The next task is handed out. -/
  | begin
  /-- A worker writes what came of its task. -/
  | write (task : Nat)
  /-- A worker gives its place up. -/
  | leave (task : Nat)
  deriving DecidableEq, Repr

namespace Pool

variable {α β : Type}

/-- The pool before the first of `count` tasks is handed out. -/
def initial (count : Nat) (blank : β) : Pool β where
  begun := 0
  busy := []
  leaving := []
  slots := List.replicate count blank

/-- The places that are taken. -/
def places (p : Pool β) : Nat :=
  p.busy.length + p.leaving.length

/-- The pool after a move, if the move can be made: a task is handed out only when a place is free, and a
worker does one thing after the other. -/
def move? (limit : Nat) (tasks : List α) (work : α → β) (p : Pool β) : Move → Option (Pool β)
  | .begin =>
    if p.begun < tasks.length ∧ p.places < limit then
      some { p with begun := p.begun + 1, busy := p.begun :: p.busy }
    else none
  | .write i =>
    if i ∈ p.busy then
      tasks[i]?.map fun t =>
        { p with
          busy := p.busy.erase i
          leaving := i :: p.leaving
          slots := p.slots.set i (work t) }
    else none
  | .leave i => if i ∈ p.leaving then some { p with leaving := p.leaving.erase i } else none

/-- The pool after several moves, if all of them can be made. -/
def play? (limit : Nat) (tasks : List α) (work : α → β) (p : Pool β) : List Move → Option (Pool β)
  | [] => some p
  | m :: ms => (p.move? limit tasks work m).bind (·.play? limit tasks work ms)

end Pool

end InfraSmells.Run
