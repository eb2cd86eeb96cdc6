import ReviewStream.Duration
import ReviewStream.Work.Queue

/-!
# Pools of workers

The workers of a pool take items from one queue in order and perform each of them on their own. How
a performance ends makes no difference to its worker. Once the pool is stopped no item is taken any
more, and the queue is closed when the last item that was begun has been performed.
-/

namespace ReviewStream

/-- A pool with the items that are being performed, the one begun first in front. A worker that
performs nothing is free, or gone if the pool is stopped. -/
structure Pool (α : Type) where
  queue : WorkQueue α
  workers : Nat
  busy : List α := []
  stopped : Bool := false
  deriving DecidableEq, Repr

namespace Pool

variable {α : Type}

/-- A pool of at least one worker over a queue. -/
def onQueue (queue : WorkQueue α) (workers : Nat) : Pool α := { queue, workers := max workers 1 }

def bounded? (workers capacity : Nat) : Except CapacityError (Pool α) :=
  (WorkQueue.bounded? capacity).map (onQueue · workers)

def unbounded (workers : Nat) : Pool α := onQueue .unbounded workers

def trySubmit (p : Pool α) (a : α) : Except QueueError (Pool α) :=
  (p.queue.trySubmit a).map fun queue => { p with queue }

def submit? (p : Pool α) (a : α) : Option (Except QueueError (Pool α)) :=
  (p.queue.submit? a).map fun answer => answer.map fun queue => { p with queue }

/-- A free worker takes the next item. -/
def begin? (p : Pool α) : Option (α × Pool α) :=
  if p.stopped || p.workers ≤ p.busy.length then none
  else p.queue.take?.map fun (a, queue) => (a, { p with queue, busy := p.busy ++ [a] })

theorem items_of_begin? {p p' : Pool α} {a : α} (h : p.begin? = some (a, p')) :
    p.queue.items = a :: p'.queue.items := by
  unfold begin? at h
  split at h
  · simp at h
  · simp only [Option.map_eq_some_iff, Prod.mk.injEq, Prod.exists] at h
    obtain ⟨b, q, hq, rfl, rfl⟩ := h
    exact WorkQueue.items_of_take? hq

/-- Closes the queue of a stopped pool that has no busy worker left. -/
def settle (p : Pool α) : Pool α :=
  if p.stopped && p.busy.isEmpty then { p with queue := p.queue.close } else p

theorem length_items_settle_le (p : Pool α) :
    p.settle.queue.items.length ≤ p.queue.items.length := by
  unfold settle WorkQueue.close
  split
  · split <;> simp
  · exact Nat.le_refl _

/-- The `i`-th item that is being performed is done. -/
def finish (p : Pool α) (i : Nat) : Pool α := settle { p with busy := p.busy.eraseIdx i }

theorem length_items_finish_lt {p p' : Pool α} {a : α} (h : p.begin? = some (a, p')) (i : Nat) :
    (p'.finish i).queue.items.length < p.queue.items.length := by
  have hle : (p'.finish i).queue.items.length ≤ p'.queue.items.length :=
    length_items_settle_le _
  simp [items_of_begin? h]
  omega

/-- Stops the pool. -/
def stop (p : Pool α) : Pool α := settle { p with stopped := true }

/-- How many milliseconds stopping the pool takes while nothing is finished: up to the limit if
there are busy workers, and no time at all if the pool is stopped already. -/
def stopWait (p : Pool α) (limit : Nat) : Nat :=
  if p.stopped || p.busy.isEmpty then 0 else (Duration.ofMillis limit).waitMillis

/-- What a worker did with an item. -/
inductive Turn (α : Type) where
  | begun (item : α)
  | finished (item : α)
  deriving DecidableEq, Repr

/-- Free workers take items as long as there are any. -/
def beginAll (p : Pool α) : List (Turn α) × Pool α :=
  match h : p.begin? with
  | none => ([], p)
  | some (a, p') =>
    have : p'.queue.items.length < p.queue.items.length := by simp [items_of_begin? h]
    let (turns, p'') := beginAll p'
    (.begun a :: turns, p'')
termination_by p.queue.items.length

/-- The pool with as many items finished, in the order in which they were begun, as there are
permits for, together with what its workers did and the permits left. Whenever a worker is free it
takes the next item. -/
def spend (p : Pool α) : Nat → List (Turn α) × Nat × Pool α
  | 0 =>
    let (turns, p) := p.beginAll
    (turns, 0, p)
  | permits + 1 =>
    let (turns, p) := p.beginAll
    match p.busy with
    | [] => (turns, permits + 1, p)
    | a :: _ =>
      let (more, left, p) := (p.finish 0).spend permits
      (turns ++ .finished a :: more, left, p)

/-- Performs one item after another on a world until none waits. -/
def performAll {Ω : Type} (perform : α → Ω → Ω) (p : Pool α) (w : Ω) : Ω × Pool α :=
  match h : p.begin? with
  | none => (w, p)
  | some (a, p') =>
    have : (p'.finish (p'.busy.length - 1)).queue.items.length < p.queue.items.length :=
      length_items_finish_lt h _
    performAll perform (p'.finish (p'.busy.length - 1)) (perform a w)
termination_by p.queue.items.length

end Pool

end ReviewStream
