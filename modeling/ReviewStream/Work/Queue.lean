/-!
# Work queues

Items wait in the order in which they were accepted. A bounded queue counts the free places that are
left of its capacity, an unbounded one counts the items that wait. The queue stays open as long as
something takes items from it; when that ends, the items that still wait are gone. A bounded queue
has its places back then, while an unbounded one keeps its count.
-/

namespace ReviewStream

/-- Why a queue cannot be made. -/
inductive CapacityError where
  | tooLarge
  deriving DecidableEq, Repr

/-- The largest number of places that can be counted. -/
def maxCapacity : Nat := Nat.pow 2 61 - 1

def CapacityError.message : CapacityError → String
  | .tooLarge =>
    "a semaphore may not have more than MAX_PERMITS permits (" ++ Nat.repr maxCapacity ++ ")"

/-- How a queue counts what waits in it. -/
inductive Room where
  | bounded (capacity free : Nat)
  | unbounded (depth : Nat)
  deriving DecidableEq, Repr

structure WorkQueue (α : Type) where
  items : List α
  room : Room
  closed : Bool
  deriving DecidableEq, Repr

/-- Why an item is not accepted. -/
inductive QueueError where
  | closed
  | full (capacity : Nat)
  deriving DecidableEq, Repr

def QueueError.message : QueueError → String
  | .closed => "work queue closed"
  | .full capacity => "work queue full (" ++ Nat.repr capacity ++ " items)"

namespace Room

/-- The number of items that wait. -/
def count : Room → Nat
  | bounded capacity free => capacity - free
  | unbounded depth => depth

def capacity? : Room → Option Nat
  | bounded capacity _ => some capacity
  | unbounded _ => none

/-- One item more, if there is a place for it. -/
def enter? : Room → Except QueueError Room
  | bounded capacity 0 => .error (.full capacity)
  | bounded capacity (free + 1) => .ok (bounded capacity free)
  | unbounded depth => .ok (unbounded (depth + 1))

/-- One item less. -/
def leave : Room → Room
  | bounded capacity free => bounded capacity (free + 1)
  | unbounded depth => unbounded (depth - 1)

/-- What is left when the waiting items are discarded. -/
def abandon : Room → Room
  | bounded capacity _ => bounded capacity capacity
  | unbounded depth => unbounded depth

end Room

namespace WorkQueue

variable {α : Type}

/-- An empty queue for `capacity` items, but at least one. -/
def bounded (capacity : Nat) : WorkQueue α :=
  ⟨[], .bounded (max capacity 1) (max capacity 1), false⟩

/-- An empty queue for `capacity` items, but at least one, if so many places can be counted. -/
def bounded? (capacity : Nat) : Except CapacityError (WorkQueue α) :=
  if maxCapacity < capacity then .error .tooLarge else .ok (bounded capacity)

/-- An empty queue without a bound. -/
def unbounded : WorkQueue α := ⟨[], .unbounded 0, false⟩

/-- The number of items that wait, as the queue counts them. -/
def length (q : WorkQueue α) : Nat := q.room.count

def isEmpty (q : WorkQueue α) : Bool := q.length = 0

def capacity? (q : WorkQueue α) : Option Nat := q.room.capacity?

/-- Accepts an item at the end of the queue without waiting. -/
def trySubmit (q : WorkQueue α) (a : α) : Except QueueError (WorkQueue α) :=
  if q.closed then .error .closed
  else do
    let room ← q.room.enter?
    return { q with items := q.items ++ [a], room }

/-- Takes the item in front, if one waits. -/
def take? (q : WorkQueue α) : Option (α × WorkQueue α) :=
  match q.items with
  | [] => none
  | a :: items => some (a, { q with items, room := q.room.leave })

theorem items_of_take? {q q' : WorkQueue α} {a : α} (h : q.take? = some (a, q')) :
    q.items = a :: q'.items := by
  unfold take? at h
  split at h
  · simp at h
  · rename_i b items hq
    simp only [Option.some.injEq, Prod.mk.injEq] at h
    rw [hq, ← h.1, ← h.2]

/-- The queue when nothing takes items from it any more. -/
def close (q : WorkQueue α) : WorkQueue α :=
  if q.closed then q else { items := [], room := q.room.abandon, closed := true }

/-- Accepts an item if it can do so now. Without room the one who submits would have to wait, and
there is no answer yet. -/
def submit? (q : WorkQueue α) (a : α) : Option (Except QueueError (WorkQueue α)) :=
  match q.trySubmit a with
  | .error (.full _) => none
  | answer => some answer

/-- The state of the queue in words. -/
def describe (q : WorkQueue α) : String :=
  let capacity := match q.capacity? with
    | some c => "Some(" ++ Nat.repr c ++ ")"
    | none => "None"
  "WorkQueue \x7b len: " ++ Nat.repr q.length ++ ", capacity: " ++ capacity ++ " \x7d"

end WorkQueue

end ReviewStream
