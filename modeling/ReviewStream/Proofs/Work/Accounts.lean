import Mathlib.Data.List.Induction
import Mathlib.Tactic.Lemma
import ReviewStream.Work.Queue

/-!
# The accounts of a queue

While something takes items from a queue, its count is the number of items that were accepted and
not yet taken, whether it counts them or the places that are left. A submission that fails leaves
the count as it was. Items are taken in the order in which they were accepted.
-/

namespace ReviewStream

namespace Room

/-- No more places are free than there are. -/
def Fits : Room → Prop
  | bounded capacity free => free ≤ capacity
  | unbounded _ => True

variable {r r' : Room} {e : QueueError}

lemma enter?_eq_ok (h : r.Fits) (hr : r.enter? = .ok r') :
    r'.Fits ∧ r'.capacity? = r.capacity? ∧ r'.count = r.count + 1 := by
  cases r with
  | bounded capacity free =>
    cases free with
    | zero => cases hr
    | succ free =>
      cases hr
      simp only [Fits] at h
      refine ⟨?_, rfl, ?_⟩
      · simp only [Fits]
        omega
      · simp only [count]
        omega
  | unbounded depth =>
    cases hr
    exact ⟨trivial, rfl, rfl⟩

lemma count_le_capacity {n : Nat} (h : r.capacity? = some n) : r.count ≤ n := by
  cases r with
  | bounded capacity free =>
    cases h
    exact Nat.sub_le _ _
  | unbounded depth => cases h

lemma enter?_eq_error (h : r.Fits) :
    r.enter? = .error e ↔ ∃ n, r.capacity? = some n ∧ r.count = n ∧ e = .full n := by
  cases r with
  | bounded capacity free =>
    cases free with
    | zero => simp [enter?, capacity?, count, eq_comm]
    | succ free =>
      simp only [Fits] at h
      have hcount : capacity ≠ capacity - (free + 1) := by omega
      simp [enter?, capacity?, count, hcount]
  | unbounded depth => simp [enter?, capacity?]

/-- Striking an item off gives back what it had taken; no count goes below zero. -/
lemma leave_of_count_pos (h : r.Fits) (hr : 0 < r.count) :
    r.leave.Fits ∧ r.leave.capacity? = r.capacity? ∧ r.leave.count + 1 = r.count := by
  cases r with
  | bounded capacity free =>
    simp only [count] at hr
    refine ⟨?_, rfl, ?_⟩
    · simp only [leave, Fits]
      omega
    · simp only [leave, count]
      omega
  | unbounded depth =>
    simp only [count] at hr
    refine ⟨trivial, rfl, ?_⟩
    simp only [leave, count]
    omega

lemma abandon_eq (r : Room) : r.abandon.Fits ∧ r.abandon.capacity? = r.capacity? := by
  cases r with
  | bounded capacity free => exact ⟨Nat.le_refl _, rfl⟩
  | unbounded depth => exact ⟨trivial, rfl⟩

end Room

namespace WorkQueue

variable {α : Type}

/-- A submission count by count. A bounded queue gives a place away only for an item that it
accepts. An unbounded one counts the item before it sends it on, and strikes it off again if nothing
takes items any more. -/
def offer (q : WorkQueue α) (a : α) : Option QueueError × WorkQueue α :=
  match q.room with
  | .bounded capacity free =>
    if q.closed then (some .closed, q)
    else match free with
      | 0 => (some (.full capacity), q)
      | free + 1 => (none, { q with items := q.items ++ [a], room := .bounded capacity free })
  | .unbounded depth =>
    let counted := { q with room := .unbounded (depth + 1) }
    if q.closed then (some .closed, { counted with room := counted.room.leave })
    else (none, { counted with items := q.items ++ [a] })

section Operations

variable {q q' : WorkQueue α} {a b : α} {e : QueueError}

lemma offer_eq_trySubmit (q : WorkQueue α) (a : α) : q.offer a =
    match q.trySubmit a with
    | .ok q' => (none, q')
    | .error e => (some e, q) := by
  obtain ⟨items, room, closed⟩ := q
  cases room with
  | bounded capacity free =>
    cases closed with
    | true => rfl
    | false =>
      cases free with
      | zero => rfl
      | succ free => rfl
  | unbounded depth =>
    cases closed with
    | true => rfl
    | false => rfl

lemma trySubmit_of_closed (h : q.closed = true) : q.trySubmit a = .error .closed := if_pos h

lemma trySubmit_of_open (h : q.closed = false) :
    q.trySubmit a = q.room.enter?.map fun room => { q with items := q.items ++ [a], room } := by
  rw [trySubmit, h, if_neg Bool.false_ne_true]
  cases q.room.enter? with
  | ok room => rfl
  | error e => rfl

lemma offer_of_ok (h : q.trySubmit a = .ok q') : q.offer a = (none, q') := by
  rw [offer_eq_trySubmit, h]

lemma offer_of_error (h : q.trySubmit a = .error e) : q.offer a = (some e, q) := by
  rw [offer_eq_trySubmit, h]

lemma submit?_eq_none_iff : q.submit? a = none ↔ ∃ n, q.trySubmit a = .error (.full n) := by
  unfold submit?
  cases q.trySubmit a with
  | ok q' => simp
  | error e => cases e <;> simp

lemma submit?_of_closed (h : q.closed = true) : q.submit? a = some (.error .closed) := by
  rw [submit?, trySubmit_of_closed h]

lemma take?_eq_some (h : q.take? = some (b, q')) :
    q.items = b :: q'.items ∧ q' = { q with items := q'.items, room := q.room.leave } := by
  have hitems := items_of_take? h
  simp only [take?, hitems, Option.some.injEq, Prod.mk.injEq, true_and] at h
  exact ⟨hitems, h.symm⟩

end Operations

/-- What may be done with a queue. Whoever submits an item or takes one may be ready to wait. -/
inductive Move (α : Type) where
  | trySubmit (item : α)
  | submit (item : α)
  | take
  | drop
  deriving DecidableEq

/-- A queue in use, with the items it accepted and those that were taken from it. -/
structure Usage (α : Type) where
  queue : WorkQueue α
  accepted : List α := []
  taken : List α := []

/-- A new queue for so many items, or without a bound. -/
def opened : Option Nat → WorkQueue α
  | some capacity => bounded capacity
  | none => unbounded

namespace Usage

/-- Submits an item without waiting. -/
def offered (u : Usage α) (a : α) : Usage α :=
  match u.queue.offer a with
  | (none, queue) => { u with queue, accepted := u.accepted ++ [a] }
  | (some _, queue) => { u with queue }

/-- A submission that would have to wait does not take place, and nothing is taken from a queue in
which nothing waits. -/
def move (u : Usage α) : Move α → Usage α
  | .trySubmit a => u.offered a
  | .submit a => if (u.queue.submit? a).isSome then u.offered a else u
  | .take =>
    match u.queue.take? with
    | some (a, queue) => { u with queue, taken := u.taken ++ [a] }
    | none => u
  | .drop => { u with queue := u.queue.close }

/-- What has come of a new queue. -/
def after (capacity : Option Nat) (xs : List (Move α)) : Usage α :=
  xs.foldl move { queue := opened capacity }

/-- What holds of a queue in use from the start on. -/
structure Balanced (capacity : Option Nat) (u : Usage α) : Prop where
  fits : u.queue.room.Fits
  capacity : u.queue.capacity? = capacity.map (max · 1)
  counted : u.queue.closed = false → u.queue.length = u.queue.items.length
  conserved : u.queue.closed = false → u.taken ++ u.queue.items = u.accepted
  taken_prefix : u.taken <+: u.accepted
  dropped : u.queue.closed = true → u.queue.items = []

variable {capacity : Option Nat} {u : Usage α} {xs : List (Move α)} {a : α}

lemma balanced_opened (capacity : Option Nat) :
    Balanced capacity ({ queue := opened capacity } : Usage α) := by
  cases capacity with
  | none => exact ⟨trivial, rfl, fun _ => rfl, fun _ => rfl, List.nil_prefix, nofun⟩
  | some n =>
    have hcount : (opened (some n) : WorkQueue α).length = 0 := Nat.sub_self _
    exact ⟨Nat.le_refl _, rfl, fun _ => hcount, fun _ => rfl, List.nil_prefix, nofun⟩

lemma offered_eq (u : Usage α) (a : α) : u.offered a =
    match u.queue.trySubmit a with
    | .ok queue => { u with queue, accepted := u.accepted ++ [a] }
    | .error _ => u := by
  cases h : u.queue.trySubmit a with
  | ok queue => rw [offered, offer_of_ok h]
  | error e => rw [offered, offer_of_error h]

lemma Balanced.offered (h : Balanced capacity u) (a : α) : Balanced capacity (u.offered a) := by
  rw [offered_eq]
  cases hc : u.queue.closed with
  | true =>
    rw [trySubmit_of_closed hc]
    exact h
  | false =>
    rw [trySubmit_of_open hc]
    cases hr : u.queue.room.enter? with
    | error e => exact h
    | ok room =>
      obtain ⟨hfits, hcapacity, hcount⟩ := Room.enter?_eq_ok h.fits hr
      have hcounted : u.queue.room.count = u.queue.items.length := h.counted hc
      refine ⟨hfits, hcapacity.trans h.capacity, fun _ => ?_, fun _ => ?_, ?_, ?_⟩
      · change room.count = (u.queue.items ++ [a]).length
        rw [hcount, hcounted, List.length_append, List.length_singleton]
      · change u.taken ++ (u.queue.items ++ [a]) = u.accepted ++ [a]
        rw [← h.conserved hc, List.append_assoc]
      · exact h.taken_prefix.trans (List.prefix_append _ _)
      · intro hclosed
        cases hc.symm.trans hclosed

lemma Balanced.taken_one {b : α} {queue : WorkQueue α} (h : Balanced capacity u)
    (ht : u.queue.take? = some (b, queue)) :
    u.queue.closed = false ∧ queue.length + 1 = u.queue.length ∧
      Balanced capacity { u with queue, taken := u.taken ++ [b] } := by
  obtain ⟨hitems, hqueue⟩ := take?_eq_some ht
  have hopen : u.queue.closed = false := by
    by_contra hclosed
    have hnone : u.queue.items = [] := h.dropped (by simpa using hclosed)
    simp [hitems] at hnone
  have hcounted : u.queue.room.count = u.queue.items.length := h.counted hopen
  have hpos : 0 < u.queue.room.count := by simp [hcounted, hitems]
  obtain ⟨hfits, hcapacity, hcount⟩ := Room.leave_of_count_pos h.fits hpos
  have hroom : queue.room = u.queue.room.leave := by rw [hqueue]
  have hclosed : queue.closed = false := by rw [hqueue, hopen]
  have hall : (u.taken ++ [b]) ++ queue.items = u.accepted := by
    rw [List.append_assoc, List.singleton_append, ← hitems, h.conserved hopen]
  refine ⟨hopen, ?_, ?_, ?_, fun _ => ?_, fun _ => hall, ⟨queue.items, hall⟩, ?_⟩
  · rw [length, hroom, hcount, length]
  · rwa [hroom]
  · rw [capacity?, hroom, hcapacity]
    exact h.capacity
  · change queue.room.count = queue.items.length
    rw [hroom]
    rw [hitems, List.length_cons] at hcounted
    omega
  · simp [hclosed]

lemma Balanced.move (h : Balanced capacity u) (x : Move α) : Balanced capacity (u.move x) := by
  cases x with
  | trySubmit a => exact h.offered a
  | submit a =>
    simp only [Usage.move]
    split
    · exact h.offered a
    · exact h
  | take =>
    simp only [Usage.move]
    split
    · rename_i b queue ht
      exact (h.taken_one ht).2.2
    · exact h
  | drop =>
    simp only [Usage.move, close]
    split
    · exact h
    · obtain ⟨hfits, hcapacity⟩ := u.queue.room.abandon_eq
      exact ⟨hfits, hcapacity.trans h.capacity, nofun, nofun, h.taken_prefix, fun _ => rfl⟩

lemma after_append_singleton (capacity : Option Nat) (xs : List (Move α)) (x : Move α) :
    after capacity (xs ++ [x]) = (after capacity xs).move x := by
  simp [after]

lemma balanced_after (capacity : Option Nat) (xs : List (Move α)) :
    Balanced capacity (after capacity xs) := by
  induction xs using List.reverseRecOn with
  | nil => exact balanced_opened capacity
  | append_singleton xs x ih =>
    rw [after_append_singleton]
    exact ih.move x

lemma closed_offered (u : Usage α) (a : α) : (u.offered a).queue.closed = u.queue.closed := by
  rw [offered_eq]
  cases hc : u.queue.closed with
  | true => rw [trySubmit_of_closed hc, hc]
  | false =>
    rw [trySubmit_of_open hc]
    cases u.queue.room.enter? with
    | ok room => exact hc
    | error e => exact hc

lemma closed_after (capacity : Option Nat) (xs : List (Move α)) :
    (after capacity xs).queue.closed = true ↔ .drop ∈ xs := by
  induction xs using List.reverseRecOn with
  | nil => cases capacity <;> simp [after, opened, bounded, unbounded]
  | append_singleton xs x ih =>
    rw [after_append_singleton]
    cases x with
    | trySubmit a => simp [move, closed_offered, ih]
    | submit a =>
      simp only [move]
      split <;> simp [closed_offered, ih]
    | take =>
      simp only [move]
      split
      · rename_i ht
        have hqueue := (take?_eq_some ht).2
        rw [hqueue]
        simp [ih]
      · simp [ih]
    | drop =>
      have hclosed : (after capacity xs).queue.close.closed = true := by
        unfold close
        split
        · assumption
        · rfl
      simp [move, hclosed]

lemma Balanced.trySubmit_eq_error {e : QueueError} (h : Balanced capacity u)
    (hopen : u.queue.closed = false) : u.queue.trySubmit a = .error e ↔
      ∃ c, capacity = some c ∧ u.queue.length = max c 1 ∧ e = .full (max c 1) := by
  have hcapacity : u.queue.room.capacity? = capacity.map (max · 1) := h.capacity
  have hroom : u.queue.trySubmit a = .error e ↔ u.queue.room.enter? = .error e := by
    rw [trySubmit_of_open hopen]
    cases u.queue.room.enter? with
    | ok room => exact ⟨nofun, nofun⟩
    | error e' => exact ⟨fun he => by cases he; rfl, fun he => by cases he; rfl⟩
  rw [hroom, Room.enter?_eq_error h.fits, hcapacity]
  cases capacity with
  | none => simp
  | some c =>
    constructor
    · rintro ⟨n, hn, hcount, rfl⟩
      cases hn
      exact ⟨c, rfl, hcount, rfl⟩
    · rintro ⟨c', hc, hcount, rfl⟩
      cases hc
      exact ⟨max c 1, rfl, hcount, rfl⟩

/-- A new queue in any use. Until its receiver is dropped, what was taken and what still waits are
what was accepted, in this order, and the queue counts what waits: no more than its capacity, and it
refuses an item exactly when the count has come to that. Afterwards every submission fails. A
submission that fails changes nothing, and whatever is taken had been counted. -/
theorem accounts_balance (capacity : Option Nat) (xs : List (Move α)) (a : α) :
    let u := after capacity xs
    u.taken <+: u.accepted ∧
      (.drop ∉ xs → u.taken ++ u.queue.items = u.accepted ∧
        u.queue.length + u.taken.length = u.accepted.length ∧
        match capacity with
        | some c => u.queue.length ≤ max c 1 ∧
          (u.queue.submit? a = none ↔ u.queue.length = max c 1) ∧
          ∀ e, u.queue.trySubmit a = .error e ↔ u.queue.length = max c 1 ∧ e = .full (max c 1)
        | none => u.queue.submit? a ≠ none ∧ ∀ e, u.queue.trySubmit a ≠ .error e) ∧
      (.drop ∈ xs → u.queue.trySubmit a = .error .closed ∧
        u.queue.submit? a = some (.error .closed)) ∧
      (∀ e, u.queue.trySubmit a = .error e → u.queue.offer a = (some e, u.queue) ∧
        after capacity (xs ++ [.trySubmit a]) = u ∧ after capacity (xs ++ [.submit a]) = u) ∧
      ∀ b queue, u.queue.take? = some (b, queue) →
        u.queue.length = queue.length + 1 ∧ u.queue.items = b :: queue.items := by
  intro u
  have hbalanced : Balanced capacity u := balanced_after capacity xs
  refine ⟨hbalanced.taken_prefix, fun hdrop => ?_, fun hdrop => ?_, fun e hfail => ?_,
    fun b queue ht => ?_⟩
  · have hopen : u.queue.closed = false := by
      rw [← Bool.not_eq_true]
      exact fun hclosed => hdrop ((closed_after capacity xs).mp hclosed)
    have hconserved := hbalanced.conserved hopen
    have hlength : u.queue.length + u.taken.length = u.accepted.length := by
      rw [hbalanced.counted hopen, ← hconserved, List.length_append, Nat.add_comm]
    have hrefused := fun e => hbalanced.trySubmit_eq_error (a := a) (e := e) hopen
    refine ⟨hconserved, hlength, ?_⟩
    cases capacity with
    | none => simp [submit?_eq_none_iff, hrefused]
    | some c =>
      have hle : u.queue.length ≤ max c 1 := Room.count_le_capacity hbalanced.capacity
      refine ⟨hle, ?_, fun e => ?_⟩
      · simp [submit?_eq_none_iff, hrefused]
      · simp [hrefused]
  · have hclosed : u.queue.closed = true := (closed_after capacity xs).mpr hdrop
    exact ⟨trySubmit_of_closed hclosed, submit?_of_closed hclosed⟩
  · have hsame : u.offered a = u := by rw [offered_eq, hfail]
    refine ⟨offer_of_error hfail, ?_, ?_⟩
    · rw [after_append_singleton]
      exact hsame
    · rw [after_append_singleton, move]
      split
      · exact hsame
      · rfl
  · exact ⟨(hbalanced.taken_one ht).2.1.symm, (take?_eq_some ht).1⟩

/-- A queue for no items has a place for one. The second item is refused until the first is taken,
and when the receiver is dropped nothing is accepted any more. -/
theorem accounts_of_queue_for_none :
    let xs : List (Move String) := [.trySubmit "a", .trySubmit "b", .submit "b", .take, .submit "b"]
    let u := after (some 0) xs
    let dropped := after (some 0) (xs ++ [.drop])
    u.accepted = ["a", "b"] ∧ u.taken = ["a"] ∧ u.queue.length = 1 ∧
      u.queue.trySubmit "c" = .error (.full 1) ∧ dropped.queue.trySubmit "c" = .error .closed := by
  intro xs u dropped
  obtain ⟨-, hopen, -⟩ := accounts_balance (some 0) xs "c"
  obtain ⟨-, hlength, -, -, hrefused⟩ := hopen (by decide)
  obtain ⟨-, -, hclosed, -⟩ := accounts_balance (some 0) (xs ++ [.drop]) "c"
  have hone : u.queue.length = 1 := Nat.add_right_cancel hlength
  exact ⟨rfl, rfl, hone, (hrefused _).mpr ⟨hone, rfl⟩, (hclosed (by decide)).1⟩

end Usage

end WorkQueue

end ReviewStream
