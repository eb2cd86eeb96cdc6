import Mathlib.Data.List.Infix
import ReviewStream.Proofs.Work.Accounts

/-!
# Queues with and without a bound

A queue whose bound is never reached answers as one without a bound does, and holds the same items.
The two count alike until the receiver is dropped. Then the items that wait are gone from both, but
only the queue with a bound strikes them off its count.
-/

namespace ReviewStream

lemma Room.exists_full_of_enter? {r : Room} {e : QueueError} (h : r.enter? = .error e) :
    ∃ n, e = .full n := by
  cases r with
  | bounded capacity free =>
    cases free with
    | zero =>
      cases h
      exact ⟨capacity, rfl⟩
    | succ free => cases h
  | unbounded depth => cases h

lemma Room.count_abandon (r : Room) :
    r.abandon.count = if r.capacity?.isSome then 0 else r.count := by
  cases r with
  | bounded capacity free => exact Nat.sub_self capacity
  | unbounded depth => rfl

namespace WorkQueue

variable {α : Type}

def Move.item? : Move α → Option α
  | .trySubmit a | .submit a => some a
  | .take | .drop => none

/-- What the one who makes a move is told. -/
inductive Answer (α : Type) where
  | accepted
  | refused (error : QueueError)
  /-- There is no room for the item yet. -/
  | waiting
  | took (item : Option α)
  | dropped
  deriving DecidableEq

def Answer.isFull : Answer α → Bool
  | .refused (.full _) | .waiting => true
  | .accepted | .refused .closed | .took _ | .dropped => false

def offerAnswer (q : WorkQueue α) (a : α) : Answer α :=
  match (q.offer a).1 with
  | none => .accepted
  | some e => .refused e

def answer (q : WorkQueue α) : Move α → Answer α
  | .trySubmit a => q.offerAnswer a
  | .submit a => if (q.submit? a).isSome then q.offerAnswer a else .waiting
  | .take => .took (q.take?.map Prod.fst)
  | .drop => .dropped

section Offers

variable {q : WorkQueue α} {x : Move α} {a : α}

lemma offerAnswer_of_error {e : QueueError} (h : q.trySubmit a = .error e) :
    q.offerAnswer a = .refused e := by
  rw [offerAnswer, offer_of_error h]

lemma trySubmit_ne_full (hx : x.item? = some a) (h : (q.answer x).isFull = false) (n : Nat) :
    q.trySubmit a ≠ .error (.full n) := by
  intro hfull
  have hwait : q.submit? a = none := submit?_eq_none_iff.mpr ⟨n, hfull⟩
  cases x with
  | trySubmit b =>
    cases hx
    rw [answer, offerAnswer_of_error hfull] at h
    cases h
  | submit b =>
    cases hx
    rw [answer, hwait] at h
    cases h
  | take => cases hx
  | drop => cases hx

lemma answer_of_item? (hx : x.item? = some a) (h : ∀ n, q.trySubmit a ≠ .error (.full n)) :
    q.answer x = q.offerAnswer a := by
  cases x with
  | trySubmit b =>
    cases hx
    rfl
  | submit b =>
    cases hx
    refine if_pos (Option.ne_none_iff_isSome.mp fun hnone => ?_)
    obtain ⟨n, hn⟩ := submit?_eq_none_iff.mp hnone
    exact h n hn
  | take => cases hx
  | drop => cases hx

end Offers

namespace Usage

/-- The answers to moves, one after another. -/
def answersFrom (u : Usage α) : List (Move α) → List (Answer α)
  | [] => []
  | x :: xs => u.queue.answer x :: answersFrom (u.move x) xs

/-- What those are told who use a new queue. -/
def answers (capacity : Option Nat) (xs : List (Move α)) : List (Answer α) :=
  answersFrom { queue := opened capacity } xs

/-- The same has come of two queues, up to the way in which they count. -/
structure Alike (u v : Usage α) : Prop where
  accepted : u.accepted = v.accepted
  taken : u.taken = v.taken
  items : u.queue.items = v.queue.items
  closed : u.queue.closed = v.queue.closed

variable {capacity : Option Nat} {xs : List (Move α)} {u v : Usage α} {x : Move α} {a : α}

lemma answersFrom_append (u : Usage α) (xs ys : List (Move α)) :
    u.answersFrom (xs ++ ys) = u.answersFrom xs ++ (xs.foldl move u).answersFrom ys := by
  induction xs generalizing u with
  | nil => rfl
  | cons y xs ih => exact congrArg _ (ih (u.move y))

lemma answers_append_singleton (capacity : Option Nat) (xs : List (Move α)) (x : Move α) :
    answers capacity (xs ++ [x]) =
      answers capacity xs ++ [(after capacity xs).queue.answer x] :=
  answersFrom_append _ xs [x]

section Submissions

lemma move_of_item? (hx : x.item? = some a) (h : ∀ n, u.queue.trySubmit a ≠ .error (.full n)) :
    u.move x = u.offered a := by
  cases x with
  | trySubmit b =>
    cases hx
    rfl
  | submit b =>
    cases hx
    refine if_pos (Option.ne_none_iff_isSome.mp fun hnone => ?_)
    obtain ⟨n, hn⟩ := submit?_eq_none_iff.mp hnone
    exact h n hn
  | take => cases hx
  | drop => cases hx

lemma offered_of_open (hopen : u.queue.closed = false)
    (hroom : ∀ n, u.queue.trySubmit a ≠ .error (.full n)) :
    u.queue.offerAnswer a = .accepted ∧ ∃ room, u.offered a =
      { u with queue := ⟨u.queue.items ++ [a], room, false⟩, accepted := u.accepted ++ [a] } := by
  have htry := trySubmit_of_open (a := a) hopen
  cases hr : u.queue.room.enter? with
  | error e =>
    obtain ⟨n, rfl⟩ := Room.exists_full_of_enter? hr
    rw [hr] at htry
    exact absurd htry (hroom n)
  | ok room =>
    rw [hr] at htry
    refine ⟨?_, room, ?_⟩
    · rw [offerAnswer, offer_of_ok htry]
    · rw [offered_eq, htry, hopen]
      rfl

lemma offered_of_closed (hclosed : u.queue.closed = true) :
    u.queue.offerAnswer a = .refused .closed ∧ u.offered a = u := by
  have htry := trySubmit_of_closed (a := a) hclosed
  refine ⟨offerAnswer_of_error htry, ?_⟩
  rw [offered_eq, htry]

end Submissions

lemma Alike.offered (h : Alike u v) (hu : ∀ n, u.queue.trySubmit a ≠ .error (.full n))
    (hv : ∀ n, v.queue.trySubmit a ≠ .error (.full n)) :
    u.queue.offerAnswer a = v.queue.offerAnswer a ∧ Alike (u.offered a) (v.offered a) := by
  cases hc : u.queue.closed with
  | true =>
    obtain ⟨hanswer, hmove⟩ := offered_of_closed (a := a) hc
    obtain ⟨hanswer', hmove'⟩ := offered_of_closed (a := a) (h.closed ▸ hc)
    rw [hanswer, hanswer', hmove, hmove']
    exact ⟨rfl, h⟩
  | false =>
    obtain ⟨hanswer, room, hmove⟩ := offered_of_open hc hu
    obtain ⟨hanswer', room', hmove'⟩ := offered_of_open (h.closed ▸ hc) hv
    rw [hanswer, hanswer', hmove, hmove']
    exact ⟨rfl, by rw [h.accepted], h.taken, by rw [h.items], rfl⟩

lemma Alike.taken_next (h : Alike u v) :
    u.queue.answer .take = v.queue.answer .take ∧ Alike (u.move .take) (v.move .take) := by
  simp only [answer, move, take?, ← h.items]
  cases hi : u.queue.items with
  | nil => exact ⟨rfl, h⟩
  | cons a items => exact ⟨rfl, h.accepted, by rw [h.taken], rfl, h.closed⟩

lemma Alike.dropped (h : Alike u v) : Alike (u.move .drop) (v.move .drop) := by
  simp only [move, close, ← h.closed]
  split
  · exact h
  · exact ⟨h.accepted, h.taken, rfl, rfl⟩

lemma trySubmit_unbounded_ne_full (xs : List (Move α)) (a : α) (n : Nat) :
    (after none xs).queue.trySubmit a ≠ .error (.full n) := by
  intro hfull
  cases hc : (after none xs).queue.closed with
  | true =>
    rw [trySubmit_of_closed hc] at hfull
    cases hfull
  | false =>
    obtain ⟨c, hnone, -⟩ := ((balanced_after none xs).trySubmit_eq_error hc).mp hfull
    cases hnone

lemma Alike.move (h : Alike u (after none xs)) (hroom : (u.queue.answer x).isFull = false) :
    u.queue.answer x = (after none xs).queue.answer x ∧
      Alike (u.move x) (after none (xs ++ [x])) := by
  rw [after_append_singleton]
  cases hx : x.item? with
  | some a =>
    have hne := trySubmit_ne_full hx hroom
    have hne' := trySubmit_unbounded_ne_full xs a
    rw [answer_of_item? hx hne, answer_of_item? hx hne']
    rw [move_of_item? hx hne, move_of_item? hx hne']
    exact h.offered hne hne'
  | none =>
    cases x with
    | trySubmit a => cases hx
    | submit a => cases hx
    | take => exact h.taken_next
    | drop => exact ⟨rfl, h.dropped⟩

/-- As long as the queue is not found full, its answers and what comes of it are those of a queue
without a bound. -/
lemma alike_after (hroom : ∀ r ∈ answers capacity xs, r.isFull = false) :
    answers capacity xs = answers none xs ∧ Alike (after capacity xs) (after none xs) := by
  induction xs using List.reverseRecOn with
  | nil =>
    refine ⟨rfl, ?_⟩
    cases capacity <;> exact ⟨rfl, rfl, rfl, rfl⟩
  | append_singleton xs x ih =>
    rw [answers_append_singleton] at hroom ⊢
    obtain ⟨hanswers, halike⟩ := ih fun r hr => hroom r (List.mem_append_left _ hr)
    obtain ⟨hanswer, hnext⟩ := halike.move (x := x) (hroom _ (by simp))
    rw [← after_append_singleton] at hnext
    exact ⟨by rw [answers_append_singleton, hanswers, hanswer], hnext⟩

section Counts

lemma move_of_closed (hclosed : u.queue.closed = true) (hitems : u.queue.items = [])
    (x : Move α) : u.move x = u := by
  cases x with
  | trySubmit a => exact (offered_of_closed hclosed).2
  | submit a =>
    simp only [move, submit?_of_closed hclosed, Option.isSome_some, if_true]
    exact (offered_of_closed hclosed).2
  | take => simp [move, take?, hitems]
  | drop => simp [move, close, hclosed]

lemma length_drop (h : Balanced capacity u) (hopen : u.queue.closed = false) :
    (u.move .drop).queue.length = if capacity.isSome then 0 else u.queue.length := by
  have hcapacity : u.queue.room.capacity?.isSome = capacity.isSome := by
    rw [show u.queue.room.capacity? = _ from h.capacity, Option.isSome_map]
  simp only [move, close, hopen, Bool.false_eq_true, if_false]
  rw [length, Room.count_abandon, hcapacity]
  rfl

lemma eq_drop_of_closed (hopen : (after capacity xs).queue.closed = false)
    (hclosed : ((after capacity xs).move x).queue.closed = true) : x = .drop := by
  have hnot : .drop ∉ xs := by
    rw [← closed_after capacity, hopen]
    exact Bool.false_ne_true
  rw [← after_append_singleton, closed_after] at hclosed
  simpa [hnot, eq_comm] using hclosed

/-- A queue counts what was accepted and not taken. One with a bound stops doing so when the
receiver is dropped. -/
lemma length_after (capacity : Option Nat) (xs : List (Move α)) :
    (after capacity xs).queue.length =
      if capacity.isSome && (after capacity xs).queue.closed then 0
      else (after capacity xs).accepted.length - (after capacity xs).taken.length := by
  induction xs using List.reverseRecOn with
  | nil => cases capacity <;> simp [after, opened, bounded, unbounded, length, Room.count]
  | append_singleton xs x ih =>
    have hbalanced : Balanced capacity (after capacity xs) := balanced_after capacity xs
    have hnext := hbalanced.move x
    rw [after_append_singleton]
    cases hc : (after capacity xs).queue.closed with
    | true =>
      rw [move_of_closed hc (hbalanced.dropped hc)]
      exact ih
    | false =>
      cases hc' : ((after capacity xs).move x).queue.closed with
      | false =>
        have hlength := congrArg List.length (hnext.conserved hc')
        rw [List.length_append] at hlength
        simp only [Bool.and_false, Bool.false_eq_true, if_false, hnext.counted hc']
        omega
      | true =>
        obtain rfl := eq_drop_of_closed hc hc'
        simp only [hc, Bool.and_false, Bool.false_eq_true, if_false] at ih
        rw [length_drop hbalanced hc, Bool.and_true, ih]
        rfl

lemma length_of_closed (hempty : ∀ zs, zs ++ [.drop] <+: xs → (after none zs).queue.items = [])
    (hclosed : (after none xs).queue.closed = true) : (after none xs).queue.length = 0 := by
  induction xs using List.reverseRecOn with
  | nil => cases hclosed
  | append_singleton xs x ih =>
    have hbalanced : Balanced none (after none xs) := balanced_after none xs
    rw [after_append_singleton] at hclosed ⊢
    cases hc : (after none xs).queue.closed with
    | true =>
      rw [move_of_closed hc (hbalanced.dropped hc)]
      exact ih (fun zs hzs => hempty zs (hzs.trans (List.prefix_append _ _))) hc
    | false =>
      obtain rfl := eq_drop_of_closed hc hclosed
      rw [length_drop hbalanced hc, hbalanced.counted hc, hempty xs List.prefix_rfl]
      rfl

end Counts

/-- The same moves on a new queue whose bound is never reached and on one without a bound. All
answers are the same, and after every front part of the moves the same was accepted and taken, the
same items wait, and both queues are closed or neither is. The one without a bound counts what was
accepted and not taken; the other one does so as well until its receiver is dropped, and counts
nothing from then on. So they count alike throughout if and only if the receiver is not dropped
while items wait. -/
theorem unbounded_counts_alike_iff (capacity : Nat) (xs : List (Move α))
    (hroom : ∀ r ∈ answers (some capacity) xs, r.isFull = false) :
    answers (some capacity) xs = answers none xs ∧
    (∀ ys, ys <+: xs → let b := after (some capacity) ys
      let u := after none ys
      b.accepted = u.accepted ∧ b.taken = u.taken ∧ b.queue.items = u.queue.items ∧
        b.queue.closed = u.queue.closed ∧ (u.queue.closed = true ↔ .drop ∈ ys) ∧
        u.queue.length + u.taken.length = u.accepted.length ∧
        b.queue.length = if u.queue.closed then 0 else u.queue.length) ∧
    ((∀ ys, ys <+: xs → let b := after (some capacity) ys
      let u := after none ys
      b.queue.length = u.queue.length ∧ b.queue.isEmpty = u.queue.isEmpty) ↔
      ∀ ys, ys ++ [.drop] <+: xs → (after none ys).queue.items = []) := by
  have hfront : ∀ ys, ys <+: xs → Alike (after (some capacity) ys) (after none ys) := by
    rintro ys ⟨zs, rfl⟩
    refine (alike_after fun r hr => hroom r ?_).2
    rw [answers, answersFrom_append]
    exact List.mem_append_left _ hr
  have hcount : ∀ ys, (after (none : Option Nat) ys : Usage α).queue.length +
      (after none ys).taken.length = (after none ys).accepted.length := by
    intro ys
    have hlength := length_after none ys
    have hbalanced := balanced_after none ys
    have hle := hbalanced.taken_prefix.length_le
    simp only [Option.isSome_none, Bool.false_and, Bool.false_eq_true, if_false] at hlength
    omega
  have hbound : ∀ ys, ys <+: xs → (after (some capacity) ys).queue.length =
      if (after none ys).queue.closed then 0 else (after none ys).queue.length := by
    intro ys hys
    have halike := hfront ys hys
    have hlength := length_after none ys
    simp only [Option.isSome_none, Bool.false_and, Bool.false_eq_true, if_false] at hlength
    rw [length_after, halike.closed, halike.accepted, halike.taken, hlength, Option.isSome_some,
      Bool.true_and]
  refine ⟨(alike_after hroom).1, fun ys hys => ?_, fun h ys hys => ?_, fun hempty ys hys => ?_⟩
  · have halike := hfront ys hys
    exact ⟨halike.accepted, halike.taken, halike.items, halike.closed, closed_after none ys,
      hcount ys, hbound ys hys⟩
  · have hbalanced : Balanced none (after none ys) := balanced_after none ys
    cases hc : (after none ys).queue.closed with
    | true => exact hbalanced.dropped hc
    | false =>
      have hdropped : (after none (ys ++ [.drop])).queue.closed = true :=
        (closed_after none _).mpr (by simp)
      have hsame := (h _ hys).1
      rw [hbound _ hys, hdropped, after_append_singleton, length_drop hbalanced hc,
        hbalanced.counted hc] at hsame
      exact List.length_eq_zero_iff.mp hsame.symm
  · have hlength : (after (some capacity) ys).queue.length = (after none ys).queue.length := by
      rw [hbound ys hys]
      split
      · rename_i hc
        exact (length_of_closed (fun zs hzs => hempty zs (hzs.trans hys)) hc).symm
      · rfl
    exact ⟨hlength, by rw [isEmpty, isEmpty, hlength]⟩

/-- A queue for two items is filled, emptied and then dropped, and counts as one without a bound. -/
theorem unbounded_counts_alike_when_emptied :
    let xs : List (Move String) :=
      [.trySubmit "a", .submit "b", .take, .trySubmit "c", .take, .take, .take, .drop, .submit "d"]
    (∀ r ∈ answers (some 2) xs, r.isFull = false) ∧
      answers none xs = [.accepted, .accepted, .took (some "a"), .accepted, .took (some "b"),
        .took (some "c"), .took none, .dropped, .refused .closed] ∧
      ∀ ys, ys <+: xs →
        (after (some 2) ys).queue.length = (after (none : Option Nat) ys).queue.length := by
  intro xs
  have hroom : ∀ r ∈ answers (some 2) xs, r.isFull = false := by decide
  obtain ⟨hanswers, -, hiff⟩ := unbounded_counts_alike_iff 2 xs hroom
  have hempty : ∀ zs ∈ xs.inits, zs.getLast? = some .drop →
      (after none zs.dropLast).queue.items = [] := by decide
  refine ⟨hroom, hanswers ▸ by decide, fun ys hys => (hiff.mpr (fun zs hzs => ?_) ys hys).1⟩
  have hitems := hempty _ ((List.mem_inits _ _).mpr hzs) (by simp)
  rwa [List.dropLast_concat] at hitems

/-- An item that still waits when the receiver is dropped is counted for good by a queue without a
bound. -/
theorem unbounded_counts_discarded_item :
    let xs : List (Move Nat) := [.submit 1, .take, .submit 2, .drop]
    (∀ r ∈ answers (some 2) xs, r.isFull = false) ∧
      (after (some 2) xs).queue.length = 0 ∧ (after none xs).queue.length = 1 ∧
      (after (some 2) xs).queue.isEmpty = true ∧ (after none xs).queue.isEmpty = false ∧
      (after none xs).queue.items = [] ∧ (after none xs).queue.closed = true := by
  decide

end Usage

end WorkQueue

end ReviewStream
