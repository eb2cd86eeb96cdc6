import Mathlib.Data.List.Induction
import Mathlib.Tactic.Lemma
import ReviewStream.Work.Pool

/-!
# Order of work

Items are performed in the order in which the queue accepted them, each once. A pool that is stopped
leaves some of the latest unperformed, and one that runs on comes to all of them.
-/

namespace ReviewStream.Pool

variable {α τ Ω : Type} {p p' : Pool α} {a : α}

section Operations

lemma trySubmit_eq_ok (h : p.trySubmit a = .ok p') : p.queue.closed = false ∧
    ∃ room, p' = { p with queue := ⟨p.queue.items ++ [a], room, false⟩ } := by
  unfold trySubmit WorkQueue.trySubmit at h
  cases hc : p.queue.closed with
  | true => simp [hc, Except.map] at h
  | false =>
    cases hr : p.queue.room.enter? with
    | error e => simp [hc, hr, bind, Except.bind, Except.map] at h
    | ok room =>
      simp only [hc, hr, bind, Except.bind, pure, Except.pure, Except.map, Bool.false_eq_true,
        if_false, Except.ok.injEq] at h
      exact ⟨rfl, room, h.symm⟩

lemma begin?_eq_some (h : p.begin? = some (a, p')) : p.stopped = false ∧
    p.busy.length < p.workers ∧ ∃ items, p.queue.items = a :: items ∧
      p' = { p with
        queue := ⟨items, p.queue.room.leave, p.queue.closed⟩
        busy := p.busy ++ [a] } := by
  unfold begin? at h
  split at h
  · cases h
  · rename_i hfree
    simp only [Bool.or_eq_true, decide_eq_true_eq, not_or, Bool.not_eq_true, Nat.not_le] at hfree
    simp only [Option.map_eq_some_iff, Prod.mk.injEq, Prod.exists, WorkQueue.take?] at h
    obtain ⟨b, q, hq, rfl, rfl⟩ := h
    split at hq
    · cases hq
    · rename_i items hitems
      simp only [Option.some.injEq, Prod.mk.injEq] at hq
      obtain ⟨rfl, rfl⟩ := hq
      exact ⟨hfree.1, hfree.2, items, hitems, rfl⟩

lemma begin?_of_items {items : List α} (hs : p.stopped = false) (hb : p.busy.length < p.workers)
    (hi : p.queue.items = a :: items) : p.begin? = some (a, { p with
      queue := ⟨items, p.queue.room.leave, p.queue.closed⟩
      busy := p.busy ++ [a] }) := by
  have hfree : (p.stopped || decide (p.workers ≤ p.busy.length)) = false := by simp [hs, hb]
  rw [begin?, hfree, WorkQueue.take?, hi]
  rfl

lemma settle_of_not_stopped (h : p.stopped = false) : p.settle = p := by
  simp [settle, h]

lemma settle_eq (p : Pool α) : p.settle = p ∨
    p.stopped = true ∧ ∃ queue, queue.closed = true ∧ p.settle = { p with queue } := by
  unfold settle
  split
  · rename_i h
    refine .inr ⟨by simp_all, _, ?_, rfl⟩
    unfold WorkQueue.close
    split <;> simp_all
  · exact .inl rfl

lemma finish_of_not_stopped (h : p.stopped = false) (i : Nat) :
    p.finish i = { p with busy := p.busy.eraseIdx i } := settle_of_not_stopped h

end Operations

/-- What happens to a pool: an item is submitted, its worker takes the next item at some time or is
done with the item it has, or the pool is stopped. -/
inductive Happening (τ α : Type) where
  | submitted (item : α)
  | taken (time : τ)
  | finished
  | stopped

/-- A pool at work on a world, with the items that its queue accepted and those that were performed
and when. -/
structure Shift (τ α Ω : Type) where
  pool : Pool α
  world : Ω
  accepted : List α := []
  performed : List (τ × α) := []

namespace Shift

variable {perform : τ → α → Ω → Ω} {s : Shift τ α Ω} {x : Happening τ α}
  {xs ys : List (Happening τ α)}

/-- Lets something happen. What is not possible changes nothing. -/
def happen (perform : τ → α → Ω → Ω) (s : Shift τ α Ω) : Happening τ α → Shift τ α Ω
  | .submitted a =>
    match s.pool.trySubmit a with
    | .ok pool => { s with pool, accepted := s.accepted ++ [a] }
    | .error _ => s
  | .taken t =>
    match s.pool.begin? with
    | some (a, pool) =>
      { s with pool, world := perform t a s.world, performed := s.performed ++ [(t, a)] }
    | none => s
  | .finished => { s with pool := s.pool.finish 0 }
  | .stopped => { s with pool := s.pool.stop }

def run (perform : τ → α → Ω → Ω) (s : Shift τ α Ω) (xs : List (Happening τ α)) : Shift τ α Ω :=
  xs.foldl (happen perform) s

/-- The items that were performed, in order. -/
def done (s : Shift τ α Ω) : List α := s.performed.map Prod.snd

/-- The world after performing items one after another. -/
def worldAfter (perform : τ → α → Ω → Ω) (w : Ω) (performed : List (τ × α)) : Ω :=
  performed.foldl (fun w x => perform x.1 x.2 w) w

/-- What holds of a pool at work from the start on. -/
structure Orderly (perform : τ → α → Ω → Ω) (w : Ω) (s : Shift τ α Ω) : Prop where
  world : s.world = worldAfter perform w s.performed
  conserved : s.pool.queue.closed = false → s.done ++ s.pool.queue.items = s.accepted
  done_prefix : s.done <+: s.accepted
  closed : s.pool.queue.closed = true → s.pool.stopped = true
  busy : s.pool.busy.length ≤ s.pool.workers

lemma Orderly.open_of_running {w : Ω} (h : Orderly perform w s) (hs : s.pool.stopped = false) :
    s.pool.queue.closed = false := by
  by_contra hclosed
  simp [h.closed (by simpa using hclosed)] at hs

lemma Orderly.settle {w : Ω} (pool : Pool α) (h : Orderly perform w { s with pool }) :
    Orderly perform w { s with pool := pool.settle } := by
  obtain hsame | ⟨hstopped, queue, hclosed, hsettle⟩ := pool.settle_eq
  · rw [hsame]
    exact h
  · rw [hsettle]
    exact { h with conserved := by simp [hclosed], closed := fun _ => hstopped }

lemma Orderly.happen {w : Ω} (h : Orderly perform w s) (x : Happening τ α) :
    Orderly perform w (s.happen perform x) := by
  cases x with
  | submitted a =>
    simp only [Shift.happen]
    split
    · rename_i pool hsubmit
      obtain ⟨hopen, room, rfl⟩ := trySubmit_eq_ok hsubmit
      have hconserved := h.conserved hopen
      refine ⟨h.world, fun _ => ?_, h.done_prefix.trans (List.prefix_append _ _), nofun, h.busy⟩
      rw [← hconserved, List.append_assoc]
      rfl
    · exact h
  | taken t =>
    simp only [Shift.happen]
    split
    · rename_i a pool hbegin
      obtain ⟨hrunning, hfree, items, hitems, rfl⟩ := begin?_eq_some hbegin
      have hopen := h.open_of_running hrunning
      have hdone : (s.done ++ [a]) ++ items = s.accepted := by
        simpa [hitems] using h.conserved hopen
      refine ⟨?_, fun _ => ?_, ⟨items, ?_⟩, h.closed, ?_⟩
      · simp [worldAfter, h.world]
      · simpa [done] using hdone
      · simpa [done] using hdone
      · simpa using Nat.succ_le_of_lt hfree
    · exact h
  | finished =>
    refine Orderly.settle { s.pool with busy := s.pool.busy.eraseIdx 0 }
      { h with busy := ?_ }
    exact Nat.le_trans (List.length_eraseIdx_le _ _) h.busy
  | stopped =>
    exact Orderly.settle { s.pool with stopped := true } { h with closed := fun _ => rfl }

lemma Orderly.run {w : Ω} (h : Orderly perform w s) (xs : List (Happening τ α)) :
    Orderly perform w (s.run perform xs) := by
  induction xs generalizing s with
  | nil => exact h
  | cons x xs ih => exact ih (h.happen x)

lemma run_append (perform : τ → α → Ω → Ω) (s : Shift τ α Ω) (xs ys : List (Happening τ α)) :
    s.run perform (xs ++ ys) = (s.run perform xs).run perform ys := List.foldl_append

lemma running_happen (h : s.pool.stopped = false) (hx : x ≠ .stopped) :
    (s.happen perform x).pool.stopped = false := by
  cases x with
  | submitted a =>
    simp only [happen]
    split
    · rename_i hsubmit
      obtain ⟨-, room, rfl⟩ := trySubmit_eq_ok hsubmit
      exact h
    · exact h
  | taken t =>
    simp only [happen]
    split
    · rename_i hbegin
      obtain ⟨-, -, items, -, rfl⟩ := begin?_eq_some hbegin
      exact h
    · exact h
  | finished =>
    simp only [happen, finish_of_not_stopped h]
    exact h
  | stopped => exact absurd rfl hx

lemma running_run (h : s.pool.stopped = false) (hx : ∀ x ∈ xs, x ≠ .stopped) :
    (s.run perform xs).pool.stopped = false := by
  induction xs generalizing s with
  | nil => exact h
  | cons x xs ih =>
    exact ih (running_happen h (hx x (by simp))) fun y hy => hx y (List.mem_cons_of_mem x hy)

lemma workers_happen (perform : τ → α → Ω → Ω) (s : Shift τ α Ω) (x : Happening τ α) :
    (s.happen perform x).pool.workers = s.pool.workers := by
  have hsettle : ∀ p : Pool α, p.settle.workers = p.workers := by
    intro p
    obtain h | ⟨-, queue, -, h⟩ := p.settle_eq <;> rw [h]
  cases x with
  | submitted a =>
    simp only [happen]
    split
    · rename_i hsubmit
      obtain ⟨-, room, rfl⟩ := trySubmit_eq_ok hsubmit
      rfl
    · rfl
  | taken t =>
    simp only [happen]
    split
    · rename_i hbegin
      obtain ⟨-, -, items, -, rfl⟩ := begin?_eq_some hbegin
      rfl
    · rfl
  | finished => exact hsettle _
  | stopped => exact hsettle _

lemma workers_run (perform : τ → α → Ω → Ω) (s : Shift τ α Ω) (xs : List (Happening τ α)) :
    (s.run perform xs).pool.workers = s.pool.workers := by
  induction xs generalizing s with
  | nil => rfl
  | cons x xs ih => exact (ih _).trans (workers_happen perform s x)

/-- A worker takes `n` items one after another, all at one time. -/
def turns (t : τ) (n : Nat) : List (Happening τ α) :=
  (List.replicate n [.taken t, .finished]).flatten

lemma happen_of_mem_turns {t : τ} {n : Nat} (h : x ∈ turns t n) : x = .taken t ∨ x = .finished := by
  obtain ⟨l, hl, hx⟩ := List.mem_flatten.mp h
  obtain ⟨-, rfl⟩ := List.mem_replicate.mp hl
  simpa using hx

/-- A worker that is free in a pool that runs comes to all items that wait, and this is what
performing them all amounts to. -/
lemma run_turns (perform : τ → α → Ω → Ω) (t : τ) (hs : s.pool.stopped = false)
    (hb : s.pool.busy = []) (hw : 0 < s.pool.workers) :
    let s' := s.run perform (turns t s.pool.queue.items.length)
    s'.pool.queue.items = [] ∧ s'.accepted = s.accepted ∧ s'.performed = s.performed ++
      s.pool.queue.items.map (t, ·) ∧
      s.pool.performAll (perform t) s.world = (s'.world, s'.pool) := by
  intro s'
  induction hi : s.pool.queue.items generalizing s with
  | nil =>
    have hnone : s.pool.begin? = none := by simp [begin?, WorkQueue.take?, hi]
    have hs' : s' = s := by simp [s', hi, turns, Shift.run]
    rw [hs', performAll]
    refine ⟨hi, rfl, by simp, ?_⟩
    split
    · rfl
    · rename_i h
      cases hnone.symm.trans h
  | cons a items ih =>
    have hbegin := begin?_of_items hs (by simpa [hb] using hw) hi
    let left : Pool α :=
      { s.pool with queue := ⟨items, s.pool.queue.room.leave, s.pool.queue.closed⟩ }
    let s₁ : Shift τ α Ω := { s with
      pool := left, world := perform t a s.world, performed := s.performed ++ [(t, a)] }
    have hfinish : ({ left with busy := s.pool.busy ++ [a] } : Pool α).finish 0 = left := by
      rw [finish_of_not_stopped (p := { left with busy := s.pool.busy ++ [a] }) hs]
      simp [left, hb]
    have hturn : (s.happen perform (.taken t)).happen perform .finished = s₁ := by
      simp only [happen, hbegin]
      exact congrArg (fun pool => { s₁ with pool }) hfinish
    have hs' : s' = s₁.run perform (turns t items.length) := by
      rw [show s' = s.run perform (turns t (items.length + 1)) by
        simp only [s', hi, List.length_cons], ← hturn]
      rfl
    obtain ⟨hitems, haccepted, hperformed, hall⟩ := ih (s := s₁) hs hb hw rfl
    rw [hs', performAll]
    refine ⟨hitems, haccepted, hperformed.trans (by simp [s₁]), ?_⟩
    split
    · rename_i h
      cases hbegin.symm.trans h
    · rename_i b pool h
      cases hbegin.symm.trans h
      have hlast : s.pool.busy.length + 1 - 1 = 0 := by simp [hb]
      simp only [List.length_append, List.length_singleton, hlast]
      exact hfinish ▸ hall

/-- One worker of a pool that runs, once it is done with what it has, can go on to all items that
were accepted. -/
lemma Orderly.exists_drain {w : Ω} (h : Orderly perform w s) (hs : s.pool.stopped = false)
    (hw : s.pool.workers = 1) (t : τ) :
    let idle := s.happen perform .finished
    ∃ ys, (∀ y ∈ ys, y = .taken t ∨ y = .finished) ∧
      let all := idle.run perform ys
      all.done = s.accepted ∧
        idle.pool.performAll (perform t) idle.world = (all.world, all.pool) := by
  intro idle
  have hidle : idle = { s with pool := { s.pool with busy := [] } } := by
    have hbusy : s.pool.busy.eraseIdx 0 = [] := by
      rw [List.eraseIdx_zero, ← List.length_eq_zero_iff, List.length_tail]
      have := h.busy
      omega
    simp only [idle, Shift.happen, finish_of_not_stopped hs, hbusy]
  have hrunning : idle.pool.stopped = false := by rw [hidle, hs]
  obtain ⟨hitems, haccepted, -, hall⟩ :=
    run_turns perform t hrunning (by rw [hidle]) (by rw [hidle, hw]; decide)
  refine ⟨_, fun y hy => happen_of_mem_turns hy, ?_, hall⟩
  have hnot : ∀ y : Happening τ α, y ∈ turns t idle.pool.queue.items.length → y ≠ .stopped := by
    intro y hy
    obtain rfl | rfl := happen_of_mem_turns hy <;> nofun
  have hend : Orderly perform w (idle.run perform (turns t idle.pool.queue.items.length)) :=
    (h.happen .finished).run _
  have hopen := hend.open_of_running (running_run hrunning hnot)
  have hconserved := hend.conserved hopen
  rw [hitems, List.append_nil] at hconserved
  rw [hconserved, haccepted, hidle]

end Shift

end ReviewStream.Pool
