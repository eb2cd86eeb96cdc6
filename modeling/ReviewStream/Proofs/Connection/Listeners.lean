import Mathlib.Tactic.Lemma
import ReviewStream.Connection.Rehearsal
import ReviewStream.Proofs.Connection.Step

/-!
# What a listener hears

The connection shows in acts that it is up or down, and listeners are told in rounds. A listener
that is there from the start hears each of these acts once and in order, whoever else comes and
goes.
-/

namespace ReviewStream.Connection

/-- Whether an act takes the connection up or down, if it does either. -/
def Act.up? : Act → Option Bool
  | .up => some true
  | .down => some false
  | _ => none

/-- The ups and downs among acts. -/
def told (acts : List Act) : List Bool := acts.filterMap Act.up?

@[simp] lemma told_nil : told [] = [] := rfl

@[simp] lemma told_append (as bs : List Act) : told (as ++ bs) = told as ++ told bs :=
  List.filterMap_append

namespace Rehearsal

/-- What a listener of the given name was told. -/
def heard (id : String) (seen : List (Nat × Sight)) : List Bool :=
  seen.filterMap fun
    | (_, .told id' up) => if id' = id then some up else none
    | (_, .attempt) => none

/-- What happens around a connection: it takes a step, or a listener comes or goes. -/
inductive Happening where
  | step (s : Step)
  | join (l : Listener)
  | leave (id : String)

def Happening.step? : Happening → Option Step
  | .step s => some s
  | _ => none

def happen (T : Stage) (r : Rehearsal) : Happening → Rehearsal
  | .step s => r.take T s
  | .join l => { r with listeners := r.listeners ++ [l] }
  | .leave id => { r with listeners := r.listeners.filter (·.id ≠ id) }

/-- One of the listeners has the given name, it is told, and none breaks off. -/
structure Attends (id : String) (r : Rehearsal) : Prop where
  alone : ∃ l, r.listeners.filter (·.id = id) = [l] ∧ l.seen = true
  calm : ∀ l ∈ r.listeners, ∀ up, l.breaksOff up = false

/-- The listener with the given name stays the only one of this name, and nobody comes who breaks
off. -/
def Happening.Leaves (id : String) : Happening → Prop
  | .step _ => True
  | .join l => l.id ≠ id ∧ ∀ up, l.breaksOff up = false
  | .leave id' => id' ≠ id

variable {T : Stage} {r : Rehearsal} {id : String}

lemma tellEach_of_calm {up : Bool} {ls : List Listener}
    (h : ∀ l ∈ ls, l.breaksOff up = false) (r : Rehearsal) :
    tellEach up ls r =
      { r with seen := r.seen ++ (ls.filter (·.seen)).map fun l => (r.now, .told l.id up) } := by
  induction ls generalizing r with
  | nil => simp [tellEach]
  | cons l ls ih =>
    have hl := h l (List.mem_cons_self ..)
    have hls : ∀ l' ∈ ls, l'.breaksOff up = false := fun l' h' => h l' (List.mem_cons_of_mem _ h')
    rw [tellEach]
    cases hs : l.seen with
    | false => simp [hl, hs, ih hls]
    | true => simp [hl, hs, ih hls, see]

@[simp] lemma heard_append (id : String) (xs ys : List (Nat × Sight)) :
    heard id (xs ++ ys) = heard id xs ++ heard id ys :=
  List.filterMap_append

lemma heard_round (up : Bool) (now : Nat) (ls : List Listener) :
    heard id ((ls.filter (·.seen)).map fun l => (now, .told l.id up)) =
      ((ls.filter (·.id = id)).filter (·.seen)).map fun _ => up := by
  induction ls with
  | nil => rfl
  | cons l ls ih =>
    by_cases hs : l.seen = true <;> by_cases hi : l.id = id <;>
      simp_all [heard]

lemma exists_perform_attempt (T : Stage) (r : Rehearsal) :
    ∃ wakeAt, r.perform T .attempt = { r with
      session := r.script.headD {}, script := r.script.tail, wakeAt,
      seen := r.seen ++ [(r.now, .attempt)] } :=
  ⟨_, rfl⟩

lemma exists_perform_pause (T : Stage) (r : Rehearsal) (delay : Duration) :
    ∃ wakeAt, r.perform T (.pause delay) = { r with wakeAt } :=
  ⟨_, rfl⟩

lemma perform_of_attends (h : r.Attends id) (a : Act) :
    (r.perform T a).connection = r.connection ∧ (r.perform T a).listeners = r.listeners ∧
      heard id (r.perform T a).seen = heard id r.seen ++ told [a] := by
  obtain ⟨l, hl, hs⟩ := h.alone
  cases a with
  | up =>
    rw [perform, tellEach_of_calm fun l hl => h.calm l hl true]
    simp [heard_round, hl, hs, told, Act.up?]
  | down =>
    rw [perform, tellEach_of_calm fun l hl => h.calm l hl false]
    simp [heard_round, hl, hs, told, Act.up?]
  | attempt =>
    obtain ⟨wakeAt, hw⟩ := exists_perform_attempt T r
    simp [hw, told, Act.up?, heard]
  | post line provider => simp [perform, told, Act.up?]
  | pause delay =>
    obtain ⟨wakeAt, hw⟩ := exists_perform_pause T r delay
    simp [hw, told, Act.up?]

lemma Attends.congr {r' : Rehearsal} (h : r.Attends id) (hl : r'.listeners = r.listeners) :
    r'.Attends id :=
  ⟨by rw [hl]; exact h.alone, by rw [hl]; exact h.calm⟩

lemma foldl_perform_of_attends (acts : List Act) (h : r.Attends id) :
    (acts.foldl (perform T) r).connection = r.connection ∧
      (acts.foldl (perform T) r).Attends id ∧
      heard id (acts.foldl (perform T) r).seen = heard id r.seen ++ told acts := by
  induction acts generalizing r with
  | nil => exact ⟨rfl, h, by simp⟩
  | cons a acts ih =>
    obtain ⟨hc, hl, hh⟩ := perform_of_attends (T := T) h a
    obtain ⟨hc', ha, hh'⟩ := ih (h.congr hl)
    refine ⟨hc'.trans hc, ha, ?_⟩
    rw [List.foldl_cons, hh', hh, List.append_assoc, ← told_append, List.singleton_append]

lemma Attends.happen {x : Happening} (h : r.Attends id) (hx : x.Leaves id) :
    (r.happen T x).Attends id := by
  cases x with
  | step s =>
    rw [Rehearsal.happen, take]
    cases r.connection.step? T.setup s with
    | some next =>
      have h' : Attends id { r with connection := next.1 } := h.congr rfl
      exact (foldl_perform_of_attends next.2 h').2.1
    | none => exact h
  | join l =>
    obtain ⟨l', hl', hs⟩ := h.alone
    refine ⟨⟨l', by simp [Rehearsal.happen, hl', hx.1], hs⟩, fun l'' hl'' => ?_⟩
    rcases List.mem_append.mp hl'' with hm | hm
    · exact h.calm l'' hm
    · rw [List.mem_singleton.mp hm]
      exact hx.2
  | leave id' =>
    obtain ⟨l', hl', hs⟩ := h.alone
    have hkept : ∀ l ∈ r.listeners, (decide (l.id = id) && decide (l.id ≠ id')) =
        decide (l.id = id) := by
      intro l _
      by_cases hl : l.id = id
      · simpa [hl] using Ne.symm hx
      · simp [hl]
    refine ⟨⟨l', ?_, hs⟩, fun l'' hl'' => h.calm l'' (List.mem_filter.mp hl'').1⟩
    rw [Rehearsal.happen, List.filter_filter, List.filter_congr hkept, hl']

lemma heard_of_run {xs : List Happening} {c : Connection} {acts : List Act}
    (h : r.Attends id) (hxs : ∀ x ∈ xs, x.Leaves id)
    (hr : run? T.setup r.connection (xs.filterMap Happening.step?) = some (c, acts)) :
    (xs.foldl (happen T) r).connection = c ∧
      heard id (xs.foldl (happen T) r).seen = heard id r.seen ++ told acts := by
  induction xs generalizing r acts with
  | nil =>
    simp only [List.filterMap_nil, run?_nil, Option.some.injEq, Prod.mk.injEq] at hr
    obtain ⟨rfl, rfl⟩ := hr
    exact ⟨rfl, by simp⟩
  | cons x xs ih =>
    have hx := hxs x (List.mem_cons_self ..)
    have hrest : ∀ y ∈ xs, y.Leaves id := fun y hy => hxs y (List.mem_cons_of_mem _ hy)
    have ha := h.happen (T := T) hx
    cases x with
    | step s =>
      obtain ⟨c₁, a, b, hs, hb, rfl⟩ := run?_cons_eq_some_iff.mp hr
      have htake : r.happen T (.step s) = a.foldl (perform T) { r with connection := c₁ } := by
        rw [Rehearsal.happen, take, hs]
      have h₁ : Attends id { r with connection := c₁ } := h.congr rfl
      obtain ⟨hc, -, hh⟩ := foldl_perform_of_attends (T := T) a h₁
      rw [List.foldl_cons]
      rw [htake] at ha ⊢
      obtain ⟨hconn, hheard⟩ := ih ha hrest (by rw [hc]; exact hb)
      refine ⟨hconn, ?_⟩
      rw [hheard, hh, told_append, List.append_assoc]
    | join l => exact ih ha hrest hr
    | leave id' => exact ih ha hrest hr

end Rehearsal

end ReviewStream.Connection
