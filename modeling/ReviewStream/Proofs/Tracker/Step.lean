import ReviewStream.Proofs.Ledger.Reachable
import ReviewStream.Tracker

/-!
# One report in a history

What a single report does to a run: a report about a patch set changes the imprint of that patch set
only, and closes the patch set if it is a final one that leaves nothing outstanding. All facts about
histories are derived from the lemmas on `Run.step` in this file.
-/

namespace ReviewStream

/-- The imprint that a notice of completion carries. -/
def Notice.completed? : Notice → Option Imprint
  | .completed i => some i
  | .started .. => none

namespace Tracker

/-- A report is about a job under a patch set. -/
def Report.Names (p : Report) (k : PatchSetKey) (job : JobName) : Prop :=
  p.event.key? = some k ∧ p.signal.job = job

instance (p : Report) (k : PatchSetKey) (job : JobName) : Decidable (p.Names k job) :=
  inferInstanceAs (Decidable (_ ∧ _))

lemma closeIfDone_put (l : Ledger) (i : Imprint) (ms : List Moment) (ns : List Notice) :
    closeIfDone i.key ⟨l.put i, ms, ns⟩ =
      if i.allCompleted then
        ⟨(l.put i).forget i.key, ms ++ [.allCompleted], ns ++ [.completed i]⟩
      else ⟨l.put i, ms, ns⟩ := by
  have hget : (l.put i).get? i.key = some i := by rw [Ledger.get?_put, if_pos rfl]
  unfold closeIfDone
  rw [Ledger.takeCompleted_eq, hget]
  by_cases h : i.allCompleted = true
  · simp [h]
  · simp [h]

section React

variable (l : Ledger) (now : Instant) {e : Event} {k : PatchSetKey} {s : Signal}

lemma react_of_open (hk : e.key? = some k) (hs : s.isFinal = false) :
    ∃ ms ns, react l now e s = .ok ⟨l.put (l.recorded now e k s), ms, ns⟩ ∧
      ns.filterMap Notice.completed? = [] := by
  unfold react
  rw [l.record_eq_ok now s hk]
  cases s with
  | triggered job => exact ⟨_, _, rfl, rfl⟩
  | retriggered job others => exact ⟨_, _, rfl, rfl⟩
  | started b =>
    refine ⟨_, _, rfl, ?_⟩
    cases (l.put (l.recorded now e k (.started b))).progress? k <;> rfl
  | completed b => simp [Signal.isFinal] at hs
  | cancelled job => simp [Signal.isFinal] at hs

lemma react_of_final (hk : e.key? = some k) (hs : s.isFinal = true) :
    ∃ ms, react l now e s = .ok (closeIfDone k ⟨l.put (l.recorded now e k s), ms, []⟩) := by
  unfold react
  rw [l.record_eq_ok now s hk]
  cases s with
  | completed b => exact ⟨_, rfl⟩
  | cancelled job => exact ⟨_, rfl⟩
  | triggered job => simp [Signal.isFinal] at hs
  | retriggered job others => simp [Signal.isFinal] at hs
  | started b => simp [Signal.isFinal] at hs

end React

namespace Run

def after (r : Run) (ps : List Report) : Run := ps.foldl Run.step r

/-- The imprints that notices of completion carried, in the order in which they were sent. -/
def completions (r : Run) : List Imprint := r.notices.filterMap Notice.completed?

/-- The imprints of one patch set that notices of completion carried. -/
def completionsOf (r : Run) (k : PatchSetKey) : List Imprint :=
  r.completions.filter fun i => i.key = k

/-- The imprint of a patch set once a report about it is recorded. -/
def recorded (r : Run) (p : Report) (k : PatchSetKey) : Imprint :=
  r.ledger.recorded r.time p.event k p.signal

/-- Whether a report about a patch set leaves nothing outstanding in it. -/
def closes (r : Run) (p : Report) (k : PatchSetKey) : Bool :=
  p.signal.isFinal && (r.recorded p k).allCompleted

@[simp] lemma after_nil (r : Run) : r.after [] = r := rfl

@[simp] lemma after_cons (r : Run) (p : Report) (ps : List Report) :
    r.after (p :: ps) = (r.step p).after ps := rfl

lemma ofHistory_append (ps qs : List Report) : ofHistory (ps ++ qs) = (ofHistory ps).after qs :=
  List.foldl_append

@[simp] lemma recorded_key (r : Run) (p : Report) (k : PatchSetKey) : (r.recorded p k).key = k :=
  Ledger.recorded_key ..

variable (r : Run) {p : Report} {k : PatchSetKey}

lemma step_of_key?_eq_none (hk : p.event.key? = none) :
    r.step p = { r with time := r.time + 1 } := by
  unfold step react
  rw [Ledger.record_eq_error _ _ _ hk]
  rfl

lemma step_of_key? (hk : p.event.key? = some k) :
    (r.step p).ledger =
        (if r.closes p k then (r.ledger.put (r.recorded p k)).forget k
          else r.ledger.put (r.recorded p k)) ∧
      (r.step p).completions =
        r.completions ++ if r.closes p k then [r.recorded p k] else [] := by
  cases hs : p.signal.isFinal with
  | false =>
    obtain ⟨ms, ns, hr, hn⟩ := react_of_open r.ledger r.time hk hs
    simp [step, hr, completions, closes, hs, hn, recorded]
  | true =>
    obtain ⟨ms, hr⟩ := react_of_final r.ledger r.time hk hs
    have hclose := closeIfDone_put r.ledger (r.recorded p k) ms []
    rw [recorded_key] at hclose
    have hr : react r.ledger r.time p.event p.signal = _ := hr.trans (congrArg Except.ok hclose)
    by_cases hd : (r.recorded p k).allCompleted = true
    · simp [step, hr, completions, closes, hs, hd, Notice.completed?]
    · simp [step, hr, completions, closes, hs, hd]

lemma get?_step (hk : p.event.key? = some k) :
    (r.step p).ledger.get? k = if r.closes p k then none else some (r.recorded p k) := by
  rw [(step_of_key? r hk).1]
  by_cases hc : r.closes p k = true
  · rw [if_pos hc, if_pos hc, Ledger.get?_forget, if_pos rfl]
  · rw [if_neg hc, if_neg hc]
    exact r.ledger.get?_put_recorded ..

lemma get?_step_of_ne (hk : p.event.key? ≠ some k) :
    (r.step p).ledger.get? k = r.ledger.get? k := by
  cases hp : p.event.key? with
  | none => rw [step_of_key?_eq_none r hp]
  | some k' =>
    have hne : k ≠ k' := fun h => hk (by rw [hp, h])
    have hput : (r.ledger.put (r.recorded p k')).get? k = r.ledger.get? k := by
      rw [Ledger.get?_put, recorded_key, if_neg (Ne.symm hne)]
    rw [(step_of_key? r hp).1]
    by_cases hc : r.closes p k' = true
    · rw [if_pos hc, Ledger.get?_forget, if_neg hne, hput]
    · rw [if_neg hc, hput]

lemma entries_step (hk : p.event.key? = some k) (hc : r.closes p k = false) :
    (r.step p).ledger.entries k = (r.recorded p k).entries := by
  rw [Ledger.entries, r.get?_step hk, hc]
  rfl

lemma entries_step_of_ne (hk : p.event.key? ≠ some k) :
    (r.step p).ledger.entries k = r.ledger.entries k := by
  rw [Ledger.entries, r.get?_step_of_ne hk, Ledger.entries]

lemma closes_eq_false {e : Entry} (he : e ∈ (r.recorded p k).entries) (hc : e.completed = false) :
    r.closes p k = false := by
  have hd : (r.recorded p k).allCompleted = false := by
    rw [Imprint.allCompleted, List.all_eq_false]
    exact ⟨e, he, by simp [hc]⟩
  rw [closes, hd, Bool.and_false]

lemma completionsOf_step (hk : p.event.key? = some k) :
    (r.step p).completionsOf k =
      r.completionsOf k ++ if r.closes p k then [r.recorded p k] else [] := by
  unfold completionsOf
  rw [(step_of_key? r hk).2, List.filter_append]
  by_cases hc : r.closes p k = true <;> simp [hc]

lemma completionsOf_step_of_ne (hk : p.event.key? ≠ some k) :
    (r.step p).completionsOf k = r.completionsOf k := by
  unfold completionsOf
  cases hp : p.event.key? with
  | none => rw [step_of_key?_eq_none r hp]; rfl
  | some k' =>
    have hne : k' ≠ k := fun h => hk (by rw [hp, h])
    rw [(step_of_key? r hp).2, List.filter_append]
    by_cases hc : r.closes p k' = true <;> simp [hc, hne]

lemma reachable_step (h : r.ledger.Reachable) (p : Report) : (r.step p).ledger.Reachable := by
  cases hk : p.event.key? with
  | none =>
    rw [step_of_key?_eq_none r hk]
    exact h
  | some k =>
    have hs := h.apply (.signal r.time p.event p.signal)
    rw [Ledger.apply_signal _ _ _ hk] at hs
    rw [(step_of_key? r hk).1]
    by_cases hc : r.closes p k = true
    · rw [if_pos hc]
      exact hs.apply (.forget k)
    · rw [if_neg hc]
      exact hs

/-- What a report keeps, a history keeps. -/
lemma after_induction {P : Run → Prop} (hstep : ∀ r p, P r → P (r.step p)) {r : Run} (hr : P r)
    (ps : List Report) : P (r.after ps) := by
  induction ps generalizing r with
  | nil => exact hr
  | cons p ps ih => exact ih (hstep r p hr)

lemma reachable_ofHistory (ps : List Report) : (ofHistory ps).ledger.Reachable :=
  after_induction (P := fun r => r.ledger.Reachable) (fun r p h => reachable_step r h p) .empty ps

end Run

end Tracker

end ReviewStream
