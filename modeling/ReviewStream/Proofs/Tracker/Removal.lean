import Mathlib.Data.List.Induction
import ReviewStream.Proofs.Ledger.Residents
import ReviewStream.Proofs.Tracker.Conservation

/-!
# Removed jobs

Between two reports a job may be removed from all patch sets. Nobody looks then whether a patch set
still waits for something: one that waited for nothing but the removed job stays in the ledger,
until a later report ends it.
-/

namespace ReviewStream

namespace Tracker

/-- What the ledger meets with: a report, or the removal of a job. -/
inductive Incident where
  | report (p : Report)
  | removeJob (job : JobName)

namespace Run

def meet (r : Run) : Incident → Run
  | .report p => r.step p
  | .removeJob job => { r with ledger := r.ledger.removeJob job }

/-- The run of a whole history of reports and removals. -/
def ofIncidents (xs : List Incident) : Run := xs.foldl meet {}

lemma ofIncidents_append_singleton (xs : List Incident) (x : Incident) :
    ofIncidents (xs ++ [x]) = (ofIncidents xs).meet x := by
  simp [ofIncidents]

variable {r : Run} {p : Report} {k : PatchSetKey}

lemma outstandingAt_step (h : r.OutstandingAt k) (p : Report) : (r.step p).OutstandingAt k := by
  intro i hi
  by_cases hk : p.event.key? = some k
  · rw [r.get?_step hk] at hi
    cases hc : r.closes p k with
    | true => simp [hc] at hi
    | false =>
      rw [hc] at hi
      obtain rfl := Option.some.inj hi
      exact recorded_outstanding h hc
  · rw [r.get?_step_of_ne hk] at hi
    exact h i hi

lemma outstandingAt_step_of_isFinal (r : Run) (hk : p.event.key? = some k)
    (hs : p.signal.isFinal = true) : (r.step p).OutstandingAt k := by
  intro i hi
  rw [r.get?_step hk, closes, hs, Bool.true_and] at hi
  cases hc : (r.recorded p k).allCompleted with
  | true => simp [hc] at hi
  | false =>
    rw [hc] at hi
    obtain rfl := Option.some.inj hi
    obtain ⟨e, he, hopen⟩ := List.all_eq_false.mp hc
    exact ⟨e, he, by simpa using hopen⟩

lemma outstandingAt_removeJob_iff (r : Run) (job : JobName) (k : PatchSetKey) :
    (r.meet (.removeJob job)).OutstandingAt k ↔
      ∀ i, r.ledger.get? k = some i → ∃ e ∈ i.entries, e.job ≠ job ∧ e.completed = false := by
  have hget : (r.meet (.removeJob job)).ledger.get? k = (r.ledger.get? k).map (·.removeJob job) :=
    r.ledger.get?_removeJob job k
  constructor
  · intro h i hi
    obtain ⟨e, he, hopen⟩ := h (i.removeJob job) (by rw [hget, hi]; rfl)
    obtain ⟨he, hne⟩ := List.mem_filter.mp he
    exact ⟨e, he, by simpa using hne, hopen⟩
  · intro h i hi
    rw [hget] at hi
    obtain ⟨x, hx, rfl⟩ := Option.map_eq_some_iff.mp hi
    obtain ⟨e, he, hne, hopen⟩ := h x hx
    exact ⟨e, List.mem_filter.mpr ⟨he, by simpa using hne⟩, hopen⟩

end Run

/-- Throughout a history of reports and removals the imprint of a patch set waits for something if
and only if no job is removed that is the only one it waits for. In any case it does so after a
report that one of its jobs is done. -/
theorem outstanding_throughout_iff (xs : List Incident) (k : PatchSetKey) :
    ((∀ before after, xs = before ++ after → (Run.ofIncidents before).OutstandingAt k) ↔
      ∀ before job after, xs = before ++ .removeJob job :: after →
        ∀ i, (Run.ofIncidents before).ledger.get? k = some i →
          ∃ e ∈ i.entries, e.job ≠ job ∧ e.completed = false) ∧
    ∀ before p after, xs = before ++ .report p :: after → p.event.key? = some k →
      p.signal.isFinal = true → (Run.ofIncidents (before ++ [.report p])).OutstandingAt k := by
  refine ⟨⟨fun h before job after hsplit => ?_, fun h before => ?_⟩,
    fun before p after _ hk hs => ?_⟩
  · have hnext := h (before ++ [.removeJob job]) after (by simp [hsplit])
    rw [Run.ofIncidents_append_singleton, Run.outstandingAt_removeJob_iff] at hnext
    exact hnext
  · induction before using List.reverseRecOn with
    | nil => exact fun _ _ _ hi => by cases hi
    | append_singleton before x ih =>
      intro after hsplit
      rw [List.append_assoc, List.singleton_append] at hsplit
      rw [Run.ofIncidents_append_singleton]
      cases x with
      | report p => exact Run.outstandingAt_step (ih _ hsplit) p
      | removeJob job =>
        exact (Run.outstandingAt_removeJob_iff _ job k).mpr (h before job after hsplit)
  · rw [Run.ofIncidents_append_singleton]
    exact Run.outstandingAt_step_of_isFinal _ hk hs

/-- What is left behind when a job is removed goes with the next report that a job is done. -/
theorem outstanding_again_after_next_end :
    let k : PatchSetKey := ⟨7, 3⟩
    let e := Event.bare k
    let before : List Incident := [.report ⟨e, .triggered "verify"⟩, .report ⟨e, .triggered "lint"⟩,
      .report ⟨e, .cancelled "lint"⟩]
    let last : Report := ⟨e, .completed ⟨"lint", 2, some .unstable⟩⟩
    let removed := before ++ [.removeJob "verify"]
    let xs := removed ++ [.report last]
    e.key? = some k ∧ last.signal.isFinal = true ∧
      ¬ (∀ front back, xs = front ++ back → (Run.ofIncidents front).OutstandingAt k) ∧
      (Run.ofIncidents xs).OutstandingAt k := by
  intro k e before last removed xs
  obtain ⟨hiff, hlast⟩ := outstanding_throughout_iff xs k
  have hget : (Run.ofIncidents before).ledger.get? k = some ⟨k, e,
      [{ job := "verify", triggeredAt := 0 },
       { job := "lint", completed := true, cancelled := true, triggeredAt := 1
         completedAt := some 2 }]⟩ := by decide
  refine ⟨rfl, rfl, fun h => ?_, hlast removed last [] rfl rfl rfl⟩
  exact absurd (hiff.mp h before "verify" [.report last] (by simp [xs, removed]) _ hget) (by decide)

/-- A patch set in which one job is done and the other one is removed is left behind. -/
theorem removed_job_leaves_imprint_behind :
    let k : PatchSetKey := ⟨1, 1⟩
    let e := Event.bare k
    let xs : List Incident := [.report ⟨e, .triggered "verify"⟩, .report ⟨e, .triggered "lint"⟩,
      .report ⟨e, .completed ⟨"lint", 1, some .success⟩⟩, .removeJob "verify"]
    (Run.ofIncidents xs).ledger.isTracked k = true ∧ ¬ (Run.ofIncidents xs).OutstandingAt k ∧
      (Run.ofIncidents xs).completions = [] := by
  intro k e xs
  have hget : (Run.ofIncidents xs).ledger.get? k = some ⟨k, e,
      [{ job := "lint", build := some ⟨"lint", 1, some .success⟩, completed := true
         triggeredAt := 1, startedAt := some 2, completedAt := some 2 }]⟩ := by decide
  refine ⟨by decide, fun h => ?_, by decide⟩
  obtain ⟨x, hx, hopen⟩ := h _ hget
  obtain rfl := List.mem_singleton.mp hx
  cases hopen

end Tracker

end ReviewStream
