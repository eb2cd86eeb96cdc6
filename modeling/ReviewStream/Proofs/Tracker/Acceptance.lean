import ReviewStream.Proofs.Gate.Verdict
import ReviewStream.Proofs.Tracker.Step

/-!
# Jobs that were accepted

A job that is reported triggered, retriggered or started is under way from then on, until it is
reported done. The one exception is a job whose entry is done already while the rest of its patch
set is not: only a retriggering report opens such an entry again.
-/

namespace ReviewStream

namespace Ledger

/-- The job has an entry under the patch set that is done. -/
def Finished (l : Ledger) (k : PatchSetKey) (job : JobName) : Prop :=
  ∃ e, l.entryOf? k job = some e ∧ e.completed = true

/-- The job has an entry under the patch set of which nothing is done. -/
def Open (l : Ledger) (k : PatchSetKey) (job : JobName) : Prop :=
  ∃ e, l.entryOf? k job = some e ∧ e.completed = false ∧ e.cancelled = false

/-- The job is under way: it counts as incomplete, the patch set cannot be taken out, and the gate
objects to every item of the patch set whose job depends on it. -/
structure Holds (l : Ledger) (k : PatchSetKey) (job : JobName) : Prop where
  incomplete : l.isIncomplete job k = true
  not_taken : l.takeCompleted k = none
  blocks : ∀ (v : Gate.View) (item : Gate.QueueItem) (now : Nat), v.isIncomplete = l.isIncomplete →
    item.cause = some k → item.buildable = false → job ∈ v.directory.dependencies item.job →
    v.blockage? item now ≠ none

lemma Open.holds {l : Ledger} {k : PatchSetKey} {job : JobName} (h : l.Open k job) :
    l.Holds k job := by
  obtain ⟨e, he, hcomp, hcanc⟩ := h
  have hinc : l.isIncomplete job k = true := by
    rw [isIncomplete_eq, he]
    simp [Entry.isBuilding, hcomp, hcanc]
  refine ⟨hinc, ?_, ?_⟩
  · obtain ⟨i, hi, hje⟩ := Option.bind_eq_some_iff.mp he
    have hd : i.allCompleted = false := by
      rw [Imprint.allCompleted, List.all_eq_false]
      exact ⟨e, Imprint.mem_entries_of_entryOf? hje, by simp [hcomp]⟩
    rw [takeCompleted_eq, hi]
    simp [hd]
  · intro v item now hv hcause hbuildable hdep
    exact Gate.View.blockage?_ne_none now hcause hbuildable hdep (by rw [hv]; exact hinc)

end Ledger

namespace Tracker

namespace Run

variable {r : Run} {p : Report} {k : PatchSetKey}

lemma entryOf?_step_of_open {job : JobName} {e : Entry} (hk : p.event.key? = some k)
    (he : (r.recorded p k).entryOf? job = some e) (hc : e.completed = false) :
    (r.step p).ledger.entryOf? k job = some e := by
  have hcl := r.closes_eq_false (Imprint.mem_entries_of_entryOf? he) hc
  rw [Ledger.entryOf?, r.get?_step hk, hcl]
  exact he

lemma open_step_of_not_names {job : JobName} (h : r.ledger.Open k job)
    (hp : ¬ p.Names k job) : (r.step p).ledger.Open k job := by
  obtain ⟨e, he, hcomp, hcanc⟩ := h
  by_cases hk : p.event.key? = some k
  · have hj : job ≠ p.signal.job := fun hj => hp ⟨hk, hj.symm⟩
    obtain ⟨i, hi, hje⟩ := Option.bind_eq_some_iff.mp he
    have hr : (r.recorded p k).entryOf? job = some e := by
      rw [recorded, Ledger.recorded, Imprint.entryOf?_record_of_ne _ _ hj, Ledger.opened_of_get? hi]
      exact hje
    exact ⟨e, entryOf?_step_of_open hk hr hcomp, hcomp, hcanc⟩
  · have hg : (r.step p).ledger.entryOf? k job = r.ledger.entryOf? k job := by
      rw [Ledger.entryOf?, r.get?_step_of_ne hk, Ledger.entryOf?]
    exact ⟨e, hg.trans he, hcomp, hcanc⟩

lemma open_after {job : JobName} (h : r.ledger.Open k job) {ps : List Report}
    (hps : ∀ q ∈ ps, ¬ q.Names k job) : (r.after ps).ledger.Open k job := by
  induction ps generalizing r with
  | nil => exact h
  | cons q ps ih =>
    exact ih (open_step_of_not_names h (hps q (by simp))) fun x hx => hps x (by simp [hx])

/-- A report that ends nothing opens the entry of its job, unless that is done already and stays so
because the report does not retrigger the job. -/
lemma open_step (hr : r.ledger.Reachable) (hk : p.event.key? = some k)
    (hs : p.signal.isFinal = false)
    (hf : (∃ job others, p.signal = .retriggered job others) ∨
      ¬ r.ledger.Finished k p.signal.job) :
    (r.step p).ledger.Open k p.signal.job := by
  have hrec := Imprint.entryOf?_record_self (r.ledger.opened r.time p.event k p.signal) r.time
    p.signal
  have hopen : (p.signal.touch r.time
      ((r.ledger.opened r.time p.event k p.signal).entryOf? p.signal.job)).completed = false := by
    -- other builds that are taken over may finish the job first, but retriggering comes after them
    by_cases hretr : ∃ job others, p.signal = .retriggered job others
    · obtain ⟨job, others, hp⟩ := hretr
      rw [hp]
      exact Signal.touch_retriggered_completed ..
    · apply Signal.touch_open hs
      intro e he
      rw [Ledger.opened_entryOf? _ _ _ _ fun job others h => hretr ⟨job, others, h⟩] at he
      exact Bool.eq_false_iff.mpr fun hc => (hf.resolve_left hretr) ⟨e, he, hc⟩
  have hstep := entryOf?_step_of_open hk hrec hopen
  obtain ⟨i, hi, hje⟩ := Option.bind_eq_some_iff.mp hstep
  have hdone := (reachable_step r hr p).completed_of_cancelled i (Ledger.mem_of_get? hi) _
    (Imprint.mem_entries_of_entryOf? hje)
  exact ⟨_, hstep, hopen, Bool.eq_false_iff.mpr fun hc => by simp [hdone hc] at hopen⟩

lemma triggered_step_of_finished {job : JobName} (hr : r.ledger.Reachable)
    (hk : p.event.key? = some k) (hs : p.signal = .triggered job)
    (hf : r.ledger.Finished k job) :
    (r.step p).ledger.entryOf? k job = r.ledger.entryOf? k job ∧
      (r.step p).ledger.isIncomplete job k = false := by
  obtain ⟨e, he, hc⟩ := hf
  obtain ⟨i, hi, hje⟩ := Option.bind_eq_some_iff.mp he
  have hrec : (r.recorded p k).entryOf? job = some e := by
    have hself := Imprint.entryOf?_record_self i r.time (.triggered job)
    rw [recorded, hs, Ledger.recorded, Ledger.opened_of_get? hi]
    exact hself.trans (by rw [Signal.job, hje]; rfl)
  have hcl : r.closes p k = false := by rw [closes, hs]; rfl
  have hstep : (r.step p).ledger.entryOf? k job = some e := by
    rw [Ledger.entryOf?, r.get?_step hk, hcl]
    exact hrec
  have hbuild := hr.build_or_cancelled_of_completed i (Ledger.mem_of_get? hi) e
    (Imprint.mem_entries_of_entryOf? hje) hc
  have hinc : (r.step p).ledger.isIncomplete job k = false := by
    rw [Ledger.isIncomplete_eq, hstep]
    cases hb : e.build with
    | some b => simp [Entry.isBuilding, hb, hc]
    | none => simpa [Entry.isBuilding, hb] using hbuild
  exact ⟨hstep.trans he.symm, hinc⟩

end Run

/-- The latest report about a job decides: if it retriggers the job, or triggers or starts it while
the ledger holds no finished entry of it, the job is under way. Triggering a job whose entry is
finished leaves that entry as it is. -/
theorem holds_of_latest_report (pre post : List Report) (p : Report) (k : PatchSetKey)
    (job : JobName) (hp : p.Names k job) (hpost : ∀ q ∈ post, ¬ q.Names k job) :
    ((∃ others, p.signal = .retriggered job others) ∨
        (p.signal = .triggered job ∨ ∃ b, p.signal = .started b) ∧
          ¬ (Run.ofHistory pre).ledger.Finished k job →
      (Run.ofHistory (pre ++ p :: post)).ledger.Holds k job) ∧
    (p.signal = .triggered job → (Run.ofHistory pre).ledger.Finished k job →
      (Run.ofHistory (pre ++ [p])).ledger.entryOf? k job =
          (Run.ofHistory pre).ledger.entryOf? k job ∧
        (Run.ofHistory (pre ++ [p])).ledger.isIncomplete job k = false) := by
  obtain ⟨hk, rfl⟩ := hp
  have hr := Run.reachable_ofHistory pre
  constructor
  · intro h
    rw [Run.ofHistory_append, Run.after_cons]
    apply Ledger.Open.holds
    apply Run.open_after _ hpost
    rcases h with ⟨others, h⟩ | ⟨h | ⟨b, h⟩, hf⟩
    · exact Run.open_step hr hk (by rw [h]; rfl) (.inl ⟨_, others, h⟩)
    · exact Run.open_step hr hk (by rw [h]; rfl) (.inr hf)
    · exact Run.open_step hr hk (by rw [h]; rfl) (.inr hf)
  · intro h hf
    rw [Run.ofHistory_append, Run.after_cons, Run.after_nil]
    exact Run.triggered_step_of_finished hr hk h hf

theorem holds_of_latest_report_beside_finished_job :
    let k : PatchSetKey := ⟨100, 2⟩
    let e := Event.bare k
    let pre : List Report := [⟨e, .triggered "verify"⟩, ⟨e, .triggered "lint"⟩,
      ⟨e, .completed ⟨"verify", 9, some .failure⟩⟩]
    let post : List Report := [⟨e, .completed ⟨"lint", 4, some .success⟩⟩]
    (Run.ofHistory (pre ++ ⟨e, .retriggered "verify" []⟩ :: post)).ledger.Holds k "verify" ∧
      (Run.ofHistory (pre ++ ⟨e, .started ⟨"docs", 1, none⟩⟩ :: post)).ledger.Holds k "docs" ∧
      (Run.ofHistory (pre ++ [⟨e, .triggered "verify"⟩])).ledger.isIncomplete "verify" k =
        false := by
  intro k e pre post
  have hdocs : ¬ (Run.ofHistory pre).ledger.Finished k "docs" := by
    rintro ⟨x, hx, -⟩
    have hnone : (Run.ofHistory pre).ledger.entryOf? k "docs" = none := by decide
    rw [hnone] at hx
    cases hx
  have hverify : (Run.ofHistory pre).ledger.Finished k "verify" :=
    ⟨_, rfl, by decide⟩
  refine ⟨?_, ?_, ?_⟩
  · exact (holds_of_latest_report pre post _ k "verify" ⟨rfl, rfl⟩ (by decide)).1 (.inl ⟨[], rfl⟩)
  · exact (holds_of_latest_report pre post _ k "docs" ⟨rfl, rfl⟩ (by decide)).1
      (.inr ⟨.inr ⟨_, rfl⟩, hdocs⟩)
  · exact ((holds_of_latest_report pre [] ⟨e, .triggered "verify"⟩ k "verify" ⟨rfl, rfl⟩
      (by decide)).2 rfl hverify).2

/-- Builds are reported completed only once they are finished, and never started after that. -/
structure Orderly (ps : List Report) : Prop where
  finished : ∀ p ∈ ps, ∀ b, p.signal = .completed b → b.isRunning = false
  started_first : ps.Pairwise fun p q => ∀ b b', p.signal = .completed b →
    q.signal = .started b' → ¬ (b.job = b'.job ∧ b.number = b'.number)

/-- Being the latest report about its job is not enough for a report to open it again: a job that
is done and is then triggered stays done, while the patch set waits for another job. -/
theorem latest_trigger_does_not_reopen :
    ¬ ∀ (pre post : List Report) (p : Report) (k : PatchSetKey) (job : JobName),
      Orderly (pre ++ p :: post) → p.Names k job → p.signal.isFinal = false →
      (∀ q ∈ post, ¬ q.Names k job) →
      (Run.ofHistory (pre ++ p :: post)).ledger.isIncomplete job k = true := by
  intro h
  let k : PatchSetKey := ⟨1, 1⟩
  let e := Event.bare k
  let pre : List Report := [⟨e, .triggered "verify"⟩, ⟨e, .triggered "lint"⟩,
    ⟨e, .completed ⟨"verify", 1, some .success⟩⟩]
  let p : Report := ⟨e, .triggered "verify"⟩
  have horderly : Orderly (pre ++ [p]) := by
    constructor
    · intro q hq b hb
      simp only [pre, p, List.cons_append, List.nil_append, List.mem_cons, List.not_mem_nil,
        or_false] at hq
      rcases hq with rfl | rfl | rfl | rfl
      · cases hb
      · cases hb
      · cases hb
        rfl
      · cases hb
    · simp [pre, p]
  have hinc := h pre [] p k "verify" horderly ⟨rfl, rfl⟩ rfl (by simp)
  exact absurd hinc (by decide)

end Tracker

end ReviewStream
