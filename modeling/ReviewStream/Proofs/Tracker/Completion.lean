import Mathlib.Data.Finset.Insert
import ReviewStream.Proofs.Tracker.Step

/-!
# Completion of a patch set

Jobs are triggered for a patch set that the ledger does not know yet, and then each of them is
reported done, in any order and mixed with reports about other patch sets. The last of these reports
leads to the one notice of completion, which carries how every job ended.
-/

namespace ReviewStream

namespace Tracker

/-- What a history says about a job under a patch set. -/
def signalsOf (k : PatchSetKey) (job : JobName) (ps : List Report) : List Signal :=
  (ps.filter fun p => p.Names k job).map Report.signal

/-- The last reports about a triggered job, and the finished build it ends with unless it is
cancelled. -/
inductive Ends (job : JobName) : List Signal → Option Build → Prop where
  | completed {b : Build} : b.isRunning = false → Ends job [.completed b] (some b)
  | started (a : Build) {b : Build} : b.isRunning = false →
      Ends job [.started a, .completed b] (some b)
  | cancelled : Ends job [.cancelled job] none

/-- Jobs are triggered for a patch set, once or more often, and then reported done. -/
structure Round (k : PatchSetKey) (jobs : Finset JobName) (ending : JobName → Option Build)
    (opening closing : List Report) : Prop where
  nonempty : jobs.Nonempty
  triggers : ∀ p ∈ opening, p.event.key? = some k →
    p.signal = .triggered p.signal.job ∧ p.signal.job ∈ jobs
  triggered : ∀ job ∈ jobs, ∃ p ∈ opening, p.Names k job
  closes : ∀ p ∈ closing, p.event.key? = some k → p.signal.job ∈ jobs
  ends : ∀ job ∈ jobs, Ends job (signalsOf k job closing) (ending job)

/-- What is still to be reported about the job of an entry takes it to its end. -/
def Awaits (e : Entry) (ending : Option Build) : List Signal → Prop
  | [] => e.completed = true ∧ e.build = ending ∧ e.cancelled = ending.isNone
  | s :: rest => e.completed = false ∧ e.cancelled = false ∧ (ending = none → e.build = none) ∧
      Ends e.job (s :: rest) ending

/-- Under a patch set there is one entry for each of the jobs, and what is still to be reported
takes them all to their ends. -/
structure Underway (k : PatchSetKey) (seated : JobName → Prop) (ending : JobName → Option Build)
    (es : List Entry) (rest : List Report) : Prop where
  nodup : (es.map Entry.job).Nodup
  mem_iff : ∀ job, job ∈ es.map Entry.job ↔ seated job
  awaits : ∀ e ∈ es, Awaits e (ending e.job) (signalsOf k e.job rest)

section Signals

variable {k : PatchSetKey} {job : JobName} {p : Report} {ps : List Report}

lemma signalsOf_cons_of_names (h : p.Names k job) :
    signalsOf k job (p :: ps) = p.signal :: signalsOf k job ps := by
  rw [signalsOf, List.filter_cons_of_pos (by simpa using h)]
  rfl

lemma signalsOf_cons_of_not_names (h : ¬ p.Names k job) :
    signalsOf k job (p :: ps) = signalsOf k job ps := by
  rw [signalsOf, List.filter_cons_of_neg (by simpa using h)]
  rfl

lemma signalsOf_ne_nil (hp : p ∈ ps) (h : p.Names k job) : signalsOf k job ps ≠ [] := by
  rw [signalsOf, Ne, List.map_eq_nil_iff]
  exact List.ne_nil_of_mem (List.mem_filter.mpr ⟨hp, by simpa using h⟩)

lemma signalsOf_eq_nil (h : ∀ q ∈ ps, q.event.key? ≠ some k) : signalsOf k job ps = [] := by
  rw [signalsOf, List.map_eq_nil_iff, List.filter_eq_nil_iff]
  intro q hq
  simpa using fun hn : q.Names k job => h q hq hn.1

lemma Ends.isFinal {s : Signal} {ending : Option Build} (h : Ends job [s] ending) :
    s.isFinal = true := by
  cases h <;> rfl

lemma Ends.not_retriggered {s : Signal} {ss : List Signal} {ending : Option Build}
    (h : Ends job (s :: ss) ending) : ∀ job others, s ≠ .retriggered job others := by
  intro j others hs
  cases h <;> cases hs

lemma Ends.ne_nil {ss : List Signal} {ending : Option Build} (h : Ends job ss ending) :
    ss ≠ [] := by
  cases h <;> simp

lemma awaits_of_ends {e : Entry} {ss : List Signal} {ending : Option Build}
    (h : Ends e.job ss ending) (hc : e.completed = false) (hx : e.cancelled = false)
    (hb : e.build = none) : Awaits e ending ss := by
  cases ss with
  | nil => exact absurd rfl h.ne_nil
  | cons s ss => exact ⟨hc, hx, fun _ => hb, h⟩

lemma Awaits.change {e : Entry} {ending : Option Build} {s : Signal} {ss : List Signal}
    (h : Awaits e ending (s :: ss)) (now : Instant) : Awaits (s.change now e) ending ss := by
  obtain ⟨hc, hx, hb, hends⟩ := h
  cases hends with
  | completed hf => simp [Awaits, Signal.change, Entry.finish_eq, hx]
  | started a hf => exact ⟨hc, hx, by simp, .completed hf⟩
  | cancelled => exact ⟨rfl, hb rfl, rfl⟩

end Signals

namespace Underway

variable {k : PatchSetKey} {seated : JobName → Prop} {ending : JobName → Option Build}
  {es : List Entry} {p : Report} {rest : List Report}

lemma of_other (h : Underway k seated ending es (p :: rest)) (hk : p.event.key? ≠ some k) :
    Underway k seated ending es rest := by
  refine ⟨h.nodup, h.mem_iff, fun e he => ?_⟩
  have ha := h.awaits e he
  rwa [signalsOf_cons_of_not_names fun hn => hk hn.1] at ha

lemma exists_entry (h : Underway k seated ending es (p :: rest)) (hk : p.event.key? = some k)
    (hs : seated p.signal.job) : ∃ e ∈ es, e.job = p.signal.job ∧
      Awaits e (ending e.job) (p.signal :: signalsOf k e.job rest) := by
  obtain ⟨e, he, hj⟩ := List.mem_map.mp ((h.mem_iff _).mpr hs)
  have ha := h.awaits e he
  rw [signalsOf_cons_of_names ⟨hk, hj.symm⟩] at ha
  exact ⟨e, he, hj, ha⟩

lemma upsert (h : Underway k seated ending es (p :: rest)) (hk : p.event.key? = some k)
    (hs : seated p.signal.job) (now : Instant) :
    Underway k seated ending
      (upsertEntry p.signal.job (p.signal.change now) (p.signal.fresh now) es) rest := by
  have hm : p.signal.job ∈ es.map Entry.job := (h.mem_iff _).mpr hs
  have hjobs := map_job_upsertEntry p.signal.job (p.signal.change now) (p.signal.fresh now)
    (p.signal.change_job now) (p.signal.fresh_job now) es
  rw [if_pos hm] at hjobs
  refine ⟨by rw [hjobs]; exact h.nodup, by rw [hjobs]; exact h.mem_iff, fun e he => ?_⟩
  rcases mem_upsertEntry_of_nodup _ _ _ h.nodup he with ⟨he, hne⟩ | ⟨x, hx, hj, rfl⟩ | ⟨-, hf⟩
  · have ha := h.awaits e he
    rwa [signalsOf_cons_of_not_names fun hn => hne hn.2.symm] at ha
  · have ha := h.awaits x hx
    rw [signalsOf_cons_of_names ⟨hk, hj.symm⟩] at ha
    rw [Signal.change_job]
    exact ha.change now
  · exact absurd hm hf

lemma trigger (h : Underway k seated ending es rest) {job : JobName}
    (hends : Ends job (signalsOf k job rest) (ending job)) (now : Instant) :
    Underway k (fun j => seated j ∨ j = job) ending
      (upsertEntry job ((Signal.triggered job).change now) ((Signal.triggered job).fresh now) es)
      rest := by
  have hjobs := map_job_upsertEntry job ((Signal.triggered job).change now)
    ((Signal.triggered job).fresh now) (fun _ => rfl) rfl es
  have hnodup := nodup_upsertEntry job ((Signal.triggered job).change now)
    ((Signal.triggered job).fresh now) (fun _ => rfl) rfl h.nodup
  refine ⟨hnodup, fun j => ?_, fun e he => ?_⟩
  · rw [hjobs, ← h.mem_iff]
    by_cases hm : job ∈ es.map Entry.job
    · rw [if_pos hm]
      exact ⟨.inl, fun hj => hj.elim id fun hj => hj ▸ hm⟩
    · rw [if_neg hm, List.mem_append, List.mem_singleton]
  · rcases mem_upsertEntry _ _ _ he with rfl | he | ⟨x, hx, -, hex⟩
    · exact awaits_of_ends hends rfl rfl rfl
    · exact h.awaits e he
    · rw [hex]
      exact h.awaits x hx

lemma congr {seated' : JobName → Prop} (h : Underway k seated ending es rest)
    (hiff : ∀ job, seated job ↔ seated' job) : Underway k seated' ending es rest :=
  ⟨h.nodup, fun job => (h.mem_iff job).trans (hiff job), h.awaits⟩

lemma completed (h : Underway k seated ending es rest) (hr : ∀ q ∈ rest, q.event.key? ≠ some k) :
    ∀ e ∈ es, e.completed = true ∧ e.build = ending e.job ∧
      e.cancelled = (ending e.job).isNone := by
  intro e he
  have ha := h.awaits e he
  rwa [signalsOf_eq_nil hr] at ha

lemma exists_open (h : Underway k seated ending es rest) {q : Report} (hq : q ∈ rest)
    (hk : q.event.key? = some k) (hs : seated q.signal.job) : ∃ e ∈ es, e.completed = false := by
  obtain ⟨e, he, hj⟩ := List.mem_map.mp ((h.mem_iff _).mpr hs)
  have ha := h.awaits e he
  cases hss : signalsOf k e.job rest with
  | nil => exact absurd hss (signalsOf_ne_nil hq ⟨hk, hj.symm⟩)
  | cons s ss =>
    rw [hss] at ha
    exact ⟨e, he, ha.1⟩

end Underway

namespace Run

/-- As long as reports about the patch set are to come no notice of completion is sent for it, and
with the last of them one is, which carries the imprint `i` and leaves nothing in the ledger. -/
def CompletesOnce (r : Run) (k : PatchSetKey) (i : Imprint) (ps : List Report) : Prop :=
  ∀ before after, ps = before ++ after →
    ((∃ q ∈ after, q.event.key? = some k) →
      (r.after before).completionsOf k = r.completionsOf k) ∧
    ((∀ q ∈ after, q.event.key? ≠ some k) →
      (r.after before).completionsOf k = r.completionsOf k ++ [i] ∧
        (r.after before).ledger.get? k = none)

section

variable {r : Run} {k : PatchSetKey} {i : Imprint} {p : Report} {ps : List Report}

lemma after_of_others (h : ∀ q ∈ ps, q.event.key? ≠ some k) :
    (r.after ps).completionsOf k = r.completionsOf k ∧
      (r.after ps).ledger.get? k = r.ledger.get? k := by
  induction ps generalizing r with
  | nil => exact ⟨rfl, rfl⟩
  | cons q ps ih =>
    have hq := h q (by simp)
    obtain ⟨hc, hg⟩ := ih (r := r.step q) fun x hx => h x (by simp [hx])
    exact ⟨hc.trans (r.completionsOf_step_of_ne hq), hg.trans (r.get?_step_of_ne hq)⟩

lemma completesOnce_cons (hps : ∃ q ∈ p :: ps, q.event.key? = some k)
    (hc : (r.step p).completionsOf k = r.completionsOf k)
    (h : (r.step p).CompletesOnce k i ps) : r.CompletesOnce k i (p :: ps) := by
  intro before after hsplit
  cases before with
  | nil =>
    rw [List.nil_append] at hsplit
    subst hsplit
    obtain ⟨q, hq, hk⟩ := hps
    exact ⟨fun _ => rfl, fun hn => absurd hk (hn q hq)⟩
  | cons b before =>
    obtain ⟨rfl, hrest⟩ := List.cons.inj hsplit
    have ha := h before after hrest
    rw [hc] at ha
    exact ha

lemma completesOnce_last (hk : p.event.key? = some k) (hps : ∀ q ∈ ps, q.event.key? ≠ some k)
    (hc : r.closes p k = true) : r.CompletesOnce k (r.recorded p k) (p :: ps) := by
  intro before after hsplit
  cases before with
  | nil =>
    rw [List.nil_append] at hsplit
    subst hsplit
    exact ⟨fun _ => rfl, fun hn => absurd hk (hn p (by simp))⟩
  | cons b before =>
    obtain ⟨rfl, rfl⟩ := List.cons.inj hsplit
    obtain ⟨hcomp, hget⟩ := after_of_others (r := r.step p)
      fun q hq => hps q (List.mem_append_left after hq)
    refine ⟨fun ⟨q, hq, hqk⟩ => absurd hqk (hps q (List.mem_append_right before hq)), fun _ => ?_⟩
    rw [after_cons, hcomp, hget, r.completionsOf_step hk, r.get?_step hk, hc]
    exact ⟨rfl, rfl⟩

end

end Run

section Rounds

variable {k : PatchSetKey} {seated : JobName → Prop} {ending : JobName → Option Build}

/-- Triggering reports only add jobs, whatever other patch sets are reported about in between. -/
lemma underway_after_opening {closing opening : List Report} {r : Run}
    (h : Underway k seated ending (r.ledger.entries k) closing)
    (htriggers : ∀ p ∈ opening, p.event.key? = some k → p.signal = .triggered p.signal.job ∧
      Ends p.signal.job (signalsOf k p.signal.job closing) (ending p.signal.job)) :
    Underway k (fun job => seated job ∨ ∃ p ∈ opening, p.Names k job) ending
      ((r.after opening).ledger.entries k) closing ∧
    ∀ i, (∃ q ∈ closing, q.event.key? = some k) → (r.after opening).CompletesOnce k i closing →
      r.CompletesOnce k i (opening ++ closing) := by
  induction opening generalizing r seated with
  | nil => exact ⟨by simpa using h, fun _ _ hi => hi⟩
  | cons p opening ih =>
    have hrest : ∀ q ∈ opening, q.event.key? = some k → q.signal = .triggered q.signal.job ∧
        Ends q.signal.job (signalsOf k q.signal.job closing) (ending q.signal.job) :=
      fun q hq => htriggers q (by simp [hq])
    by_cases hk : p.event.key? = some k
    · obtain ⟨hs, hends⟩ := htriggers p (by simp) hk
      have hc : r.closes p k = false := by rw [Run.closes, hs]; rfl
      have hstep := h.trigger hends r.time
      have hentries : (r.step p).ledger.entries k =
          upsertEntry p.signal.job ((Signal.triggered p.signal.job).change r.time)
            ((Signal.triggered p.signal.job).fresh r.time) (r.ledger.entries k) := by
        rw [r.entries_step hk hc, Run.recorded, Ledger.recorded_entries _ _ _ _ (by rw [hs]; simp)]
        rw [hs]
        rfl
      rw [← hentries] at hstep
      obtain ⟨hu, hco⟩ := ih hstep hrest
      refine ⟨hu.congr fun job => ?_, fun i hq hi => ?_⟩
      · rw [List.exists_mem_cons_iff, or_assoc, Report.Names]
        simp [hk, eq_comm]
      · apply Run.completesOnce_cons ⟨p, by simp, hk⟩ _ (hco i hq hi)
        rw [r.completionsOf_step hk, hc]
        simp
    · rw [← r.entries_step_of_ne hk] at h
      obtain ⟨hu, hco⟩ := ih h hrest
      refine ⟨hu.congr fun job => ?_, fun i hq hi => ?_⟩
      · rw [List.exists_mem_cons_iff, Report.Names]
        simp [hk]
      · obtain ⟨q, hq, hqk⟩ := hq
        exact Run.completesOnce_cons ⟨q, by simp [hq], hqk⟩ (r.completionsOf_step_of_ne hk)
          (hco i ⟨q, hq, hqk⟩ hi)

lemma completesOnce_of_underway {closing : List Report} {r : Run}
    (h : Underway k seated ending (r.ledger.entries k) closing)
    (hclosing : ∃ q ∈ closing, q.event.key? = some k)
    (hseated : ∀ p ∈ closing, p.event.key? = some k → seated p.signal.job) :
    ∃ i, i.key = k ∧ Underway k seated ending i.entries [] ∧ r.CompletesOnce k i closing := by
  induction closing generalizing r with
  | nil => simp at hclosing
  | cons p closing ih =>
    have hseated' : ∀ q ∈ closing, q.event.key? = some k → seated q.signal.job :=
      fun q hq => hseated q (by simp [hq])
    by_cases hk : p.event.key? = some k
    · have hsp := hseated p (by simp) hk
      obtain ⟨e, -, -, ha⟩ := h.exists_entry hk hsp
      have hstep : Underway k seated ending (r.recorded p k).entries closing := by
        rw [Run.recorded, Ledger.recorded_entries _ _ _ _ ha.2.2.2.not_retriggered]
        exact h.upsert hk hsp r.time
      -- a job that is still to be reported keeps the patch set open; without one all jobs are done
      by_cases hlater : ∃ q ∈ closing, q.event.key? = some k
      · obtain ⟨q, hq, hqk⟩ := hlater
        obtain ⟨x, hx, hxc⟩ := hstep.exists_open hq hqk (hseated' q hq hqk)
        have hc := r.closes_eq_false hx hxc
        rw [← r.entries_step hk hc] at hstep
        obtain ⟨i, hi, hu, hco⟩ := ih hstep ⟨q, hq, hqk⟩ hseated'
        refine ⟨i, hi, hu, Run.completesOnce_cons hclosing ?_ hco⟩
        rw [r.completionsOf_step hk, hc]
        simp
      · have hnone : ∀ q ∈ closing, q.event.key? ≠ some k := fun q hq hqk => hlater ⟨q, hq, hqk⟩
        have hdone := hstep.completed hnone
        have hall : (r.recorded p k).allCompleted = true :=
          List.all_eq_true.mpr fun x hx => (hdone x hx).1
        rw [signalsOf_eq_nil hnone] at ha
        have hc : r.closes p k = true := by rw [Run.closes, ha.2.2.2.isFinal, hall]; rfl
        exact ⟨r.recorded p k, r.recorded_key p k, ⟨hstep.nodup, hstep.mem_iff, hdone⟩,
          Run.completesOnce_last hk hnone hc⟩
    · have hlater : ∃ q ∈ closing, q.event.key? = some k := by
        obtain ⟨q, hq, hqk⟩ := hclosing
        rcases List.mem_cons.mp hq with rfl | hq
        · exact absurd hqk hk
        · exact ⟨q, hq, hqk⟩
      have hstep := h.of_other hk
      rw [← r.entries_step_of_ne hk] at hstep
      obtain ⟨i, hi, hu, hc⟩ := ih hstep hlater hseated'
      exact ⟨i, hi, hu, Run.completesOnce_cons hclosing (r.completionsOf_step_of_ne hk) hc⟩

end Rounds

/-- A round of reports about a patch set that the ledger does not know leads to exactly one notice
of completion, sent with the last of them. Its imprint has one entry for each job, which tells the
build the job ended with, or that it was cancelled. -/
theorem round_completes_once (r : Run) (k : PatchSetKey) (hr : r.ledger.get? k = none)
    {jobs : Finset JobName} {ending : JobName → Option Build} {opening closing : List Report}
    (h : Round k jobs ending opening closing) :
    ∃ i : Imprint, i.key = k ∧
      (i.entries.map Entry.job).Nodup ∧
      (∀ job, job ∈ i.entries.map Entry.job ↔ job ∈ jobs) ∧
      (∀ e ∈ i.entries, e.completed = true ∧ e.build = ending e.job ∧
        e.result = (ending e.job).bind Build.result ∧ e.cancelled = (ending e.job).isNone) ∧
      r.CompletesOnce k i (opening ++ closing) := by
  have hnone : Underway k (fun _ => False) ending (r.ledger.entries k) closing := by
    have hentries : r.ledger.entries k = [] := by rw [Ledger.entries, hr]; rfl
    rw [hentries]
    exact ⟨by simp, by simp, by simp⟩
  have hclosing : ∃ q ∈ closing, q.event.key? = some k := by
    obtain ⟨job, hjob⟩ := h.nonempty
    by_contra hq
    refine (h.ends job hjob).ne_nil (signalsOf_eq_nil fun q hmem hk => hq ⟨q, hmem, hk⟩)
  have htriggers : ∀ p ∈ opening, p.event.key? = some k → p.signal = .triggered p.signal.job ∧
      Ends p.signal.job (signalsOf k p.signal.job closing) (ending p.signal.job) :=
    fun p hp hk => ⟨(h.triggers p hp hk).1, h.ends _ (h.triggers p hp hk).2⟩
  obtain ⟨hopen, hlater⟩ := underway_after_opening hnone htriggers
  have hjobs : ∀ job, (False ∨ ∃ p ∈ opening, p.Names k job) ↔ job ∈ jobs := by
    intro job
    constructor
    · rintro (hf | ⟨p, hp, hk, rfl⟩)
      · exact hf.elim
      · exact (h.triggers p hp hk).2
    · exact fun hjob => .inr (h.triggered job hjob)
  obtain ⟨i, hkey, hu, hco⟩ := completesOnce_of_underway (hopen.congr hjobs) hclosing h.closes
  refine ⟨i, hkey, hu.nodup, hu.mem_iff, fun e he => ?_, hlater i hclosing hco⟩
  obtain ⟨hc, hb, hx⟩ := hu.completed (by simp) e he
  exact ⟨hc, hb, by rw [Entry.result, hb], hx⟩

theorem round_of_two_jobs_completes_once :
    let k : PatchSetKey := ⟨100, 2⟩
    let e := Event.bare k
    let other := Event.bare ⟨100, 1⟩
    let opening : List Report := [⟨e, .triggered "verify"⟩, ⟨e, .triggered "lint"⟩,
      ⟨other, .started ⟨"verify", 8, none⟩⟩, ⟨e, .triggered "verify"⟩]
    let closing : List Report := [⟨e, .started ⟨"verify", 9, none⟩⟩, ⟨e, .cancelled "lint"⟩,
      ⟨other, .completed ⟨"verify", 8, some .failure⟩⟩,
      ⟨e, .completed ⟨"verify", 9, some .success⟩⟩]
    let ending : JobName → Option Build := fun job =>
      if job = "verify" then some ⟨"verify", 9, some .success⟩ else none
    ({} : Run).ledger.get? k = none ∧ Round k {"verify", "lint"} ending opening closing ∧
      ∃ i : Imprint, i.key = k ∧
        (i.entries.map Entry.job).Nodup ∧
        (∀ job, job ∈ i.entries.map Entry.job ↔ job ∈ ({"verify", "lint"} : Finset JobName)) ∧
        (∀ e ∈ i.entries, e.completed = true ∧ e.build = ending e.job ∧
          e.result = (ending e.job).bind Build.result ∧ e.cancelled = (ending e.job).isNone) ∧
        ({} : Run).CompletesOnce k i (opening ++ closing) := by
  intro k e other opening closing ending
  have hround : Round k {"verify", "lint"} ending opening closing := by
    refine ⟨⟨"verify", by simp⟩, by decide, by decide, by decide, ?_⟩
    intro job hjob
    rcases Finset.mem_insert.mp hjob with rfl | hjob
    · exact .started ⟨"verify", 9, none⟩ rfl
    · rw [Finset.mem_singleton.mp hjob]
      exact .cancelled
  exact ⟨rfl, hround, round_completes_once {} k rfl hround⟩

end Tracker

end ReviewStream
