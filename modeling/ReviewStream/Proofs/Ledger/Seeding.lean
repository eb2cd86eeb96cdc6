import Mathlib.Data.List.Basic
import Mathlib.Data.List.Induction
import Mathlib.Logic.Basic
import ReviewStream.Proofs.Ledger.Building

/-!
# Retriggered jobs

A job that is to run again gets an entry on which nothing has happened yet. The other builds of its
patch set are taken over only if the ledger does not know the patch set. Each of their jobs then has
one entry, which holds the last of its builds and is completed as soon as any of them is finished.
-/

namespace ReviewStream

/-- The last build of a job in a list. -/
def lastBuild? (bs : List Build) (job : JobName) : Option Build :=
  (bs.filter fun b => b.job = job).getLast?

/-- The list has a finished build of the job, and yet the last one is running. -/
def RunsAgain (bs : List Build) (job : JobName) : Prop :=
  (∃ b ∈ bs, b.job = job ∧ b.isRunning = false) ∧
    (lastBuild? bs job).any Build.isRunning = true

instance (bs : List Build) (job : JobName) : Decidable (RunsAgain bs job) :=
  inferInstanceAs (Decidable (_ ∧ _))

/-- The entries of an imprint are those of the jobs that have builds in a list. -/
structure Imprint.Tells (i : Imprint) (bs : List Build) : Prop where
  isSome_entryOf? : ∀ job, (i.entryOf? job).isSome = true ↔ ∃ b ∈ bs, b.job = job
  build : ∀ job x, i.entryOf? job = some x → x.build = lastBuild? bs job
  completed : ∀ job x, i.entryOf? job = some x →
    (x.completed = true ↔ ∃ b ∈ bs, b.job = job ∧ b.isRunning = false)

section Builds

variable {bs : List Build} {job : JobName} {b : Build}

lemma lastBuild?_append_self (bs : List Build) (b : Build) :
    lastBuild? (bs ++ [b]) b.job = some b := by
  simp [lastBuild?, List.filter_append]

lemma lastBuild?_append_of_ne (bs : List Build) (h : job ≠ b.job) :
    lastBuild? (bs ++ [b]) job = lastBuild? bs job := by
  simp [lastBuild?, List.filter_append, Ne.symm h]

lemma mem_of_lastBuild? (h : lastBuild? bs job = some b) : b ∈ bs ∧ b.job = job := by
  simpa using List.mem_filter.mp (List.mem_of_getLast? h)

lemma exists_lastBuild? (hb : b ∈ bs) (hj : b.job = job) : ∃ b', lastBuild? bs job = some b' := by
  have hne : (bs.filter fun b => b.job = job) ≠ [] :=
    List.ne_nil_of_mem (List.mem_filter.mpr ⟨hb, by simpa using hj⟩)
  exact ⟨_, List.getLast?_eq_some_getLast hne⟩

lemma isSome_result {x : Entry} :
    x.result.isSome = true ↔ ∃ b, x.build = some b ∧ b.isRunning = false := by
  cases hb : x.build with
  | none => simp [Entry.result, hb]
  | some b => cases hr : b.result <;> simp [Entry.result, Build.isRunning, hb, hr]

/-- For an entry with the last build of its job, which is completed as soon as one of them is
finished, to be completed is to have a result unless the job runs again. -/
lemma completed_iff_result_iff {x : Entry} (hb : x.build = lastBuild? bs x.job)
    (hc : x.completed = true ↔ ∃ b ∈ bs, b.job = x.job ∧ b.isRunning = false) :
    (x.completed = true ↔ x.result.isSome = true) ↔ ¬ RunsAgain bs x.job := by
  rw [isSome_result, hb, hc]
  constructor
  · rintro hiff ⟨hfinished, hrunning⟩
    obtain ⟨b, hlast, hstopped⟩ := hiff.mp hfinished
    rw [hlast, Option.any_some] at hrunning
    exact Bool.false_ne_true (hstopped.symm.trans hrunning)
  · intro hnot
    constructor
    · rintro ⟨b, hmem, hjob, hfinished⟩
      obtain ⟨b', hlast⟩ := exists_lastBuild? hmem hjob
      refine ⟨b', hlast, Bool.eq_false_iff.mpr fun hrunning => hnot ?_⟩
      exact ⟨⟨b, hmem, hjob, hfinished⟩, by rw [hlast]; exact hrunning⟩
    · rintro ⟨b, hlast, hfinished⟩
      obtain ⟨hmem, hjob⟩ := mem_of_lastBuild? hlast
      exact ⟨b, hmem, hjob, hfinished⟩

end Builds

lemma filter_upsertEntry (job : JobName) (change : Entry → Entry) (fresh : Entry)
    (hc : ∀ e, (change e).job = e.job) (hf : fresh.job = job) (es : List Entry) :
    (upsertEntry job change fresh es).filter (fun e => e.job ≠ job) =
      es.filter fun e => e.job ≠ job := by
  induction es with
  | nil => simp [upsertEntry, hf]
  | cons e es ih =>
    rw [upsertEntry]
    by_cases he : e.job = job
    · simp [he, hc]
    · rw [if_neg he, List.filter_cons_of_pos (by simpa using he),
        List.filter_cons_of_pos (by simpa using he), ih]

namespace Signal

lemma touch_started (b : Build) (now : Instant) (o : Option Entry) :
    ((started b).touch now o).build = some b ∧
      ((started b).touch now o).completed = (o.map Entry.completed).getD false := by
  cases o <;> exact ⟨rfl, rfl⟩

lemma touch_completed (b : Build) (now : Instant) (o : Option Entry) :
    ((completed b).touch now o).build = some b ∧
      ((completed b).touch now o).completed = true := by
  cases o with
  | none => exact ⟨rfl, rfl⟩
  | some x => simp [touch, change, Entry.finish_eq]

end Signal

namespace Imprint

variable {i : Imprint} {bs : List Build}

lemma isSome_entryOf?_iff (i : Imprint) (job : JobName) :
    (i.entryOf? job).isSome = true ↔ job ∈ i.entries.map Entry.job := by
  simp [entryOf?]

lemma entryOf?_know_self (i : Imprint) (now : Instant) (b : Build) :
    ∃ x, (i.know now b).entryOf? b.job = some x ∧ x.build = some b ∧
      x.completed = (((i.entryOf? b.job).map Entry.completed).getD false || !b.isRunning) := by
  rw [know_eq_record]
  cases hr : b.isRunning with
  | true =>
    obtain ⟨hbuild, hcompleted⟩ := Signal.touch_started b now (i.entryOf? b.job)
    refine ⟨_, i.entryOf?_record_self now (.started b), hbuild, ?_⟩
    rw [Bool.not_true, Bool.or_false]
    exact hcompleted
  | false =>
    obtain ⟨hbuild, hcompleted⟩ := Signal.touch_completed b now (i.entryOf? b.job)
    refine ⟨_, i.entryOf?_record_self now (.completed b), hbuild, ?_⟩
    rw [Bool.not_false, Bool.or_true]
    exact hcompleted

lemma entryOf?_know_of_ne (i : Imprint) (now : Instant) {b : Build} {job : JobName}
    (h : job ≠ b.job) : (i.know now b).entryOf? job = i.entryOf? job := by
  rw [know_eq_record]
  refine i.entryOf?_record_of_ne now ?_
  split <;> exact h

lemma tells_nil (k : PatchSetKey) (e : Event) : (Imprint.mk k e []).Tells [] where
  isSome_entryOf? := by simp [entryOf?]
  build := by simp [entryOf?]
  completed := by simp [entryOf?]

lemma Tells.know (h : i.Tells bs) (now : Instant) (b : Build) :
    (i.know now b).Tells (bs ++ [b]) := by
  have hsnoc : ∀ P : Build → Prop, (∃ b' ∈ bs ++ [b], P b') ↔ (∃ b' ∈ bs, P b') ∨ P b := by
    simp [or_and_right, exists_or]
  obtain ⟨y, hy, hbuild, hcompleted⟩ := i.entryOf?_know_self now b
  refine ⟨fun job => ?_, fun job x hx => ?_, fun job x hx => ?_⟩
  · rw [hsnoc]
    by_cases hj : job = b.job
    · simp [hj, hy]
    · rw [entryOf?_know_of_ne i now hj, h.isSome_entryOf?]
      simp [Ne.symm hj]
  · by_cases hj : job = b.job
    · rw [hj] at hx ⊢
      rw [hy] at hx
      rw [← Option.some.inj hx, hbuild, lastBuild?_append_self]
    · rw [entryOf?_know_of_ne i now hj] at hx
      rw [h.build job x hx, lastBuild?_append_of_ne bs hj]
  · rw [hsnoc]
    by_cases hj : job = b.job
    · rw [hj] at hx ⊢
      rw [hy] at hx
      have hbefore : ((i.entryOf? b.job).map Entry.completed).getD false = true ↔
          ∃ b' ∈ bs, b'.job = b.job ∧ b'.isRunning = false := by
        cases hi : i.entryOf? b.job with
        | some z => exact h.completed b.job z hi
        | none =>
          have hnone := (h.isSome_entryOf? b.job).not.mp (by simp [hi])
          simpa using fun b' hb' hjob => absurd ⟨b', hb', hjob⟩ hnone
      rw [← Option.some.inj hx, hcompleted, Bool.or_eq_true, hbefore]
      simp
    · rw [entryOf?_know_of_ne i now hj] at hx
      rw [h.completed job x hx]
      simp [Ne.symm hj]

lemma tells_seed (k : PatchSetKey) (e : Event) (now : Instant) (job : JobName)
    (others : List Build) :
    ((Imprint.mk k e []).seed now (.retriggered job others)).Tells others := by
  induction others using List.reverseRecOn with
  | nil => exact tells_nil k e
  | append_singleton others b ih =>
    have hseed : (Imprint.mk k e []).seed now (.retriggered job (others ++ [b])) =
        ((Imprint.mk k e []).seed now (.retriggered job others)).know now b :=
      List.foldl_concat _ _ _ _
    rw [hseed]
    exact ih.know now b

section Reset

variable (i : Imprint) (job : JobName) (now : Instant)

lemma entryOf?_reset_self :
    ∃ x, (i.reset job now).entryOf? job = some x ∧
      x.build = none ∧ x.completed = false ∧ x.cancelled = false := by
  refine ⟨_, i.entryOf?_record_self now (.retriggered job []), ?_⟩
  cases i.entryOf? (Signal.retriggered job []).job <;> exact ⟨rfl, rfl, rfl⟩

lemma entryOf?_reset_of_ne {other : JobName} (h : other ≠ job) :
    (i.reset job now).entryOf? other = i.entryOf? other :=
  i.entryOf?_record_of_ne now (s := .retriggered job []) h

lemma filter_entries_reset :
    (i.reset job now).entries.filter (fun x => x.job ≠ job) =
      i.entries.filter fun x => x.job ≠ job :=
  filter_upsertEntry job Entry.reset (.triggered job now) (fun _ => rfl) rfl i.entries

lemma mem_jobs_reset (other : JobName) :
    other ∈ (i.reset job now).entries.map Entry.job ↔
      other = job ∨ (i.entryOf? other).isSome = true := by
  rw [← isSome_entryOf?_iff]
  by_cases h : other = job
  · obtain ⟨x, hx, -⟩ := i.entryOf?_reset_self job now
    simp [h, hx]
  · rw [i.entryOf?_reset_of_ne job now h]
    simp [h]

lemma allCompleted_reset : (i.reset job now).allCompleted = false := by
  obtain ⟨x, hx, -, hopen, -⟩ := i.entryOf?_reset_self job now
  rw [allCompleted, List.all_eq_false]
  exact ⟨x, mem_entries_of_entryOf? hx, by simp [hopen]⟩

end Reset

end Imprint

namespace Ledger

variable {l : Ledger} {e : Event} {k : PatchSetKey}

lemma recorded_retriggered (l : Ledger) (now : Instant) (e : Event) (k : PatchSetKey)
    (job : JobName) (others : List Build) :
    l.recorded now e k (.retriggered job others) =
      (l.opened now e k (.retriggered job others)).reset job now :=
  rfl

lemma Reachable.nodup_recorded (h : Reachable l) (now : Instant) (hk : e.key? = some k)
    (s : Signal) : ((l.recorded now e k s).entries.map Entry.job).Nodup := by
  have hreach := h.apply (.signal now e s)
  rw [l.apply_signal now s hk] at hreach
  exact hreach.nodup_jobs _ (mem_of_get? (l.get?_put_recorded now e k s))

/-- Retriggering leaves the job with one entry, on which nothing has happened. Where the patch set
is known, the other entries stay and the other builds count for nothing. Where it is not, each job
among the other builds has one entry with the last of its builds, which is completed exactly when
the result of that build is known, unless the job has a finished build and runs again. -/
theorem Reachable.retriggered_entries (h : Reachable l) (now : Instant) (hk : e.key? = some k)
    (job : JobName) (others : List Build) :
    ∃ (l' : Ledger) (i : Imprint), l.record now e (.retriggered job others) = .ok (k, l') ∧
      l'.get? k = some i ∧ (i.entries.map Entry.job).Nodup ∧
      (∀ i₀, l.get? k = some i₀ →
        (∀ others', l.record now e (.retriggered job others') = .ok (k, l')) ∧
        i.entries.filter (fun x => x.job ≠ job) = i₀.entries.filter fun x => x.job ≠ job) ∧
      (l.get? k = none →
        (∀ j, j ∈ i.entries.map Entry.job ↔ j = job ∨ ∃ b ∈ others, b.job = j) ∧
        ∀ x ∈ i.entries, x.job ≠ job →
          x.build = lastBuild? others x.job ∧
          (x.completed = true ↔ ∃ b ∈ others, b.job = x.job ∧ b.isRunning = false) ∧
          ((x.completed = true ↔ x.result.isSome = true) ↔ ¬ RunsAgain others x.job)) ∧
      (∃ x ∈ i.entries, x.job = job) ∧
      (∀ x ∈ i.entries, x.job = job →
        x.build = none ∧ x.completed = false ∧ x.cancelled = false) ∧
      i.allCompleted = false := by
  let s : Signal := .retriggered job others
  have hn := h.nodup_recorded now hk s
  rw [recorded_retriggered] at hn
  obtain ⟨y, hy, hfresh⟩ := (l.opened now e k s).entryOf?_reset_self job now
  refine ⟨_, _, l.record_eq_ok now s hk, l.get?_put_recorded now e k s, hn, fun i₀ hi₀ => ?_,
    fun hnone => ?_, ⟨y, Imprint.mem_entries_of_entryOf? hy, Imprint.job_of_entryOf? hy⟩,
    fun x hx hj => ?_, Imprint.allCompleted_reset _ job now⟩
  · have hsame : ∀ others', l.recorded now e k (.retriggered job others') = i₀.reset job now := by
      intro others'
      rw [recorded_retriggered, opened_of_get? hi₀]
    refine ⟨fun others' => ?_, ?_⟩
    · rw [l.record_eq_ok now _ hk, hsame others', hsame others]
    · rw [hsame others]
      exact i₀.filter_entries_reset job now
  · have htells := Imprint.tells_seed k e now job others
    rw [← opened_of_get?_none hnone] at htells
    rw [recorded_retriggered]
    refine ⟨fun j => ?_, fun x hx hne => ?_⟩
    · rw [Imprint.mem_jobs_reset, htells.isSome_entryOf?]
    · have hx := Imprint.entryOf?_of_mem hn hx
      rw [Imprint.entryOf?_reset_of_ne _ job now hne] at hx
      have hbuild := htells.build x.job x hx
      have hcompleted := htells.completed x.job x hx
      exact ⟨hbuild, hcompleted, completed_iff_result_iff hbuild hcompleted⟩
  · have hx := Imprint.entryOf?_of_mem hn hx
    rw [hj, hy] at hx
    exact Option.some.inj hx ▸ hfresh

/-- Two builds of "docs" and two of "lint" are taken over, and one of "verify" itself. Only "lint"
runs again. -/
theorem retriggered_entries_of_repeated_jobs :
    let k : PatchSetKey := ⟨4, 2⟩
    let e := Event.bare k
    let l := ({} : Ledger).apply (.signal 0 (Event.bare ⟨4, 1⟩) (.triggered "verify"))
    let others : List Build := [⟨"docs", 2, none⟩, ⟨"lint", 3, some .success⟩,
      ⟨"verify", 8, some .failure⟩, ⟨"docs", 2, some .unstable⟩, ⟨"lint", 5, none⟩]
    Reachable l ∧ e.key? = some k ∧ l.get? k = none ∧
      ∃ (l' : Ledger) (i : Imprint), l.record 1 e (.retriggered "verify" others) = .ok (k, l') ∧
        l'.get? k = some i ∧
        (∀ j, j ∈ i.entries.map Entry.job ↔ j = "verify" ∨ ∃ b ∈ others, b.job = j) ∧
        (∀ x ∈ i.entries, x.job = "docs" → (x.completed = true ↔ x.result.isSome = true)) ∧
        (∀ x ∈ i.entries, x.job = "lint" → ¬ (x.completed = true ↔ x.result.isSome = true)) ∧
        i.allCompleted = false := by
  intro k e l others
  have hl : Reachable l := .apply _ .empty
  have hnone : l.get? k = none := by decide
  obtain ⟨l', i, hrecord, hget, -, -, hunknown, -, -, hopen⟩ :=
    hl.retriggered_entries 1 (Event.key?_bare k) "verify" others
  obtain ⟨hjobs, hentries⟩ := hunknown hnone
  refine ⟨hl, rfl, hnone, l', i, hrecord, hget, hjobs, fun x hx hj => ?_, fun x hx hj => ?_, hopen⟩
  · have hiff := (hentries x hx (by rw [hj]; decide)).2.2
    rw [hj] at hiff
    exact hiff.mpr (by decide)
  · have hiff := (hentries x hx (by rw [hj]; decide)).2.2
    rw [hj] at hiff
    exact hiff.not.mpr (by decide)

/-- An entry that is taken over is completed although the result of its build is not known. -/
theorem retriggered_completes_running_build :
    let k : PatchSetKey := ⟨1, 1⟩
    let others : List Build := [⟨"lint", 3, some .success⟩, ⟨"lint", 5, none⟩]
    ∃ l', ({} : Ledger).record 0 (Event.bare k) (.retriggered "verify" others) = .ok (k, l') ∧
      ∃ x, l'.entryOf? k "lint" = some x ∧ x.completed = true ∧ x.build = some ⟨"lint", 5, none⟩ ∧
        x.result = none :=
  ⟨_, rfl, _, rfl, by decide⟩

end Ledger

end ReviewStream
