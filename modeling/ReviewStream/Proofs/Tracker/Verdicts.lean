import ReviewStream.Proofs.Tracker.Conservation

/-!
# Verdicts on completed patch sets

Verdicts on the outcome of a patch set quantify differently: that all builds were successful counts
every job, that none was built leaves cancelled jobs out. They agree with each other as far as no
job has a build although it was cancelled.
-/

namespace ReviewStream

/-- While the entry is open its build is running. -/
def Entry.RunsWhileOpen (e : Entry) : Prop :=
  e.completed = false → ∀ b, e.build = some b → b.isRunning = true

lemma Entry.completedWith_iff {e : Entry} {r : BuildResult} :
    e.completedWith r = true ↔ e.completed = true ∧ e.result = some r := by
  simp [completedWith]

lemma Entry.eq_of_completedWith {e : Entry} {r r' : BuildResult} (h : e.completedWith r = true)
    (h' : e.completedWith r' = true) : r = r' := by
  have hr := (completedWith_iff.mp h).2
  rw [(completedWith_iff.mp h').2] at hr
  exact (Option.some.inj hr).symm

/-- A job that is done without a cancelled entry or a finished build before does not come out both
cancelled and successful. -/
lemma Signal.touch_of_isFinal {s : Signal} (hs : s.isFinal = true) (now : Instant)
    {o : Option Entry}
    (ho : ∀ x, o = some x → x.completed = false ∧ x.cancelled = false ∧ x.RunsWhileOpen) :
    ¬ ((s.touch now o).cancelled = true ∧ (s.touch now o).result = some .success) := by
  rintro ⟨hcancelled, hresult⟩
  cases s with
  | completed b =>
    cases o with
    | none => cases hcancelled
    | some x =>
      have hkeep : ((completed b).touch now (some x)).cancelled = x.cancelled := by
        simp [touch, change, Entry.finish_eq]
      rw [hkeep, (ho x rfl).2.1] at hcancelled
      cases hcancelled
  | cancelled job =>
    cases o with
    | none => cases hresult
    | some x =>
      obtain ⟨hopen, -, hrun⟩ := ho x rfl
      obtain ⟨b, hb, hsuccess⟩ := Option.bind_eq_some_iff.mp hresult
      have hrunning := hrun hopen b hb
      rw [Build.isRunning, hsuccess] at hrunning
      cases hrunning
  | _ => cases hs

namespace Imprint

variable {i : Imprint} {e : Entry} {r : BuildResult}

/-- A cancelled job has a build all the same, and it ended in `r`. -/
def CancelledWith (i : Imprint) (r : BuildResult) : Prop :=
  ∃ e ∈ i.entries, e.cancelled = true ∧ e.completedWith r = true

instance (i : Imprint) (r : BuildResult) : Decidable (i.CancelledWith r) :=
  inferInstanceAs (Decidable (∃ e ∈ i.entries, _))

lemma completedWith_success (h : i.allSuccessful = true) (he : e ∈ i.entries) :
    e.completedWith .success = true :=
  List.all_eq_true.mp h e he

lemma completedWith_notBuilt (h : i.allNotBuilt = true) (he : e ∈ i.entries)
    (hc : e.cancelled = false) : e.completedWith .notBuilt = true :=
  List.all_eq_true.mp h e (List.mem_filter.mpr ⟨he, by simp [hc]⟩)

lemma any_eq_false_of_allSuccessful (h : i.allSuccessful = true) (hr : r ≠ .success) :
    i.entries.any (·.completedWith r) = false :=
  List.any_eq_false.mpr fun _ he hc =>
    hr (Entry.eq_of_completedWith hc (completedWith_success h he))

lemma any_iff_of_allNotBuilt (h : i.allNotBuilt = true) (hr : r ≠ .notBuilt) :
    i.entries.any (·.completedWith r) = true ↔ i.CancelledWith r := by
  rw [List.any_eq_true]
  constructor
  · rintro ⟨e, he, hc⟩
    cases hx : e.cancelled with
    | true => exact ⟨e, he, hx, hc⟩
    | false => exact absurd (Entry.eq_of_completedWith hc (completedWith_notBuilt h he hx)) hr
  · rintro ⟨e, he, -, hc⟩
    exact ⟨e, he, hc⟩

lemma cancelled_of_both (hs : i.allSuccessful = true) (hn : i.allNotBuilt = true)
    (he : e ∈ i.entries) : e.cancelled = true := by
  cases hx : e.cancelled with
  | true => rfl
  | false =>
    have heq := Entry.eq_of_completedWith (completedWith_success hs he)
      (completedWith_notBuilt hn he hx)
    cases heq

lemma verdicts_of_open (he : e ∈ i.entries) (hopen : e.completed = false)
    (hcancelled : e.cancelled = true → e.completed = true) :
    i.allSuccessful = false ∧ i.allNotBuilt = false := by
  have hnot : ∀ r, e.completedWith r = false := by simp [Entry.completedWith, hopen]
  have hx : e.cancelled = false := Bool.eq_false_iff.mpr fun hx => by simp [hcancelled hx] at hopen
  refine ⟨Bool.eq_false_iff.mpr fun h => ?_, Bool.eq_false_iff.mpr fun h => ?_⟩
  · exact Bool.false_ne_true ((hnot _).symm.trans (completedWith_success h he))
  · exact Bool.false_ne_true ((hnot _).symm.trans (completedWith_notBuilt h he hx))

lemma runsWhileOpen_record (h : ∀ e ∈ i.entries, e.RunsWhileOpen) (now : Instant) {s : Signal}
    (hs : ∀ b, s = .started b → b.isRunning = true) :
    ∀ e ∈ (i.record false now s).entries, e.RunsWhileOpen := by
  intro e he
  rw [record_false] at he
  rcases mem_upsertEntry _ _ _ he with rfl | he | ⟨x, hx, -, rfl⟩
  · cases s with
    | started b =>
      rintro - _ ⟨⟩
      exact hs b rfl
    | completed b => exact nofun
    | cancelled job => exact nofun
    | _ => exact fun _ _ => nofun
  · exact h e he
  · cases s with
    | triggered job => exact h x hx
    | retriggered job others => exact fun _ _ => nofun
    | started b =>
      rintro - _ ⟨⟩
      exact hs b rfl
    | completed b => exact nofun
    | cancelled job => exact nofun

lemma runsWhileOpen_seed (h : ∀ e ∈ i.entries, e.RunsWhileOpen) (now : Instant) (s : Signal) :
    ∀ e ∈ (i.seed now s).entries, e.RunsWhileOpen := by
  refine seed_induction (P := fun i => ∀ e ∈ i.entries, e.RunsWhileOpen) (fun i b hi => ?_) s h
  rw [know_eq_record]
  refine runsWhileOpen_record hi now fun b' hb' => ?_
  cases hr : b.isRunning <;> simp_all

end Imprint

namespace Tracker

/-- A build that is reported started is running. -/
def Report.StartsRunning (p : Report) : Prop := ∀ b, p.signal = .started b → b.isRunning = true

namespace Run

variable {r : Run} {p : Report} {k : PatchSetKey} {i : Imprint}

lemma mem_imprints_step (hi : i ∈ (r.step p).ledger.imprints) :
    i ∈ r.ledger.imprints ∨ ∃ k, p.event.key? = some k ∧ i = r.recorded p k := by
  cases hk : p.event.key? with
  | none =>
    rw [step_of_key?_eq_none r hk] at hi
    exact .inl hi
  | some k =>
    rw [(step_of_key? r hk).1] at hi
    have hput : i ∈ (r.ledger.put (r.recorded p k)).imprints := by
      split at hi
      · exact (List.mem_filter.mp hi).1
      · exact hi
    rcases Ledger.mem_imprints_put hput with rfl | hi
    · exact .inr ⟨k, rfl, rfl⟩
    · exact .inl hi

lemma mem_completions_step (hi : i ∈ (r.step p).completions) :
    i ∈ r.completions ∨
      ∃ k, p.event.key? = some k ∧ r.closes p k = true ∧ i = r.recorded p k := by
  cases hk : p.event.key? with
  | none =>
    rw [step_of_key?_eq_none r hk] at hi
    exact .inl hi
  | some k =>
    rw [(step_of_key? r hk).2, List.mem_append] at hi
    refine hi.imp_right fun hi => ?_
    cases hc : r.closes p k with
    | false => simp [hc] at hi
    | true => exact ⟨k, rfl, hc, by simpa [hc] using hi⟩

/-- What is kept of verdicts throughout a history in which only running builds are started. -/
structure Consistent (r : Run) : Prop where
  reachable : r.ledger.Reachable
  outstanding : r.Outstanding
  runsWhileOpen : ∀ i ∈ r.ledger.imprints, ∀ e ∈ i.entries, e.RunsWhileOpen
  completions : ∀ i ∈ r.completions, ¬ (i.allSuccessful = true ∧ i.allNotBuilt = true)

lemma runsWhileOpen_recorded (h : ∀ i ∈ r.ledger.imprints, ∀ e ∈ i.entries, e.RunsWhileOpen)
    (hp : p.StartsRunning) (k : PatchSetKey) : ∀ e ∈ (r.recorded p k).entries, e.RunsWhileOpen := by
  refine Imprint.runsWhileOpen_record ?_ r.time hp
  cases hi : r.ledger.get? k with
  | some i =>
    rw [Ledger.opened_of_get? hi]
    exact h i (Ledger.mem_of_get? hi)
  | none =>
    rw [Ledger.opened_of_get?_none hi]
    exact Imprint.runsWhileOpen_seed (by simp) _ _

/-- The report that closes a patch set is about the entry that was open last, or about a job without
one. -/
lemma Consistent.not_both (h : r.Consistent) (hc : r.closes p k = true) :
    ¬ ((r.recorded p k).allSuccessful = true ∧ (r.recorded p k).allNotBuilt = true) := by
  rintro ⟨hs, hn⟩
  have hfinal : p.signal.isFinal = true := (Bool.and_eq_true_iff.mp hc).1
  have hplain : ∀ job others, p.signal ≠ .retriggered job others := by
    rintro job others heq
    rw [heq] at hfinal
    cases hfinal
  have hentries : (r.recorded p k).entries = upsertEntry p.signal.job (p.signal.change r.time)
      (p.signal.fresh r.time) (r.ledger.entries k) :=
    Ledger.recorded_entries r.ledger r.time p.event k hplain
  have hboth : ∀ e ∈ (r.recorded p k).entries, e.cancelled = true ∧ e.result = some .success :=
    fun e he => ⟨Imprint.cancelled_of_both hs hn he,
      (Entry.completedWith_iff.mp (Imprint.completedWith_success hs he)).2⟩
  cases hi : r.ledger.get? k with
  | none =>
    have hfresh : p.signal.touch r.time none ∈ (r.recorded p k).entries := by
      rw [hentries, Ledger.entries, hi]
      exact List.mem_singleton.mpr rfl
    exact Signal.touch_of_isFinal hfinal r.time (by simp) (hboth _ hfresh)
  | some i =>
    have hmem := Ledger.mem_of_get? hi
    obtain ⟨e, he, hopen⟩ := h.outstanding i hmem
    have hlater := mem_upsertEntry_of_mem p.signal.job (p.signal.change r.time)
      (p.signal.fresh r.time) he
    rw [Ledger.entries, hi, Option.map_some, Option.getD_some] at hentries
    rw [← hentries] at hlater
    rcases hlater with hlater | hlater
    · exact Bool.false_ne_true (hopen.symm.trans ((complete_of_closes hc).2 e hlater))
    · have hcancelled : e.cancelled = false :=
        Bool.eq_false_iff.mpr fun hx => by
          simp [h.reachable.completed_of_cancelled i hmem e he hx] at hopen
      refine Signal.touch_of_isFinal hfinal r.time (o := some e) ?_ (hboth _ hlater)
      rintro _ ⟨⟩
      exact ⟨hopen, hcancelled, h.runsWhileOpen i hmem e he⟩

lemma Consistent.step (h : r.Consistent) (hp : p.StartsRunning) : (r.step p).Consistent where
  reachable := reachable_step r h.reachable p
  outstanding := outstanding_step h.outstanding p
  runsWhileOpen := by
    intro i hi
    rcases mem_imprints_step hi with hi | ⟨k, -, rfl⟩
    · exact h.runsWhileOpen i hi
    · exact runsWhileOpen_recorded h.runsWhileOpen hp k
  completions := by
    intro i hi
    rcases mem_completions_step hi with hi | ⟨k, -, hc, rfl⟩
    · exact h.completions i hi
    · exact h.not_both hc

lemma consistent_ofHistory {ps : List Report} (hps : ∀ p ∈ ps, p.StartsRunning) :
    (ofHistory ps).Consistent := by
  suffices hafter : ∀ r : Run, r.Consistent → (r.after ps).Consistent from
    hafter {} ⟨.empty, by simp [Outstanding], by simp, by simp [completions]⟩
  induction ps with
  | nil => exact fun r h => h
  | cons p ps ih =>
    intro r h
    exact ih (fun q hq => hps q (by simp [hq])) _ (h.step (hps p (by simp)))

lemma outstanding_ofHistory (ps : List Report) : (ofHistory ps).Outstanding :=
  after_induction (P := Outstanding) (fun _ p h => outstanding_step h p) (by simp [Outstanding]) ps

lemma completions_ne_nil (ps : List Report) : ∀ i ∈ (ofHistory ps).completions, i.entries ≠ [] := by
  apply after_induction (P := fun r => ∀ i ∈ r.completions, i.entries ≠ [])
  · intro r p h i hi
    rcases mem_completions_step hi with hi | ⟨k, -, hc, rfl⟩
    · exact h i hi
    · exact (complete_of_closes hc).1
  · simp [completions]

end Run

/-- Of an imprint that is kept or was sent, all builds being successful excludes failed and unstable
ones. None being built goes together with a failed or an unstable build only if that is the build of
a cancelled job, and with all being successful only if some build was finished when it was reported
started. As long as the imprint is kept neither of the two holds. -/
theorem verdicts_of_run (ps : List Report) {i : Imprint}
    (hi : i ∈ (Run.ofHistory ps).ledger.imprints ∨ i ∈ (Run.ofHistory ps).completions) :
    i.entries ≠ [] ∧
    (i ∈ (Run.ofHistory ps).ledger.imprints → i.allSuccessful = false ∧ i.allNotBuilt = false) ∧
    (i.allSuccessful = true → i.anyFailed = false ∧ i.anyUnstable = false) ∧
    (i.allNotBuilt = true →
      (i.anyFailed = true ↔ i.CancelledWith .failure) ∧
      (i.anyUnstable = true ↔ i.CancelledWith .unstable)) ∧
    ((∀ p ∈ ps, p.StartsRunning) → ¬ (i.allSuccessful = true ∧ i.allNotBuilt = true)) := by
  have hresident : ∀ i ∈ (Run.ofHistory ps).ledger.imprints, i.entries ≠ [] ∧
      i.allSuccessful = false ∧ i.allNotBuilt = false := by
    intro i hi
    obtain ⟨e, he, hopen⟩ := Run.outstanding_ofHistory ps i hi
    have hcancelled := (Run.reachable_ofHistory ps).completed_of_cancelled i hi e he
    exact ⟨List.ne_nil_of_mem he, Imprint.verdicts_of_open he hopen hcancelled⟩
  refine ⟨?_, fun hi => (hresident i hi).2, fun hs => ?_, fun hn => ?_, fun hps hboth => ?_⟩
  · exact hi.elim (fun hi => (hresident i hi).1) (Run.completions_ne_nil ps i)
  · exact ⟨Imprint.any_eq_false_of_allSuccessful hs (by decide),
      Imprint.any_eq_false_of_allSuccessful hs (by decide)⟩
  · exact ⟨Imprint.any_iff_of_allNotBuilt hn (by decide),
      Imprint.any_iff_of_allNotBuilt hn (by decide)⟩
  · rcases hi with hi | hi
    · exact Bool.false_ne_true ((hresident i hi).2.1.symm.trans hboth.1)
    · exact (Run.consistent_ofHistory hps).completions i hi hboth

-- A build that is finished when it is reported started stays successful when the job is cancelled.
example :
    let e := Event.bare ⟨6, 1⟩
    let ps : List Report := [⟨e, .triggered "verify"⟩,
      ⟨e, .started ⟨"verify", 3, some .success⟩⟩, ⟨e, .cancelled "verify"⟩]
    (Run.ofHistory ps).completions.map (fun i => (i.allSuccessful, i.allNotBuilt)) =
      [(true, true)] := by
  decide

/-- A job is cancelled and its build turns out unstable all the same, while the other job is not
built. -/
theorem verdicts_of_run_with_cancelled_job :
    let e := Event.bare ⟨6, 1⟩
    let ps : List Report := [⟨e, .triggered "verify"⟩, ⟨e, .triggered "lint"⟩,
      ⟨e, .cancelled "verify"⟩, ⟨e, .started ⟨"verify", 3, none⟩⟩,
      ⟨e, .completed ⟨"verify", 3, some .unstable⟩⟩, ⟨e, .completed ⟨"lint", 8, some .notBuilt⟩⟩]
    let i : Imprint := ⟨⟨6, 1⟩, e,
      [{ job := "verify", build := some ⟨"verify", 3, some .unstable⟩, completed := true
         cancelled := true, triggeredAt := 0, startedAt := some 3, completedAt := some 4 },
       { job := "lint", build := some ⟨"lint", 8, some .notBuilt⟩, completed := true
         triggeredAt := 1, startedAt := some 5, completedAt := some 5 }]⟩
    i ∈ (Run.ofHistory ps).completions ∧ i.allNotBuilt = true ∧ i.anyFailed = false ∧
      i.anyUnstable = true ∧ i.allSuccessful = false := by
  intro e ps i
  have hi : i ∈ (Run.ofHistory ps).completions := by decide
  have hn : i.allNotBuilt = true := by decide
  obtain ⟨-, -, -, hverdicts, hboth⟩ := verdicts_of_run ps (.inr hi)
  obtain ⟨hfailed, hunstable⟩ := hverdicts hn
  have hrunning : ∀ p ∈ ps, p.StartsRunning := by
    simp [ps, Report.StartsRunning, Build.isRunning]
  have hnone : ¬ i.CancelledWith .failure := by decide
  exact ⟨hi, hn, Bool.eq_false_iff.mpr fun hf => hnone (hfailed.mp hf), hunstable.mpr (by decide),
    Bool.eq_false_iff.mpr fun hs => hboth hrunning ⟨hs, hn⟩⟩

/-- Where a cancelled job fails all the same, a patch set has a failed build and counts as one in
which nothing was built. -/
theorem not_built_beside_failed :
    ¬ ∀ (ps : List Report) (i : Imprint),
      (∀ p ∈ ps, ∀ b, p.signal = .completed b → b.isRunning = false) →
      i ∈ (Run.ofHistory ps).ledger.imprints ∨ i ∈ (Run.ofHistory ps).completions →
      i.entries ≠ [] →
      (i.allSuccessful = true →
        i.anyFailed = false ∧ i.anyUnstable = false ∧ i.allNotBuilt = false) ∧
      (i.allNotBuilt = true →
        i.anyFailed = false ∧ i.anyUnstable = false ∧ i.allSuccessful = false) := by
  intro h
  let e := Event.bare ⟨1, 1⟩
  let ps : List Report := [⟨e, .triggered "verify"⟩, ⟨e, .triggered "lint"⟩,
    ⟨e, .cancelled "verify"⟩, ⟨e, .completed ⟨"verify", 1, some .failure⟩⟩,
    ⟨e, .completed ⟨"lint", 1, some .notBuilt⟩⟩]
  let i : Imprint := ⟨⟨1, 1⟩, e,
    [{ job := "verify", build := some ⟨"verify", 1, some .failure⟩, completed := true
       cancelled := true, triggeredAt := 0, startedAt := some 3, completedAt := some 3 },
     { job := "lint", build := some ⟨"lint", 1, some .notBuilt⟩, completed := true
       triggeredAt := 1, startedAt := some 4, completedAt := some 4 }]⟩
  have hfinished : ∀ p ∈ ps, ∀ b, p.signal = .completed b → b.isRunning = false := by
    simp [ps, Build.isRunning]
  have hi : i ∈ (Run.ofHistory ps).completions := by decide
  have hexcluded := ((h ps i hfinished (.inr hi) (by simp [i])).2 (by decide)).1
  exact absurd hexcluded (by decide)

end Tracker
end ReviewStream
