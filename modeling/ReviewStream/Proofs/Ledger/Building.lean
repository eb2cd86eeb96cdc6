import ReviewStream.Proofs.Ledger.Reachable

/-!
# Jobs that are building and patch sets that are complete

Whether a job is building is read off the build and the cancellation of its entry, and whether a
patch set is complete is read off the completion of its entries. In reachable ledgers the two never
disagree: a job has one entry under a patch set, a cancelled entry is completed, and a completed one
has a build or is cancelled.
-/

namespace ReviewStream

lemma map_job_modifyEntry {job : JobName} {change : Entry → Entry}
    (hc : ∀ e, (change e).job = e.job) (es : List Entry) :
    (modifyEntry job change es).map Entry.job = es.map Entry.job := by
  induction es with
  | nil => rfl
  | cons e es ih =>
    rw [modifyEntry]
    by_cases he : e.job = job
    · rw [if_pos he, List.map_cons, hc, List.map_cons]
    · rw [if_neg he, List.map_cons, ih, List.map_cons]

namespace Ledger

variable {l : Ledger}

theorem Reachable.nodup_jobs (h : Reachable l) :
    ∀ i ∈ l.imprints, (i.entries.map Entry.job).Nodup := by
  apply h.imprint_induction (P := fun i => (i.entries.map Entry.job).Nodup)
  · intro k e _
    exact List.nodup_nil
  · intro i now s hi
    rw [Imprint.record_false]
    exact nodup_upsertEntry _ _ _ (s.change_job now) (s.fresh_job now) hi
  · intro i job hi
    exact hi.sublist (List.filter_sublist.map Entry.job)
  · intro i job url hi
    rw [Imprint.annotate, map_job_modifyEntry]
    · exact hi
    · exact fun _ => rfl
  · intro i job text hi
    rw [Imprint.annotate, map_job_modifyEntry]
    · exact hi
    · exact fun _ => rfl

theorem Reachable.entry_isBuilding (h : Reachable l) :
    ∀ i ∈ l.imprints, ∀ e ∈ i.entries, e.isBuilding = !e.completed := by
  intro i hi e he
  have hcancelled := h.completed_of_cancelled i hi e he
  have hcompleted := h.build_or_cancelled_of_completed i hi e he
  unfold Entry.isBuilding
  cases hb : e.build with
  | some b => rfl
  | none =>
    have hiff : e.cancelled = e.completed := by
      rw [hb] at hcompleted
      exact Bool.eq_iff_iff.mpr ⟨hcancelled, fun hc => (hcompleted hc).resolve_left (by simp)⟩
    simp [hiff]

lemma isIncomplete_eq_isBuilding (l : Ledger) (job : JobName) (k : PatchSetKey) :
    l.isIncomplete job k = l.isBuilding k job :=
  l.isIncomplete_eq job k

lemma Reachable.isBuilding_iff (h : Reachable l) (k : PatchSetKey) (job : JobName) :
    l.isBuilding k job = true ↔ ∃ e ∈ l.entries k, e.job = job ∧ e.completed = false := by
  rw [← isIncomplete_eq_isBuilding, isIncomplete_eq, entryOf?, entries]
  cases hi : l.get? k with
  | none => simp
  | some i =>
    have hmem := mem_of_get? hi
    constructor
    · intro hb
      cases he : i.entryOf? job with
      | none => simp [he] at hb
      | some e =>
        have hm := Imprint.mem_entries_of_entryOf? he
        have hj := Imprint.job_of_entryOf? he
        have hbe : e.isBuilding = true := by simpa [he] using hb
        rw [h.entry_isBuilding i hmem e hm] at hbe
        exact ⟨e, hm, hj, by simpa using hbe⟩
    · rintro ⟨e, he, rfl, hc⟩
      have hf : i.entryOf? e.job = some e := Imprint.entryOf?_of_mem (h.nodup_jobs i hmem) he
      simp [hf, h.entry_isBuilding i hmem e he, hc]

lemma allCompleted_iff (l : Ledger) (k : PatchSetKey) :
    l.allCompleted k = true ↔
      l.isTracked k = true ∧ ∀ e ∈ l.entries k, e.completed = true := by
  unfold allCompleted isTracked entries
  cases l.get? k <;> simp [Imprint.allCompleted]

lemma isSome_takeCompleted (l : Ledger) (k : PatchSetKey) :
    (l.takeCompleted k).isSome = l.allCompleted k := by
  rw [takeCompleted_eq, allCompleted]
  cases l.get? k with
  | none => rfl
  | some i => cases hc : i.allCompleted <;> simp [hc]

/-- A job is building exactly when it has an entry that is not completed, and a patch set is
complete exactly when it is known and none of its jobs is building. -/
theorem Reachable.complete_iff_nothing_building (h : Reachable l) (k : PatchSetKey) :
    (∀ job, l.isBuilding k job = true ↔
      ∃ e ∈ l.entries k, e.job = job ∧ e.completed = false) ∧
    (l.allCompleted k = true ↔
      l.isTracked k = true ∧ ∀ job, l.isBuilding k job = false) ∧
    (l.takeCompleted k).isSome = l.allCompleted k ∧
    ∀ job, l.isIncomplete job k = l.isBuilding k job := by
  refine ⟨h.isBuilding_iff k, ?_, l.isSome_takeCompleted k, fun job =>
    l.isIncomplete_eq_isBuilding job k⟩
  rw [allCompleted_iff]
  refine and_congr_right fun _ => ⟨fun hall job => ?_, fun hnone e he => ?_⟩
  · refine Bool.eq_false_iff.mpr fun hb => ?_
    obtain ⟨e, he, -, hc⟩ := (h.isBuilding_iff k job).mp hb
    exact Bool.false_ne_true (hc.symm.trans (hall e he))
  · cases hc : e.completed with
    | true => rfl
    | false =>
      have hb := (h.isBuilding_iff k e.job).mpr ⟨e, he, rfl, hc⟩
      exact absurd (hb.symm.trans (hnone e.job)) (by simp)

/-- A job that was cancelled and whose build starts all the same is not waited for, while a build
that was taken over from before is. -/
theorem start_after_cancellation_is_not_building :
    let k : PatchSetKey := ⟨100, 2⟩
    let e := Event.bare k
    let l := ((({} : Ledger).apply (.signal 0 e (.retriggered "verify"
      [⟨"lint", 4, some .failure⟩, ⟨"docs", 2, none⟩]))).apply
        (.signal 1 e (.cancelled "verify"))).apply (.signal 2 e (.started ⟨"verify", 7, none⟩))
    Reachable l ∧ l.isBuilding k "docs" = true ∧ l.isIncomplete "verify" k = false ∧
      l.allCompleted k = false := by
  intro k e l
  have hl : Reachable l := .apply _ (.apply _ (.apply _ .empty))
  obtain ⟨hbuilding, hcomplete, -, hincomplete⟩ := hl.complete_iff_nothing_building k
  have hdocs : l.isBuilding k "docs" = true := (hbuilding "docs").mpr (by decide)
  have hverify : l.isBuilding k "verify" = false :=
    Bool.eq_false_iff.mpr fun hb => absurd ((hbuilding "verify").mp hb) (by decide)
  refine ⟨hl, hdocs, (hincomplete "verify").trans hverify, ?_⟩
  exact Bool.eq_false_iff.mpr fun hc => by simp [(hcomplete.mp hc).2 "docs"] at hdocs

end Ledger

end ReviewStream
