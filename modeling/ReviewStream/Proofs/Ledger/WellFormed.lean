import ReviewStream.Ledger.Basic
import ReviewStream.Proofs.Ledger.Building
import ReviewStream.Proofs.Ledger.KeyOrder
import ReviewStream.Proofs.Ledger.Residents

/-!
# Well-formed ledgers

After any history of operations an imprint is kept under its own key, which is that of its event,
and has one entry for each of its jobs. The times on an entry are there exactly when what they are
the times of has happened.
-/

namespace ReviewStream

structure Entry.WellFormed (e : Entry) : Prop where
  build_job : ∀ b, e.build = some b → b.job = e.job
  isSome_startedAt : e.startedAt.isSome = e.build.isSome
  isSome_completedAt : e.completedAt.isSome = e.completed

structure Imprint.WellFormed (i : Imprint) (k : PatchSetKey) : Prop where
  key : i.key = k
  event_key : i.event.key? = some k
  nodup_jobs : (i.entries.map Entry.job).Nodup
  entries : ∀ e ∈ i.entries, e.WellFormed

namespace Entry

variable {e : Entry} {b : Build}

lemma WellFormed.start (h : e.WellFormed) (hb : b.job = e.job) (now : Instant) :
    (e.start b now).WellFormed where
  build_job := by
    rintro _ ⟨⟩
    exact hb
  isSome_startedAt := rfl
  isSome_completedAt := h.isSome_completedAt

lemma WellFormed.close (h : e.WellFormed) (now : Instant) : (e.close now).WellFormed :=
  ⟨h.build_job, h.isSome_startedAt, rfl⟩

lemma WellFormed.finish (h : e.WellFormed) (hb : b.job = e.job) (now : Instant) :
    (e.finish b now).WellFormed := by
  unfold Entry.finish
  refine WellFormed.close ?_ now
  cases hbuild : e.build with
  | none => exact h.start hb now
  | some b' =>
    refine ⟨?_, ?_, h.isSome_completedAt⟩
    · rintro _ ⟨⟩
      exact hb
    · exact h.isSome_startedAt.trans (by rw [hbuild]; rfl)

lemma wellFormed_triggered (job : JobName) (now : Instant) : (triggered job now).WellFormed :=
  ⟨nofun, rfl, rfl⟩

lemma wellFormed_started (b : Build) (now : Instant) : (started b now).WellFormed :=
  (wellFormed_triggered b.job now).start rfl now

end Entry

namespace Signal

variable (s : Signal) (now : Instant)

lemma wellFormed_fresh : (s.fresh now).WellFormed := by
  cases s with
  | triggered job => exact Entry.wellFormed_triggered job now
  | retriggered job others => exact Entry.wellFormed_triggered job now
  | started b => exact Entry.wellFormed_started b now
  | completed b => exact (Entry.wellFormed_started b now).close now
  | cancelled job =>
    have h := (Entry.wellFormed_triggered job now).close now
    exact ⟨h.build_job, h.isSome_startedAt, h.isSome_completedAt⟩

lemma wellFormed_change {e : Entry} (h : e.WellFormed) (hjob : e.job = s.job) :
    (s.change now e).WellFormed := by
  cases s with
  | triggered job => exact h
  | retriggered job others => exact ⟨nofun, rfl, rfl⟩
  | started b => exact h.start hjob.symm now
  | completed b => exact h.finish hjob.symm now
  | cancelled job => exact ⟨h.build_job, h.isSome_startedAt, rfl⟩

end Signal

namespace Ledger

variable {l : Ledger}

lemma Reachable.wellFormed_entries (h : Reachable l) :
    ∀ i ∈ l.imprints, ∀ e ∈ i.entries, e.WellFormed := by
  apply h.entry_induction (P := Entry.WellFormed)
  · exact fun s now => s.wellFormed_fresh now
  · exact fun s now e hjob he => s.wellFormed_change now he hjob
  · exact fun e url he => ⟨he.build_job, he.isSome_startedAt, he.isSome_completedAt⟩
  · exact fun e text he => ⟨he.build_job, he.isSome_startedAt, he.isSome_completedAt⟩

lemma Reachable.event_key (h : Reachable l) : ∀ i ∈ l.imprints, i.event.key? = some i.key := by
  apply h.imprint_induction (P := fun i => i.event.key? = some i.key)
  · exact fun k e hk => hk
  · intro i now s hi
    rw [Imprint.record_false]
    exact hi
  · exact fun i job hi => hi
  · exact fun i job url hi => hi
  · exact fun i job text hi => hi

lemma Reachable.wellFormed (h : Reachable l) {k : PatchSetKey} {i : Imprint}
    (hi : l.get? k = some i) : i.WellFormed k where
  key := key_of_get? hi
  event_key := (h.event_key i (mem_of_get? hi)).trans (congrArg some (key_of_get? hi))
  nodup_jobs := h.nodup_jobs i (mem_of_get? hi)
  entries := h.wellFormed_entries i (mem_of_get? hi)

lemma Sorted.report (h : l.Sorted) :
    (l.report.map ReportedImprint.key).Pairwise fun k k' => k.before k' = true := by
  rw [Ledger.report, List.map_map]
  exact List.pairwise_map.mpr h

/-- After a history of operations every imprint that is kept under a key is a well-formed one of
that key, and the report lists what is kept, with its entries, in strictly ascending order of the
keys. -/
theorem wellFormed_after (ops : List Operation) :
    (after ops).get? = Residents.after ops ∧
    (∀ k i, Residents.after ops k = some i → i.WellFormed k) ∧
    (∀ r, r ∈ (after ops).report ↔ ∃ i, Residents.after ops r.key = some i ∧
      r = ⟨r.key, i.event.kind, i.event.project, i.entries⟩) ∧
    ((after ops).report.map ReportedImprint.key).Pairwise fun k k' => k.before k' = true := by
  have hr := reachable_after ops
  have hget := get?_after ops
  refine ⟨hget, fun k i hi => ?_, fun r => ?_, hr.sorted.report⟩
  · rw [← hget] at hi
    exact hr.wellFormed hi
  · rw [← hget, Ledger.report, List.mem_map]
    constructor
    · rintro ⟨i, hi, rfl⟩
      exact ⟨i, hr.sorted.get?_of_mem hi, rfl⟩
    · rintro ⟨i, hi, hreported⟩
      refine ⟨i, mem_of_get? hi, ?_⟩
      rw [hreported, Imprint.reported, key_of_get? hi]

end Ledger

end ReviewStream
