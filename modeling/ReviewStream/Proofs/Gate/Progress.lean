import ReviewStream.Proofs.Gate.Verdict
import ReviewStream.Proofs.Ledger.Reachable
import ReviewStream.Site

/-!
# The gate does not block for good

If the dependencies form no cycle, the jobs under way for a patch set cannot all wait for each
other: one of them depends on none of the others, and the gate has no objection to its item once
that has waited long enough.
-/

namespace ReviewStream

namespace Ledger

lemma mem_jobs_of_isIncomplete {l : Ledger} {job : JobName} {k : PatchSetKey}
    (h : l.isIncomplete job k = true) : job ∈ (l.entries k).map Entry.job := by
  rw [isIncomplete_eq, entryOf?] at h
  rw [entries]
  cases hi : l.get? k with
  | none => simp [hi] at h
  | some i =>
    cases he : i.entryOf? job with
    | none => simp [hi, he] at h
    | some e =>
      have hj : e.job = job := Imprint.job_of_entryOf? he
      exact List.mem_map.mpr ⟨e, Imprint.mem_entries_of_entryOf? he, hj⟩

lemma finite_incomplete (l : Ledger) (k : PatchSetKey) :
    {job | l.isIncomplete job k = true}.Finite :=
  (List.finite_toSet ((l.entries k).map Entry.job)).subset fun _ => mem_jobs_of_isIncomplete

end Ledger

namespace Gate

/-- The item was caused by an event about the patch set and has waited long enough. -/
structure Ripe (item : QueueItem) (k : PatchSetKey) (delay now : Nat) : Prop where
  cause : item.cause = some k
  waited : delay ≤ now - item.inQueueSince

lemma View.blockage?_eq_none_of_free {v : View} {item : QueueItem} {k : PatchSetKey} {now : Nat}
    (hripe : Ripe item k v.scheduleDelay now) (hk : v.isTriggering k = false)
    (hfree : ∀ dep ∈ v.directory.dependencies item.job, v.isIncomplete dep k = false) :
    v.blockage? item now = none := by
  rw [blockage?_eq_none_iff]
  intro k' hk'
  have hkey : k' = k := Option.some.inj (hk'.cause.symm.trans hripe.cause)
  subst hkey
  refine ⟨hripe.waited, hk, ?_⟩
  rw [blockers_eq, List.filter_eq_nil_iff]
  exact fun dep hdep => by simp [hfree dep hdep]

/-- If the jobs under way for a patch set that is not being triggered have all got items that have
waited long enough, the gate lets one of these items run. -/
theorem exists_item_without_objection {Λ : Type} (s : Site Λ) (d : Directory) (hd : d.Acyclic)
    (delay now : Nat) (k : PatchSetKey) (hk : s.barrier.isTriggering k = false)
    (items : List QueueItem) (hsome : ∃ job, s.ledger.isIncomplete job k = true)
    (hitems : ∀ job, s.ledger.isIncomplete job k = true →
      ∃ item ∈ items, item.job = job ∧ Ripe item k delay now) :
    ∃ item ∈ items, s.ledger.isIncomplete item.job k = true ∧ Ripe item k delay now ∧
      (s.view d delay).blockage? item now = none := by
  obtain ⟨job, hjob, hmin⟩ := hd.exists_minimal (s.ledger.finite_incomplete k) hsome
  obtain ⟨item, hmem, rfl, hripe⟩ := hitems job hjob
  have hfree : ∀ dep ∈ (s.view d delay).directory.dependencies item.job,
      (s.view d delay).isIncomplete dep k = false :=
    fun dep hdep => Bool.eq_false_iff.mpr (hmin dep hdep)
  exact ⟨item, hmem, hjob, hripe, View.blockage?_eq_none_of_free hripe hk hfree⟩

theorem diamond_of_jobs_has_item_without_objection :
    let k : PatchSetKey := ⟨30, 2⟩
    let e := Event.bare k
    let l := (((({} : Ledger).apply (.signal 0 e (.triggered "deploy"))).apply
      (.signal 1 e (.triggered "test"))).apply (.signal 2 e (.triggered "lint"))).apply
        (.signal 3 e (.started ⟨"build", 7, none⟩))
    let s : Site String := { ledger := l }
    let d : Directory := ⟨[("deploy", some "test, lint"), ("test", some "build"),
      ("lint", some " build, ghost"), ("build", none)]⟩
    let items : List QueueItem := [⟨"deploy", some k, 0, false⟩, ⟨"test", some k, 0, false⟩,
      ⟨"lint", some k, 1000, false⟩, ⟨"build", some k, 2000, false⟩]
    d.Acyclic ∧ ∃ item ∈ items, s.ledger.isIncomplete item.job k = true ∧
      Ripe item k 3000 5000 ∧ (s.view d 3000).blockage? item 5000 = none := by
  intro k e l s d items
  let rank : JobName → Nat := fun job =>
    if job = "deploy" then 2 else if job = "test" ∨ job = "lint" then 1 else 0
  have hd : d.Acyclic := Directory.acyclic_of_rank rank (by decide)
  have hjobs : ∀ job ∈ (l.entries k).map Entry.job, ∃ item ∈ items, item.job = job ∧
      item.cause = some k ∧ 3000 ≤ 5000 - item.inQueueSince := by decide
  have hitems : ∀ job, s.ledger.isIncomplete job k = true →
      ∃ item ∈ items, item.job = job ∧ Ripe item k 3000 5000 := by
    intro job hjob
    obtain ⟨item, hmem, hj, hc, hw⟩ := hjobs job (Ledger.mem_jobs_of_isIncomplete hjob)
    exact ⟨item, hmem, hj, hc, hw⟩
  exact ⟨hd, exists_item_without_objection s d hd 3000 5000 k (by decide) items
    ⟨"build", by decide⟩ hitems⟩

end Gate

end ReviewStream
