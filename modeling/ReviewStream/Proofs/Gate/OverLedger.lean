import ReviewStream.Proofs.Gate.Verdict
import ReviewStream.Proofs.Ledger.Building
import ReviewStream.Site

/-!
# The gate over the ledger

At a site the gate asks the ledger which jobs are under way. What it says about an item is then
determined by the written dependencies of the item's job, the entries under the item's patch set,
the trigger scans of that patch set and the time for which the item has waited.
-/

namespace ReviewStream.Gate

/-- The known dependencies of a job whose entry under the patch set is not completed, in the order
in which they were written down. -/
def Directory.outstanding (d : Directory) (l : Ledger) (k : PatchSetKey) (job : JobName) :
    List JobName :=
  (d.written job).filter fun name =>
    d.Counts name ∧ ∃ e ∈ l.entries k, e.job = name ∧ e.completed = false

lemma blockers_view {Λ : Type} {s : Site Λ} (hs : s.ledger.Reachable) (d : Directory)
    (delay : Nat) (job : JobName) (k : PatchSetKey) :
    (s.view d delay).blockers job k = d.outstanding s.ledger k job := by
  apply List.filter_congr
  intro name _
  have hbuilding : s.ledger.isIncomplete name k = true ↔
      ∃ e ∈ s.ledger.entries k, e.job = name ∧ e.completed = false := by
    rw [Ledger.isIncomplete_eq_isBuilding]
    exact hs.isBuilding_iff k name
  rw [Bool.eq_iff_iff, decide_eq_true_eq, decide_eq_true_eq]
  exact and_congr_right fun _ => hbuilding

lemma Directory.exists_counts_of_outstanding {d : Directory} {l : Ledger} {k : PatchSetKey}
    {job : JobName} (h : d.outstanding l k job ≠ []) : ∃ name ∈ d.written job, d.Counts name := by
  obtain ⟨name, hname⟩ := List.exists_mem_of_ne_nil _ h
  obtain ⟨hw, hc⟩ := List.mem_filter.mp hname
  exact ⟨name, hw, (of_decide_eq_true hc).1⟩

/-- When the gate answers what, for every ledger that reports and other operations lead to. No other
imprint than that of the item's patch set matters, and as time goes on the answer changes at most
once, from waiting for the queue to an answer that stays. -/
theorem verdict_over_ledger {Λ : Type} (s : Site Λ) (hs : s.ledger.Reachable) (d : Directory)
    (delay : Nat) (item : QueueItem) :
    (∀ now js, (s.view d delay).blockage? item now = some (.waitingForBuilds js) ↔
      ∃ k, item.cause = some k ∧ item.buildable = false ∧ delay ≤ now - item.inQueueSince ∧
        s.barrier.isTriggering k = false ∧ js = d.outstanding s.ledger k item.job ∧ js ≠ []) ∧
    (∀ now, (s.view d delay).blockage? item now = some .waitingForQueue ↔
      ∃ k, Examined d item k ∧ now - item.inQueueSince < delay) ∧
    (∀ now, (s.view d delay).blockage? item now = some .waitingForTriggers ↔
      ∃ k, Examined d item k ∧ delay ≤ now - item.inQueueSince ∧
        s.barrier.isTriggering k = true) ∧
    (∀ now, (s.view d delay).blockage? item now = none ↔
      ∀ k, Examined d item k → delay ≤ now - item.inQueueSince ∧
        s.barrier.isTriggering k = false ∧ d.outstanding s.ledger k item.job = []) ∧
    (∀ s' : Site Λ, s'.barrier.triggering = s.barrier.triggering →
      (∀ k, item.cause = some k → s'.ledger.get? k = s.ledger.get? k) →
      ∀ now, (s'.view d delay).blockage? item now = (s.view d delay).blockage? item now) ∧
    ∃ moment final, final ≠ some .waitingForQueue ∧
      ∀ now, (s.view d delay).blockage? item now =
        if now < moment then some .waitingForQueue else final := by
  refine ⟨fun now js => ?_, View.blockage?_eq_waitingForQueue_iff (v := s.view d delay),
    View.blockage?_eq_waitingForTriggers_iff (v := s.view d delay), fun now => ?_,
    fun s' ht hl now => ?_, (s.view d delay).exists_blockage?_eq_ite item⟩
  · rw [View.blockage?_eq_waitingForBuilds_iff]
    simp only [blockers_view hs]
    constructor
    · rintro ⟨k, hk, hdelay, htrig, hjs, hne⟩
      exact ⟨k, hk.cause, hk.waiting, hdelay, htrig, hjs, hne⟩
    · rintro ⟨k, hcause, hwaiting, hdelay, htrig, hjs, hne⟩
      have hknown := Directory.exists_counts_of_outstanding (hjs ▸ hne)
      exact ⟨k, ⟨hcause, hwaiting, hknown⟩, hdelay, htrig, hjs, hne⟩
  · rw [View.blockage?_eq_none_iff]
    simp only [blockers_view hs]
    rfl
  · have htriggering : ∀ k, item.cause = some k →
        (s'.view d delay).isTriggering k = (s.view d delay).isTriggering k :=
      fun k _ => congrArg (List.contains · k) ht
    have hincomplete : ∀ k, item.cause = some k → ∀ job,
        (s'.view d delay).isIncomplete job k = (s.view d delay).isIncomplete job k := by
      intro k hk job
      change s'.ledger.isIncomplete job k = s.ledger.isIncomplete job k
      rw [Ledger.isIncomplete_eq, Ledger.isIncomplete_eq, Ledger.entryOf?, hl k hk, Ledger.entryOf?]
    have hdirectory : (s'.view d delay).directory = (s.view d delay).directory := rfl
    exact View.blockage?_congr hdirectory rfl htriggering hincomplete now

theorem verdict_names_running_dependency_twice :
    let k : PatchSetKey := ⟨30, 2⟩
    let e := Event.bare k
    let l := (((({} : Ledger).apply (.signal 0 e (.triggered "build"))).apply
      (.signal 1 e (.triggered "lint"))).apply
        (.signal 2 (Event.bare ⟨30, 3⟩) (.triggered "lint"))).apply
          (.signal 3 e (.completed ⟨"lint", 4, some .success⟩))
    let s : Site String := { ledger := l }
    let d : Directory := ⟨[("test", some "build, ghost,, lint , build"), ("lint", none),
      ("build", none)]⟩
    let item : QueueItem := ⟨"test", some k, 1000, false⟩
    l.Reachable ∧
      (s.view d 3000).blockage? item 4000 = some (.waitingForBuilds ["build", "build"]) ∧
      (s.view d 3000).blockage? item 3999 = some .waitingForQueue := by
  intro k e l s d item
  have hl : l.Reachable := .apply _ (.apply _ (.apply _ (.apply _ .empty)))
  obtain ⟨hbuilds, hqueue, -⟩ := verdict_over_ledger s hl d 3000 item
  have hblocked := (hbuilds 4000 ["build", "build"]).mpr
    ⟨k, rfl, rfl, by decide, by decide, by decide, by simp⟩
  have hyoung := (hqueue 3999).mpr ⟨k, ⟨rfl, rfl, by decide⟩, by decide⟩
  exact ⟨hl, hblocked, hyoung⟩

end ReviewStream.Gate
