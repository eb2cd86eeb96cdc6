import ReviewStream.Gate.Basic
import ReviewStream.Proofs.Gate.Directory

/-!
# The verdict of the gate

The gate looks into an item only if it waits in the queue because of a patch set and its job has
known dependencies. Then the item is held back until it has waited long enough, and what the gate
says from that moment on does not depend on the time any more. Each possible answer is characterised
by the circumstances in which it is given.
-/

namespace ReviewStream.Gate

/-- The item was caused by an event about the patch set, the queue did not let it pass yet, and its
job has a known dependency. -/
structure Examined (d : Directory) (item : QueueItem) (k : PatchSetKey) : Prop where
  cause : item.cause = some k
  waiting : item.buildable = false
  known : ∃ name ∈ d.written item.job, d.Counts name

namespace Examined

variable {d : Directory} {item : QueueItem} {k k' : PatchSetKey}

lemma key_unique (h : Examined d item k) (h' : Examined d item k') : k' = k :=
  Option.some.inj (h'.cause.symm.trans h.cause)

lemma exists_iff (h : Examined d item k) {P : PatchSetKey → Prop} :
    (∃ k', Examined d item k' ∧ P k') ↔ P k :=
  ⟨fun ⟨_, h', hp⟩ => h.key_unique h' ▸ hp, fun hp => ⟨k, h, hp⟩⟩

lemma forall_iff (h : Examined d item k) {P : PatchSetKey → Prop} :
    (∀ k', Examined d item k' → P k') ↔ P k :=
  ⟨fun hp => hp k h, fun hp _ h' => (h.key_unique h').symm ▸ hp⟩

end Examined

namespace View

variable {v : View} {item : QueueItem} {k : PatchSetKey}

/-- The known dependencies of a job that are under way for the patch set. -/
def blockers (v : View) (job : JobName) (k : PatchSetKey) : List JobName :=
  (v.directory.written job).filter fun name =>
    v.directory.Counts name ∧ v.isIncomplete name k = true

/-- What the gate says about a job once its item has waited long enough. -/
def settled? (v : View) (job : JobName) (k : PatchSetKey) : Option Blockage :=
  if v.isTriggering k then some .waitingForTriggers
  else if v.blockers job k = [] then none
  else some (.waitingForBuilds (v.blockers job k))

lemma blockers_eq (v : View) (job : JobName) (k : PatchSetKey) :
    v.blockers job k = (v.directory.dependencies job).filter (v.isIncomplete · k) := by
  rw [blockers, Directory.dependencies_eq_filter, List.filter_filter]
  apply List.filter_congr
  intro name _
  rw [Bool.eq_iff_iff, decide_eq_true_eq, Bool.and_eq_true, decide_eq_true_eq, and_comm]

lemma blockage?_of_examined (h : Examined v.directory item k) (now : Nat) :
    v.blockage? item now =
      if now - item.inQueueSince < v.scheduleDelay then some .waitingForQueue
      else v.settled? item.job k := by
  have hne : (v.directory.dependencies item.job).isEmpty = false := by
    rw [List.isEmpty_eq_false_iff, Ne, Directory.dependencies_eq_nil_iff, not_not]
    exact h.known
  unfold blockage? settled?
  simp only [h.cause, h.waiting, hne, Bool.or_self, Bool.false_eq_true, if_false, blockers_eq]
  congr 2
  cases (v.directory.dependencies item.job).filter (v.isIncomplete · k) <;> simp

lemma blockage?_of_not_examined (h : ∀ k, ¬ Examined v.directory item k) (now : Nat) :
    v.blockage? item now = none := by
  unfold blockage?
  cases hc : item.cause with
  | none => rfl
  | some k =>
    cases hb : item.buildable with
    | true => rfl
    | false =>
      have hnil : v.directory.dependencies item.job = [] :=
        Directory.dependencies_eq_nil_iff.mpr fun hk => h k ⟨hc, hb, hk⟩
      simp [hnil]

lemma examined_or_not (v : View) (item : QueueItem) :
    (∃ k, Examined v.directory item k ∧ ∀ now, v.blockage? item now =
      if now - item.inQueueSince < v.scheduleDelay then some .waitingForQueue
      else v.settled? item.job k) ∨
    (∀ k, ¬ Examined v.directory item k) ∧ ∀ now, v.blockage? item now = none := by
  by_cases hex : ∃ k, Examined v.directory item k
  · obtain ⟨k, hk⟩ := hex
    exact .inl ⟨k, hk, blockage?_of_examined hk⟩
  · have hnot : ∀ k, ¬ Examined v.directory item k := fun k hk => hex ⟨k, hk⟩
    exact .inr ⟨hnot, blockage?_of_not_examined hnot⟩

lemma blockage?_eq_waitingForQueue_iff (now : Nat) :
    v.blockage? item now = some .waitingForQueue ↔
      ∃ k, Examined v.directory item k ∧ now - item.inQueueSince < v.scheduleDelay := by
  rcases v.examined_or_not item with ⟨k, hk, hverdict⟩ | ⟨hnot, hverdict⟩
  · rw [hverdict, hk.exists_iff]
    unfold settled?
    split_ifs with hdelay <;> simp [hdelay]
  · simp [hverdict, hnot]

lemma blockage?_eq_waitingForTriggers_iff (now : Nat) :
    v.blockage? item now = some .waitingForTriggers ↔
      ∃ k, Examined v.directory item k ∧ v.scheduleDelay ≤ now - item.inQueueSince ∧
        v.isTriggering k = true := by
  rcases v.examined_or_not item with ⟨k, hk, hverdict⟩ | ⟨hnot, hverdict⟩
  · rw [hverdict, hk.exists_iff, ← not_lt]
    unfold settled?
    split_ifs with hdelay htrig hnone
    · simp [hdelay]
    · simp [hdelay, htrig]
    · simp [htrig]
    · simp [htrig]
  · simp [hverdict, hnot]

lemma blockage?_eq_waitingForBuilds_iff (now : Nat) (js : List JobName) :
    v.blockage? item now = some (.waitingForBuilds js) ↔
      ∃ k, Examined v.directory item k ∧ v.scheduleDelay ≤ now - item.inQueueSince ∧
        v.isTriggering k = false ∧ js = v.blockers item.job k ∧ js ≠ [] := by
  rcases v.examined_or_not item with ⟨k, hk, hverdict⟩ | ⟨hnot, hverdict⟩
  · rw [hverdict, hk.exists_iff, ← not_lt]
    unfold settled?
    split_ifs with hdelay htrig hnone
    · simp [hdelay]
    · simp [htrig]
    · simp [hnone]
    · simp only [Option.some.injEq, Blockage.waitingForBuilds.injEq, hdelay, not_false_eq_true,
        true_and, Bool.eq_false_iff.mpr htrig]
      exact ⟨fun h => ⟨h.symm, h ▸ hnone⟩, fun h => h.1.symm⟩
  · simp [hverdict, hnot]

lemma blockage?_eq_none_iff (now : Nat) :
    v.blockage? item now = none ↔
      ∀ k, Examined v.directory item k → v.scheduleDelay ≤ now - item.inQueueSince ∧
        v.isTriggering k = false ∧ v.blockers item.job k = [] := by
  rcases v.examined_or_not item with ⟨k, hk, hverdict⟩ | ⟨hnot, hverdict⟩
  · rw [hverdict, hk.forall_iff, ← not_lt]
    unfold settled?
    split_ifs with hdelay htrig hnone
    · simp [hdelay]
    · simp [htrig]
    · simp [hdelay, htrig, hnone]
    · simp [hnone]
  · simp [hverdict, hnot]

lemma blockage?_ne_none {job : JobName} (now : Nat) (hcause : item.cause = some k)
    (hwaiting : item.buildable = false) (hdep : job ∈ v.directory.dependencies item.job)
    (hinc : v.isIncomplete job k = true) : v.blockage? item now ≠ none := by
  obtain ⟨hwritten, hcounts⟩ := Directory.mem_dependencies_iff.mp hdep
  have hk : Examined v.directory item k := ⟨hcause, hwaiting, job, hwritten, hcounts⟩
  intro hnone
  obtain ⟨-, -, hnil⟩ := (blockage?_eq_none_iff now).mp hnone k hk
  rw [blockers_eq, List.filter_eq_nil_iff] at hnil
  exact hnil job hdep hinc

lemma blockage?_congr {v' : View} (hd : v'.directory = v.directory)
    (hs : v'.scheduleDelay = v.scheduleDelay)
    (ht : ∀ k, item.cause = some k → v'.isTriggering k = v.isTriggering k)
    (hi : ∀ k, item.cause = some k → ∀ job, v'.isIncomplete job k = v.isIncomplete job k)
    (now : Nat) : v'.blockage? item now = v.blockage? item now := by
  unfold blockage?
  cases hc : item.cause with
  | none => rfl
  | some k => simp only [hd, hs, ht k hc, hi k hc]

lemma exists_blockage?_eq_ite (v : View) (item : QueueItem) :
    ∃ moment final, final ≠ some .waitingForQueue ∧ ∀ now, v.blockage? item now =
      if now < moment then some .waitingForQueue else final := by
  rcases v.examined_or_not item with ⟨k, -, hverdict⟩ | ⟨-, hverdict⟩
  · -- without a delay there is no moment at which the item is too young
    refine ⟨if v.scheduleDelay = 0 then 0 else item.inQueueSince + v.scheduleDelay,
      v.settled? item.job k, ?_, fun now => ?_⟩
    · unfold settled?
      split_ifs <;> simp
    · have hiff : now - item.inQueueSince < v.scheduleDelay ↔
          now < if v.scheduleDelay = 0 then 0 else item.inQueueSince + v.scheduleDelay := by
        split_ifs <;> omega
      rw [hverdict]
      simp only [hiff]
  · refine ⟨0, none, by simp, fun now => ?_⟩
    rw [hverdict]
    simp

end View

end ReviewStream.Gate
