import Mathlib.Data.List.Forall2
import ReviewStream.Proofs.Ledger.KeyOrder
import ReviewStream.Proofs.Ledger.Residents

/-!
# Signals in any order

Workers report the jobs of a patch set in any order. Signals about different jobs may change places,
and a signal that is repeated at once adds nothing. What is left out of account is when things
happened, and in which order the entries of an imprint were added.
-/

namespace ReviewStream

/-- The entry with all its times set to zero. A time that is there stays there. -/
def Entry.untimed (e : Entry) : Entry :=
  { e with triggeredAt := 0, startedAt := e.startedAt.map fun _ => 0
           completedAt := e.completedAt.map fun _ => 0 }

def Imprint.untimed (i : Imprint) : Imprint := { i with entries := i.entries.map Entry.untimed }

def Ledger.untimed (l : Ledger) : Ledger := ⟨l.imprints.map Imprint.untimed⟩

/-- Two imprints are alike when they differ at most in the order of their entries. -/
def Imprint.Alike (i j : Imprint) : Prop := i.origin = j.origin ∧ i.entries.Perm j.entries

/-- Two ledgers are alike when their imprints are so once all times are left out. -/
def Ledger.Alike (l l' : Ledger) : Prop :=
  List.Forall₂ Imprint.Alike l.untimed.imprints l'.untimed.imprints

/-- The signal concerns no job but its own. -/
def Signal.IsPlain (s : Signal) : Prop := ∀ job others, s ≠ .retriggered job others

section EntryLists

variable {job other : JobName} {change change' : Entry → Entry} {fresh fresh' : Entry}

lemma upsertEntry_upsertEntry_self (hc : ∀ e, change (change e) = change e)
    (hf : change fresh = fresh) (hcj : ∀ e, (change e).job = e.job) (hfj : fresh.job = job)
    (es : List Entry) :
    upsertEntry job change fresh (upsertEntry job change fresh es) =
      upsertEntry job change fresh es := by
  induction es with
  | nil => simp [upsertEntry, hfj, hf]
  | cons e es ih =>
    by_cases he : e.job = job
    · simp [upsertEntry, he, hcj, hc]
    · simp [upsertEntry, he, ih]

lemma perm_upsertEntry_comm (hne : job ≠ other) (hc : ∀ e, (change e).job = e.job)
    (hf : fresh.job = job) (hc' : ∀ e, (change' e).job = e.job) (hf' : fresh'.job = other)
    (es : List Entry) :
    (upsertEntry other change' fresh' (upsertEntry job change fresh es)).Perm
      (upsertEntry job change fresh (upsertEntry other change' fresh' es)) := by
  induction es with
  | nil => simpa [upsertEntry, hf, hf', hne, hne.symm] using List.Perm.swap ..
  | cons e es ih =>
    by_cases he : e.job = job
    · simp [upsertEntry, he, hc, hne]
    · by_cases ho : e.job = other
      · simp [upsertEntry, ho, hc', hne.symm]
      · simpa [upsertEntry, he, ho] using ih

lemma map_untimed_upsertEntry (hc : ∀ e, (change e).untimed = change' e.untimed)
    (hf : fresh.untimed = fresh') (es : List Entry) :
    (upsertEntry job change fresh es).map Entry.untimed =
      upsertEntry job change' fresh' (es.map Entry.untimed) := by
  have hjob : ∀ e : Entry, e.untimed.job = e.job := fun _ => rfl
  induction es with
  | nil => simp [upsertEntry, hf]
  | cons e es ih =>
    by_cases he : e.job = job
    · simp [upsertEntry, he, hjob, hc]
    · simp [upsertEntry, he, hjob, ih]

end EntryLists

namespace Signal

variable (s : Signal) (now : Instant)

lemma untimed_change (e : Entry) : (s.change now e).untimed = s.change 0 e.untimed := by
  cases s with
  | completed b => simp [change, Entry.finish_eq, Entry.untimed, apply_ite]
  | _ => rfl

lemma untimed_fresh : (s.fresh now).untimed = s.fresh 0 := by
  cases s <;> rfl

lemma change_change (e : Entry) : s.change now (s.change now e) = s.change now e := by
  cases s with
  | completed b => simp [change, Entry.finish_eq]
  | _ => rfl

lemma change_fresh (hs : s.IsPlain) : s.change now (s.fresh now) = s.fresh now := by
  cases s with
  | retriggered job others => exact absurd rfl (hs job others)
  | _ => rfl

end Signal

namespace Imprint

lemma untimed_record (i : Imprint) (now : Instant) (s : Signal) :
    (i.record false now s).untimed = i.untimed.record false 0 s := by
  simp only [record_false, upsert, untimed,
    map_untimed_upsertEntry (s.untimed_change now) (s.untimed_fresh now)]

lemma untimed_know (i : Imprint) (now : Instant) (b : Build) :
    (i.know now b).untimed = i.untimed.know 0 b := by
  rw [know_eq_record, untimed_record, know_eq_record]

lemma untimed_seed (i : Imprint) (now : Instant) (s : Signal) :
    (i.seed now s).untimed = i.untimed.seed 0 s := by
  cases s with
  | retriggered job others =>
    induction others generalizing i with
    | nil => rfl
    | cons b others ih => exact (ih _).trans (by rw [untimed_know]; rfl)
  | _ => rfl

lemma record_record_self (i : Imprint) (now : Instant) {s : Signal} (hs : s.IsPlain) :
    (i.record false now s).record false now s = i.record false now s := by
  simp only [record_false, upsert, upsertEntry_upsertEntry_self (s.change_change now)
    (s.change_fresh now hs) (s.change_job now) (s.fresh_job now)]

lemma alike_record_comm (i : Imprint) (now : Instant) {s s' : Signal} (h : s.job ≠ s'.job) :
    ((i.record false now s).record false now s').Alike
      ((i.record false now s').record false now s) := by
  refine ⟨by simp only [record_origin], ?_⟩
  simp only [record_false, upsert]
  exact perm_upsertEntry_comm h (s.change_job now) (s.fresh_job now) (s'.change_job now)
    (s'.fresh_job now) i.entries

end Imprint

namespace Ledger

lemma Sorted.untimed {l : Ledger} (h : l.Sorted) : l.untimed.Sorted := List.pairwise_map.mpr h

lemma get?_untimed (l : Ledger) (k : PatchSetKey) :
    l.untimed.get? k = (l.get? k).map Imprint.untimed := by
  rw [Ledger.untimed, get?, List.find?_map]
  rfl

lemma untimed_put (l : Ledger) (i : Imprint) : (l.put i).untimed = l.untimed.put i.untimed := by
  have hkey : ∀ i : Imprint, i.untimed.key = i.key := fun _ => rfl
  have hlist : ∀ is : List Imprint, (putImprint i is).map Imprint.untimed =
      putImprint i.untimed (is.map Imprint.untimed) := by
    intro is
    induction is with
    | nil => rfl
    | cons j is ih =>
      simp only [putImprint, List.map_cons, hkey, ← ih]
      split_ifs <;> rfl
  rw [put, Ledger.untimed, hlist]
  rfl

lemma untimed_recorded (l : Ledger) (now : Instant) (e : Event) (k : PatchSetKey) (s : Signal) :
    (l.recorded now e k s).untimed = l.untimed.recorded 0 e k s := by
  rw [recorded, recorded, Imprint.untimed_record]
  cases h : l.get? k with
  | some i =>
    have hu : l.untimed.get? k = some i.untimed := by rw [get?_untimed, h, Option.map_some]
    rw [opened_of_get? h, opened_of_get? hu]
  | none =>
    have hu : l.untimed.get? k = none := by rw [get?_untimed, h, Option.map_none]
    rw [opened_of_get?_none h, opened_of_get?_none hu, Imprint.untimed_seed]
    rfl

/-- When a signal arrives does not matter but for the times. -/
lemma untimed_apply_signal (l : Ledger) (now : Instant) (e : Event) (s : Signal) :
    (l.apply (.signal now e s)).untimed = l.untimed.apply (.signal 0 e s) := by
  cases hk : e.key? with
  | none => rw [apply_signal_of_none _ _ _ hk, apply_signal_of_none _ _ _ hk]
  | some k => rw [apply_signal _ _ _ hk, apply_signal _ _ _ hk, untimed_put, untimed_recorded]

section Sorted

variable {l l' : Ledger}

lemma mem_keys_iff (l : Ledger) (k : PatchSetKey) : k ∈ l.keys ↔ (l.get? k).isSome = true := by
  rw [keys, List.mem_map, get?, List.find?_isSome]
  simp

lemma Sorted.keys (h : l.Sorted) : l.keys.Pairwise fun k k' => k.before k' = true :=
  List.pairwise_map.mpr h

lemma Sorted.keys_ext (h : l.Sorted) (h' : l'.Sorted)
    (hget : ∀ k, (l.get? k).isSome = (l'.get? k).isSome) : l.keys = l'.keys := by
  have hperm : l.keys.Perm l'.keys := by
    rw [List.perm_ext_iff_of_nodup h.keys_nodup h'.keys_nodup]
    intro k
    rw [mem_keys_iff, mem_keys_iff, hget]
  exact hperm.eq_of_pairwise
    (fun _ _ _ _ hab hba =>
      absurd rfl (PatchSetKey.ne_of_before (PatchSetKey.before_trans hab hba)))
    h.keys h'.keys

lemma Sorted.forall₂_of_get? {R : Imprint → Imprint → Prop} (h : l.Sorted) (h' : l'.Sorted)
    (hget : ∀ k, Option.Rel R (l.get? k) (l'.get? k)) :
    List.Forall₂ R l.imprints l'.imprints := by
  have hkeys : l.keys = l'.keys := by
    refine h.keys_ext h' fun k => ?_
    have hk := hget k
    cases hl : l.get? k <;> cases hl' : l'.get? k <;> simp_all
  rw [List.forall₂_iff_get]
  refine ⟨by simpa [Ledger.keys] using congrArg List.length hkeys, fun n hn hn' => ?_⟩
  have hkey : l.imprints[n].key = l'.imprints[n].key := by
    simpa [Ledger.keys, hn, hn'] using congrArg (·[n]?) hkeys
  have hn := h.get?_of_mem (List.getElem_mem hn)
  have hn' := h'.get?_of_mem (List.getElem_mem hn')
  have hrel := hget l.imprints[n].key
  rw [hn, hkey, hn'] at hrel
  cases hrel with
  | some hr => exact hr

lemma Sorted.ext (h : l.Sorted) (h' : l'.Sorted) (hget : l.get? = l'.get?) : l = l' := by
  have hrel : ∀ k, Option.Rel Eq (l.get? k) (l'.get? k) := by
    intro k
    rw [hget]
    cases l'.get? k with
    | none => exact .none
    | some i => exact .some rfl
  have himprints := h.forall₂_of_get? h' hrel
  rw [List.forall₂_eq_eq_eq] at himprints
  cases l
  cases l'
  exact congrArg Ledger.mk himprints

end Sorted

section Signals

variable {e e' : Event} {s s' : Signal} {k k' : PatchSetKey}

lemma Residents.recorded_recorded_self (o : Option Imprint) (hs : s.IsPlain) :
    recorded 0 e k s (some (recorded 0 e k s o)) = recorded 0 e k s o := by
  cases o with
  | some i => exact i.record_record_self 0 hs
  | none =>
    simp only [recorded, Imprint.record_true]
    exact Imprint.record_record_self _ 0 hs

lemma Residents.alike_recorded_comm (o : Option Imprint) (hs : s.IsPlain) (hs' : s'.IsPlain)
    (h : s.job ≠ s'.job) :
    (recorded 0 e k s' (some (recorded 0 e k s o))).Alike
      (recorded 0 e k s (some (recorded 0 e k s' o))) := by
  have hseed : ∀ s : Signal, s.IsPlain → ∀ i : Imprint, i.record true 0 s = i.record false 0 s := by
    intro s hs i
    cases s with
    | retriggered job others => exact absurd rfl (hs job others)
    | _ => rfl
  cases o with
  | some i => exact i.alike_record_comm 0 h
  | none =>
    simp only [recorded, hseed s hs, hseed s' hs']
    exact Imprint.alike_record_comm _ 0 h

lemma Residents.apply_comm (m : Residents) (hs : s.IsPlain) (hs' : s'.IsPlain)
    (hne : ∀ k, e.key? = some k → e'.key? = some k → s.job ≠ s'.job ∧ e = e') (k : PatchSetKey) :
    Option.Rel Imprint.Alike ((m.apply (.signal 0 e s)).apply (.signal 0 e' s') k)
      ((m.apply (.signal 0 e' s')).apply (.signal 0 e s) k) := by
  have hrefl : ∀ o : Option Imprint, Option.Rel Imprint.Alike o o := by
    rintro (_ | i)
    · exact .none
    · exact .some ⟨rfl, .refl _⟩
  cases hk : e.key? with
  | none =>
    simp only [apply, hk]
    exact hrefl _
  | some k₁ =>
    cases hk' : e'.key? with
    | none =>
      simp only [apply, hk, hk']
      exact hrefl _
    | some k₂ =>
      simp only [apply, hk, hk']
      by_cases heq : k₁ = k₂
      · subst heq
        obtain ⟨hjob, rfl⟩ := hne k₁ hk hk'
        by_cases hat : k = k₁
        · subst hat
          simpa using alike_recorded_comm (m k) hs hs' hjob
        · simpa [hat] using hrefl (m k)
      · rw [Function.update_of_ne heq, Function.update_of_ne (Ne.symm heq),
          Function.update_comm heq]
        exact hrefl _

lemma Residents.apply_apply_self (m : Residents) (hs : s.IsPlain) :
    (m.apply (.signal 0 e s)).apply (.signal 0 e s) = m.apply (.signal 0 e s) := by
  cases hk : e.key? with
  | none => simp only [apply, hk]
  | some k =>
    simp only [apply, hk, Function.update_self, recorded_recorded_self _ hs, Function.update_idem]

/-- Signals about different jobs, or different patch sets, lead to alike ledgers in both orders, and
a signal that comes twice in a row leads to the same ledger as one, but for the times. -/
theorem Reachable.signals_commute_and_repeat {l : Ledger} (h : Reachable l) :
    (∀ (e e' : Event) (s s' : Signal) (t u t' u' : Instant), s.IsPlain → s'.IsPlain →
      (∀ k, e.key? = some k → e'.key? = some k → s.job ≠ s'.job ∧ e = e') →
      ((l.apply (.signal t e s)).apply (.signal u e' s')).Alike
        ((l.apply (.signal t' e' s')).apply (.signal u' e s))) ∧
    ∀ (e : Event) (s : Signal) (t u : Instant), s.IsPlain →
      ((l.apply (.signal t e s)).apply (.signal u e s)).untimed =
        (l.apply (.signal t e s)).untimed := by
  have hsorted := h.sorted.untimed
  refine ⟨fun e e' s s' t u t' u' hs hs' hne => ?_, fun e s t u hs => ?_⟩
  · simp only [Ledger.Alike, untimed_apply_signal]
    refine ((hsorted.apply _).apply _).forall₂_of_get? ((hsorted.apply _).apply _) fun k => ?_
    simp only [get?_apply]
    exact Residents.apply_comm _ hs hs' hne k
  · simp only [untimed_apply_signal]
    refine ((hsorted.apply _).apply _).ext (hsorted.apply _) ?_
    simp only [get?_apply]
    exact Residents.apply_apply_self _ hs

/-- A completion and a late start of two jobs of a patch set with a cancelled job, in both orders,
and the completion twice. -/
theorem completion_and_start_commute :
    let e := Event.bare ⟨7, 2⟩
    let l := ({} : Ledger).apply (.signal 0 e (.cancelled "docs"))
    let done : Signal := .completed ⟨"verify", 4, some .failure⟩
    let start : Signal := .started ⟨"docs", 9, none⟩
    Reachable l ∧
    ((l.apply (.signal 1 e done)).apply (.signal 2 e start)).Alike
      ((l.apply (.signal 3 e start)).apply (.signal 4 e done)) ∧
    ((l.apply (.signal 1 e done)).apply (.signal 2 e done)).untimed =
      (l.apply (.signal 1 e done)).untimed ∧
    (l.apply (.signal 1 e done)).apply (.signal 2 e done) ≠ l.apply (.signal 1 e done) := by
  intro e l done start
  have hl : Reachable l := .apply _ .empty
  have hdone : done.IsPlain := fun _ _ => nofun
  have hstart : start.IsPlain := fun _ _ => nofun
  have hjobs : done.job ≠ start.job := by decide
  obtain ⟨hcommute, hrepeat⟩ := hl.signals_commute_and_repeat
  exact ⟨hl, hcommute e e done start 1 2 3 4 hdone hstart fun _ _ _ => ⟨hjobs, rfl⟩,
    hrepeat e done 1 2 hdone, by decide⟩

end Signals

end Ledger

end ReviewStream
