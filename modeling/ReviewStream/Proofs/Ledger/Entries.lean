import Mathlib.Tactic.Lemma
import ReviewStream.Ledger.Imprint

/-!
# Entries under signals

A signal acts on the entry of its own job and on no other: it changes the entry if the imprint has
one, and adds a fresh one at the end otherwise. This file writes every signal in that form and reads
the entries of the resulting imprint off it.
-/

namespace ReviewStream

lemma Entry.finish_eq (e : Entry) (b : Build) (now : Instant) :
    e.finish b now =
      { e with
        build := some b
        completed := true
        startedAt := if e.build.isNone then some now else e.startedAt
        completedAt := some now } := by
  cases h : e.build <;> simp [finish, start, close, h]

namespace Signal

/-- What a signal does to the entry of its job. -/
def change (now : Instant) : Signal → Entry → Entry
  | .triggered _, e => e
  | .retriggered _ _, e => e.reset
  | .started b, e => e.start b now
  | .completed b, e => e.finish b now
  | .cancelled _, e => e.cancel now

/-- The entry that a signal adds for a job without one. -/
def fresh (now : Instant) : Signal → Entry
  | .triggered job => .triggered job now
  | .retriggered job _ => .triggered job now
  | .started b => .started b now
  | .completed b => (Entry.started b now).close now
  | .cancelled job => (Entry.triggered job now).cancel now

/-- The entry of the signal's job after the signal, given the one before. -/
def touch (s : Signal) (now : Instant) (e : Option Entry) : Entry :=
  (e.map (s.change now)).getD (s.fresh now)

/-- A job is reported to be done, one way or the other. -/
def isFinal : Signal → Bool
  | .completed _ | .cancelled _ => true
  | .triggered _ | .retriggered _ _ | .started _ => false

@[simp] lemma change_job (s : Signal) (now : Instant) (e : Entry) :
    (s.change now e).job = e.job := by
  cases s with
  | completed b => rw [change, Entry.finish_eq]
  | _ => rfl

@[simp] lemma fresh_job (s : Signal) (now : Instant) : (s.fresh now).job = s.job := by
  cases s <;> rfl

lemma touch_retriggered_completed (job : JobName) (others : List Build) (now : Instant)
    (e : Option Entry) : ((retriggered job others).touch now e).completed = false := by
  cases e <;> rfl

lemma touch_open {s : Signal} (h : s.isFinal = false) (now : Instant) (e : Option Entry)
    (he : ∀ x, e = some x → x.completed = false) : (s.touch now e).completed = false := by
  cases e with
  | none => cases s <;> first | rfl | simp [isFinal] at h
  | some x =>
    have hx := he x rfl
    cases s <;> first | exact hx | rfl | simp [isFinal] at h

end Signal

lemma find?_eq_some_of_nodup {α β : Type} [DecidableEq β] {name : α → β} {xs : List α} {x : α}
    (hn : (xs.map name).Nodup) (hx : x ∈ xs) :
    xs.find? (fun y => name y = name x) = some x := by
  induction xs with
  | nil => simp at hx
  | cons y ys ih =>
    obtain ⟨hy, hn⟩ := List.nodup_cons.mp hn
    rcases List.mem_cons.mp hx with rfl | hx
    · simp
    · have hne : name y ≠ name x := fun he => hy (he ▸ List.mem_map_of_mem hx)
      rw [List.find?_cons_of_neg (by simpa using hne)]
      exact ih hn hx

section EntryLists

variable (job : JobName) (change : Entry → Entry) (fresh : Entry)

lemma find?_upsertEntry_self (hc : ∀ e, (change e).job = e.job) (hf : fresh.job = job)
    (es : List Entry) :
    (upsertEntry job change fresh es).find? (fun e => e.job = job) =
      some (((es.find? fun e => e.job = job).map change).getD fresh) := by
  induction es with
  | nil => simp [upsertEntry, hf]
  | cons e es ih =>
    rw [upsertEntry]
    by_cases he : e.job = job
    · simp [he, hc]
    · simp only [he, if_false, List.find?_cons, decide_false]
      exact ih

lemma find?_upsertEntry_of_ne (hc : ∀ e, (change e).job = e.job) (hf : fresh.job = job)
    {other : JobName} (ho : other ≠ job) (es : List Entry) :
    (upsertEntry job change fresh es).find? (fun e => e.job = other) =
      es.find? fun e => e.job = other := by
  have hj : job ≠ other := fun h => ho h.symm
  induction es with
  | nil => simp [upsertEntry, hf, hj]
  | cons e es ih =>
    rw [upsertEntry]
    by_cases he : e.job = job
    · simp [he, hc, hj]
    · simp only [he, if_false, List.find?_cons, ih]

lemma mem_upsertEntry {e : Entry} {es : List Entry} (h : e ∈ upsertEntry job change fresh es) :
    e = fresh ∨ e ∈ es ∨ ∃ x ∈ es, x.job = job ∧ e = change x := by
  induction es with
  | nil => exact .inl (by simpa [upsertEntry] using h)
  | cons x es ih =>
    rw [upsertEntry] at h
    by_cases hx : x.job = job
    · rw [if_pos hx, List.mem_cons] at h
      rcases h with rfl | h
      · exact .inr (.inr ⟨x, by simp, hx, rfl⟩)
      · exact .inr (.inl (by simp [h]))
    · rw [if_neg hx, List.mem_cons] at h
      rcases h with rfl | h
      · exact .inr (.inl (by simp))
      · rcases ih h with h | h | ⟨y, hy, hj, rfl⟩
        · exact .inl h
        · exact .inr (.inl (by simp [h]))
        · exact .inr (.inr ⟨y, by simp [hy], hj, rfl⟩)

lemma mem_upsertEntry_of_nodup {e : Entry} {es : List Entry}
    (hn : (es.map Entry.job).Nodup) (h : e ∈ upsertEntry job change fresh es) :
    (e ∈ es ∧ e.job ≠ job) ∨ (∃ x ∈ es, x.job = job ∧ e = change x) ∨
      (e = fresh ∧ job ∉ es.map Entry.job) := by
  induction es with
  | nil => exact .inr (.inr ⟨by simpa [upsertEntry] using h, by simp⟩)
  | cons x es ih =>
    obtain ⟨hx, hn⟩ := List.nodup_cons.mp hn
    rw [upsertEntry] at h
    by_cases hj : x.job = job
    · rw [if_pos hj, List.mem_cons] at h
      rcases h with rfl | h
      · exact .inr (.inl ⟨x, by simp, hj, rfl⟩)
      · refine .inl ⟨by simp [h], fun he => hx ?_⟩
        rw [hj, ← he]
        exact List.mem_map_of_mem h
    · rw [if_neg hj, List.mem_cons] at h
      rcases h with rfl | h
      · exact .inl ⟨by simp, hj⟩
      · rcases ih hn h with ⟨h, hne⟩ | ⟨y, hy, h⟩ | ⟨h, hm⟩
        · exact .inl ⟨by simp [h], hne⟩
        · exact .inr (.inl ⟨y, by simp [hy], h⟩)
        · refine .inr (.inr ⟨h, ?_⟩)
          rw [List.map_cons, List.mem_cons, not_or]
          exact ⟨fun he => hj he.symm, hm⟩

lemma mem_upsertEntry_of_mem {x : Entry} {es : List Entry} (h : x ∈ es) :
    x ∈ upsertEntry job change fresh es ∨ change x ∈ upsertEntry job change fresh es := by
  induction es with
  | nil => simp at h
  | cons y es ih =>
    rw [upsertEntry]
    by_cases hy : y.job = job
    · rw [if_pos hy]
      rcases List.mem_cons.mp h with rfl | h
      · exact .inr (by simp)
      · exact .inl (by simp [h])
    · rw [if_neg hy]
      rcases List.mem_cons.mp h with rfl | h
      · exact .inl (by simp)
      · exact (ih h).imp (List.mem_cons_of_mem _) (List.mem_cons_of_mem _)

lemma map_job_upsertEntry (hc : ∀ e, (change e).job = e.job) (hf : fresh.job = job)
    (es : List Entry) :
    (upsertEntry job change fresh es).map Entry.job =
      if job ∈ es.map Entry.job then es.map Entry.job else es.map Entry.job ++ [job] := by
  induction es with
  | nil => simp [upsertEntry, hf]
  | cons e es ih =>
    rw [upsertEntry]
    by_cases he : e.job = job
    · simp [he, hc]
    · have hj : job ≠ e.job := fun h => he h.symm
      rw [if_neg he, List.map_cons, ih]
      by_cases hm : job ∈ es.map Entry.job
      · rw [if_pos hm, if_pos (by simp [hm]), List.map_cons]
      · rw [if_neg hm, if_neg (by simpa [hj] using hm), List.map_cons, List.cons_append]

lemma nodup_upsertEntry (hc : ∀ e, (change e).job = e.job) (hf : fresh.job = job)
    {es : List Entry} (hn : (es.map Entry.job).Nodup) :
    ((upsertEntry job change fresh es).map Entry.job).Nodup := by
  rw [map_job_upsertEntry job change fresh hc hf]
  by_cases hm : job ∈ es.map Entry.job
  · rw [if_pos hm]
    exact hn
  · rw [if_neg hm]
    exact List.nodup_append.mpr ⟨hn, by simp, fun a ha b hb hab => hm (by
      rw [List.mem_singleton.mp hb] at hab
      exact hab ▸ ha)⟩

end EntryLists

namespace Imprint

/-- What an imprint is opened for. -/
def origin (i : Imprint) : PatchSetKey × Event := (i.key, i.event)

/-- The imprint with the other builds of a retriggered job taken over. -/
def seed (i : Imprint) (now : Instant) : Signal → Imprint
  | .retriggered _ others => others.foldl (fun i b => i.know now b) i
  | _ => i

lemma record_false (i : Imprint) (now : Instant) (s : Signal) :
    i.record false now s = i.upsert s.job (s.change now) (s.fresh now) := by
  cases s <;> rfl

lemma record_true (i : Imprint) (now : Instant) (s : Signal) :
    i.record true now s = (i.seed now s).record false now s := by
  cases s <;> rfl

lemma know_origin (i : Imprint) (now : Instant) (b : Build) :
    (i.know now b).origin = i.origin := by
  unfold know
  split <;> rfl

/-- What is kept when a build becomes known is kept when an imprint is seeded with builds. -/
lemma seed_induction {P : Imprint → Prop} {now : Instant}
    (hknow : ∀ (i : Imprint) (b : Build), P i → P (i.know now b)) {i : Imprint} (s : Signal)
    (hi : P i) : P (i.seed now s) := by
  cases s with
  | retriggered job others =>
    induction others generalizing i with
    | nil => exact hi
    | cons b others ih => exact ih (hknow i b hi)
  | _ => exact hi

@[simp] lemma seed_origin (i : Imprint) (now : Instant) (s : Signal) :
    (i.seed now s).origin = i.origin :=
  seed_induction (P := fun j => j.origin = i.origin) (fun j b hj => (j.know_origin now b).trans hj)
    s rfl

@[simp] lemma record_origin (i : Imprint) (now : Instant) (s : Signal) :
    (i.record false now s).origin = i.origin := by
  rw [record_false]
  rfl

lemma entryOf?_record_self (i : Imprint) (now : Instant) (s : Signal) :
    (i.record false now s).entryOf? s.job = some (s.touch now (i.entryOf? s.job)) := by
  rw [record_false]
  exact find?_upsertEntry_self s.job _ _ (s.change_job now) (s.fresh_job now) i.entries

lemma entryOf?_record_of_ne (i : Imprint) (now : Instant) {s : Signal} {job : JobName}
    (h : job ≠ s.job) : (i.record false now s).entryOf? job = i.entryOf? job := by
  rw [record_false]
  exact find?_upsertEntry_of_ne s.job _ _ (s.change_job now) (s.fresh_job now) h i.entries

lemma mem_entries_of_entryOf? {i : Imprint} {job : JobName} {e : Entry}
    (h : i.entryOf? job = some e) : e ∈ i.entries :=
  List.mem_of_find?_eq_some h

lemma job_of_entryOf? {i : Imprint} {job : JobName} {e : Entry} (h : i.entryOf? job = some e) :
    e.job = job := by
  simpa using List.find?_some h

lemma entryOf?_of_mem {i : Imprint} {e : Entry} (hn : (i.entries.map Entry.job).Nodup)
    (he : e ∈ i.entries) : i.entryOf? e.job = some e :=
  find?_eq_some_of_nodup hn he

lemma touch_mem_record (i : Imprint) (now : Instant) (s : Signal) :
    s.touch now (i.entryOf? s.job) ∈ (i.record false now s).entries :=
  mem_entries_of_entryOf? (entryOf?_record_self i now s)

end Imprint

end ReviewStream
