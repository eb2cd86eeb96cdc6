import ReviewStream.Ledger.Basic
import ReviewStream.Proofs.Ledger.Entries

/-!
# Looking things up in the ledger

What is found under a key after each operation on the ledger. A signal about a patch set is
recorded in the imprint that is resident, or else in one opened for it, and leaves all other patch
sets alone.
-/

namespace ReviewStream

/-- An event about a patch set of which nothing but the key is known. -/
def Event.bare (k : PatchSetKey) : Event :=
  .patchSetCreated
    { change := ⟨"", "", "", k.change, "", none, none⟩, patchSet := ⟨k.patchSet, "", "", none⟩
      provider := none, createdOn := .epoch }

lemma Event.key?_bare (k : PatchSetKey) : (Event.bare k).key? = some k := rfl

lemma find?_putImprint (i : Imprint) (k : PatchSetKey) (is : List Imprint) :
    (putImprint i is).find? (fun x => x.key = k) =
      if i.key = k then some i else is.find? fun x => x.key = k := by
  induction is with
  | nil => by_cases h : i.key = k <;> simp [putImprint, h]
  | cons x is ih =>
    rw [putImprint]
    by_cases hb : i.key.before x.key = true
    · rw [if_pos hb]
      by_cases h : i.key = k <;> simp [h]
    · rw [if_neg hb]
      by_cases he : i.key = x.key
      · rw [if_pos he]
        by_cases h : i.key = k
        · simp [h]
        · simp [h, he ▸ h]
      · rw [if_neg he, List.find?_cons, ih, List.find?_cons]
        by_cases h : i.key = k
        · have hx : x.key ≠ k := fun hx => he (h.trans hx.symm)
          simp [h, hx]
        · simp [h]

namespace Ledger

def entryOf? (l : Ledger) (k : PatchSetKey) (job : JobName) : Option Entry :=
  (l.get? k).bind (·.entryOf? job)

def entries (l : Ledger) (k : PatchSetKey) : List Entry :=
  ((l.get? k).map Imprint.entries).getD []

/-- The imprint in which a signal about a patch set is recorded: the one that is resident, or one
opened for the event. -/
def opened (l : Ledger) (now : Instant) (e : Event) (k : PatchSetKey) (s : Signal) : Imprint :=
  match l.get? k with
  | some i => i
  | none => (Imprint.mk k e []).seed now s

/-- The imprint of a patch set once a signal about it is recorded. -/
def recorded (l : Ledger) (now : Instant) (e : Event) (k : PatchSetKey) (s : Signal) : Imprint :=
  (l.opened now e k s).record false now s

lemma key_of_get? {l : Ledger} {k : PatchSetKey} {i : Imprint} (h : l.get? k = some i) :
    i.key = k := by
  simpa using List.find?_some h

lemma mem_of_get? {l : Ledger} {k : PatchSetKey} {i : Imprint} (h : l.get? k = some i) :
    i ∈ l.imprints :=
  List.mem_of_find?_eq_some h

lemma get?_put (l : Ledger) (i : Imprint) (k : PatchSetKey) :
    (l.put i).get? k = if i.key = k then some i else l.get? k :=
  find?_putImprint i k l.imprints

lemma get?_forget (l : Ledger) (k k' : PatchSetKey) :
    (l.forget k).get? k' = if k' = k then none else l.get? k' := by
  unfold forget get?
  rw [List.find?_filter]
  by_cases h : k' = k
  · subst h
    rw [if_pos rfl, List.find?_eq_none]
    intro i _
    simp
  · rw [if_neg h]
    congr 1
    funext i
    by_cases hi : i.key = k'
    · simp [hi, h]
    · simp [hi]

lemma opened_of_get? {l : Ledger} {k : PatchSetKey} {i : Imprint} (h : l.get? k = some i)
    (now : Instant) (e : Event) (s : Signal) : l.opened now e k s = i := by
  unfold opened
  rw [h]

lemma opened_of_get?_none {l : Ledger} {k : PatchSetKey} (h : l.get? k = none) (now : Instant)
    (e : Event) (s : Signal) : l.opened now e k s = (Imprint.mk k e []).seed now s := by
  unfold opened
  rw [h]

lemma recorded_origin (l : Ledger) (now : Instant) (e : Event) (k : PatchSetKey) (s : Signal) :
    (l.recorded now e k s).origin = ((l.get? k).map Imprint.origin).getD (k, e) := by
  unfold recorded
  rw [Imprint.record_origin]
  cases h : l.get? k with
  | some i => rw [opened_of_get? h]; rfl
  | none => rw [opened_of_get?_none h, Imprint.seed_origin]; rfl

@[simp] lemma recorded_key (l : Ledger) (now : Instant) (e : Event) (k : PatchSetKey) (s : Signal) :
    (l.recorded now e k s).key = k := by
  have ho := congrArg Prod.fst (l.recorded_origin now e k s)
  cases h : l.get? k with
  | some i =>
    rw [h] at ho
    exact ho.trans (key_of_get? h)
  | none =>
    rw [h] at ho
    exact ho

lemma get?_put_recorded (l : Ledger) (now : Instant) (e : Event) (k : PatchSetKey) (s : Signal) :
    (l.put (l.recorded now e k s)).get? k = some (l.recorded now e k s) := by
  rw [get?_put, recorded_key, if_pos rfl]

lemma record_eq_ok (l : Ledger) (now : Instant) {e : Event} {k : PatchSetKey} (s : Signal)
    (hk : e.key? = some k) : l.record now e s = .ok (k, l.put (l.recorded now e k s)) := by
  unfold record recorded
  rw [hk]
  cases h : l.get? k with
  | some i => simp only [h, opened_of_get? h]
  | none => simp only [h, opened_of_get?_none h, Imprint.record_true]

lemma record_eq_error (l : Ledger) (now : Instant) {e : Event} (s : Signal) (hk : e.key? = none) :
    l.record now e s = .error ⟨e.kind⟩ := by
  unfold record
  rw [hk]

lemma recorded_entries (l : Ledger) (now : Instant) (e : Event) (k : PatchSetKey) {s : Signal}
    (hs : ∀ job others, s ≠ .retriggered job others) :
    (l.recorded now e k s).entries =
      upsertEntry s.job (s.change now) (s.fresh now) (l.entries k) := by
  rw [recorded, Imprint.record_false, entries]
  cases h : l.get? k with
  | some i => rw [opened_of_get? h]; rfl
  | none =>
    rw [opened_of_get?_none h]
    cases s with
    | retriggered job others => exact absurd rfl (hs job others)
    | _ => rfl

lemma takeCompleted_eq (l : Ledger) (k : PatchSetKey) :
    l.takeCompleted k =
      (l.get? k).bind fun i => if i.allCompleted then some (i, l.forget k) else none := by
  unfold takeCompleted
  cases l.get? k <;> rfl

lemma isIncomplete_eq (l : Ledger) (job : JobName) (k : PatchSetKey) :
    l.isIncomplete job k = ((l.entryOf? k job).map Entry.isBuilding).getD false := by
  unfold isIncomplete isTriggered isBuilding entryOf?
  cases (l.get? k).bind (·.entryOf? job) <;> simp

end Ledger

end ReviewStream
