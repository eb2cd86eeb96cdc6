import Mathlib.Logic.Function.Basic
import ReviewStream.Proofs.Ledger.Reachable

/-!
# The ledger as a map

What the ledger keeps under each key. Every operation on the ledger is an operation on that map, and
a history of operations leads to the ledger whose look-ups are the map that the same history leads
to.
-/

namespace ReviewStream

lemma modifyEntry_of_find?_eq_none {job : JobName} {change : Entry → Entry} {es : List Entry}
    (h : es.find? (fun e => e.job = job) = none) : modifyEntry job change es = es := by
  induction es with
  | nil => rfl
  | cons e es ih =>
    have hne : ¬ e.job = job := by simpa using List.find?_eq_none.mp h e (by simp)
    rw [List.find?_cons_of_neg (by simpa using hne)] at h
    rw [modifyEntry, if_neg hne, ih h]

namespace Ledger

/-- The imprints that are kept, each under a key. -/
abbrev Residents := PatchSetKey → Option Imprint

namespace Residents

/-- The imprint of a patch set once a signal about it is recorded, given the one before. -/
def recorded (now : Instant) (e : Event) (k : PatchSetKey) (s : Signal) : Option Imprint → Imprint
  | some i => i.record false now s
  | none => (Imprint.mk k e []).record true now s

/-- The map after an operation. -/
def apply (m : Residents) : Operation → Residents
  | .signal now e s =>
    match e.key? with
    | some k => Function.update m k (some (recorded now e k s (m k)))
    | none => m
  | .forget k => Function.update m k none
  | .take k => if (m k).any (·.allCompleted) then Function.update m k none else m
  | .removeJob job => fun k => (m k).map (·.removeJob job)
  | .setCustomUrl k job url =>
    Function.update m k ((m k).map (·.annotate job fun e => { e with customUrl := some url }))
  | .setUnsuccessfulMessage k job text =>
    Function.update m k
      ((m k).map (·.annotate job fun e => { e with unsuccessfulMessage := some text }))

end Residents

lemma recorded_eq (l : Ledger) (now : Instant) (e : Event) (k : PatchSetKey) (s : Signal) :
    l.recorded now e k s = Residents.recorded now e k s (l.get? k) := by
  rw [recorded]
  cases h : l.get? k with
  | some i => rw [opened_of_get? h, Residents.recorded]
  | none => rw [opened_of_get?_none h, Residents.recorded, Imprint.record_true]

lemma get?_put_eq_update (l : Ledger) {i : Imprint} {k : PatchSetKey} (hk : i.key = k) :
    (l.put i).get? = Function.update l.get? k (some i) := by
  funext k'
  rw [get?_put, Function.update_apply, hk]
  exact if_congr eq_comm rfl rfl

lemma get?_forget_eq_update (l : Ledger) (k : PatchSetKey) :
    (l.forget k).get? = Function.update l.get? k none := by
  funext k'
  rw [get?_forget, Function.update_apply]

lemma get?_annotate (l : Ledger) (k : PatchSetKey) (job : JobName) (change : Entry → Entry) :
    (l.annotate k job change).2.get? =
      Function.update l.get? k ((l.get? k).map (·.annotate job change)) := by
  have hsame : Function.update l.get? k (l.get? k) = l.get? := Function.update_eq_self k l.get?
  unfold annotate
  cases h : l.get? k with
  | none => exact (h ▸ hsame).symm
  | some i =>
    cases hj : i.entryOf? job with
    | some e =>
      simp only [hj, Option.isSome_some, if_true]
      have hkey : i.key = k := key_of_get? h
      exact l.get?_put_eq_update hkey
    | none =>
      have hi : i.annotate job change = i := by
        rw [Imprint.annotate, modifyEntry_of_find?_eq_none hj]
      simp only [hj, Option.isSome_none, Bool.false_eq_true, if_false, Option.map_some, hi]
      exact (h ▸ hsame).symm

lemma get?_removeJob (l : Ledger) (job : JobName) (k : PatchSetKey) :
    (l.removeJob job).get? k = (l.get? k).map (·.removeJob job) := by
  rw [removeJob, get?, List.find?_map]
  rfl

lemma get?_apply (l : Ledger) (op : Operation) : (l.apply op).get? = Residents.apply l.get? op := by
  cases op with
  | signal now e s =>
    cases hk : e.key? with
    | none => simp only [apply_signal_of_none _ _ _ hk, Residents.apply, hk]
    | some k =>
      rw [apply_signal _ _ _ hk, get?_put_eq_update _ (recorded_key ..), recorded_eq]
      simp only [Residents.apply, hk]
  | forget k => exact l.get?_forget_eq_update k
  | take k =>
    simp only [apply, takeCompleted_eq, Residents.apply]
    cases h : l.get? k with
    | none => rfl
    | some i =>
      cases hc : i.allCompleted with
      | true => simpa [hc] using l.get?_forget_eq_update k
      | false => simp [hc]
  | removeJob job => exact funext (l.get?_removeJob job)
  | setCustomUrl k job url => exact l.get?_annotate k job _
  | setUnsuccessfulMessage k job text => exact l.get?_annotate k job _

/-- The ledger that a history of operations leads to. -/
def after (ops : List Operation) : Ledger := ops.foldl apply {}

/-- The map that a history of operations leads to. -/
def Residents.after (ops : List Operation) : Residents := ops.foldl apply fun _ => none

lemma reachable_foldl {l : Ledger} (h : Reachable l) (ops : List Operation) :
    Reachable (ops.foldl apply l) := by
  induction ops generalizing l with
  | nil => exact h
  | cons op ops ih => exact ih (.apply op h)

lemma reachable_after (ops : List Operation) : Reachable (after ops) :=
  reachable_foldl .empty ops

lemma get?_foldl (l : Ledger) (ops : List Operation) :
    (ops.foldl apply l).get? = ops.foldl Residents.apply l.get? := by
  induction ops generalizing l with
  | nil => rfl
  | cons op ops ih => rw [List.foldl_cons, ih, get?_apply, List.foldl_cons]

lemma get?_after (ops : List Operation) : (after ops).get? = Residents.after ops :=
  get?_foldl {} ops

end Ledger

end ReviewStream
