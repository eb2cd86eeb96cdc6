import ReviewStream.Proofs.Ledger.Commutation
import ReviewStream.Proofs.Ledger.Building

/-!
# Jobs that start over

A retriggered job goes through the same entries as one that is triggered for the first time, but
for the times and for the notes: what was noted on the entry before stays until it is overwritten.
-/

namespace ReviewStream

/-- The entry with the notes of another one where it has none of its own. -/
def Entry.inheriting (x old : Entry) : Entry :=
  { x with
    customUrl := x.customUrl.or old.customUrl
    unsuccessfulMessage := x.unsuccessfulMessage.or old.unsuccessfulMessage }

lemma find?_modifyEntry_self (job : JobName) {change : Entry → Entry}
    (hc : ∀ x, (change x).job = x.job) (es : List Entry) :
    (modifyEntry job change es).find? (fun x => x.job = job) =
      (es.find? fun x => x.job = job).map change := by
  induction es with
  | nil => rfl
  | cons x es ih =>
    rw [modifyEntry]
    by_cases hx : x.job = job
    · simp [hx, hc]
    · rw [if_neg hx, List.find?_cons_of_neg (by simpa using hx), ih,
        List.find?_cons_of_neg (by simpa using hx)]

lemma Signal.change_inheriting (s : Signal) (now : Instant) (x old : Entry) :
    s.change now (x.inheriting old) = (s.change now x).inheriting old := by
  cases s with
  | completed b => simp [change, Entry.finish_eq, Entry.inheriting]
  | _ => rfl

lemma Entry.untimed_inheriting_eq_iff (x old : Entry) :
    (x.inheriting old).untimed = x.untimed ↔
      (x.customUrl = none → old.customUrl = none) ∧
        (x.unsuccessfulMessage = none → old.unsuccessfulMessage = none) := by
  have hor : ∀ o o' : Option String, o.or o' = o ↔ (o = none → o' = none) := by
    intro o o'
    cases o <;> simp
  simp [inheriting, untimed, hor]

lemma Signal.notes_change (s : Signal) (now : Instant) (x : Entry) :
    (s.change now x).customUrl = x.customUrl ∧
      (s.change now x).unsuccessfulMessage = x.unsuccessfulMessage := by
  cases s with
  | completed b => simp [change, Entry.finish_eq]
  | _ => exact ⟨rfl, rfl⟩

namespace Ledger

namespace Operation

/-- The operation is about a job of a patch set, and neither has it run again nor removes it. -/
def Concerns (k : PatchSetKey) (job : JobName) : Operation → Prop
  | .signal _ e s => e.key? = some k ∧ s.job = job ∧ s.IsPlain
  | .setCustomUrl k' j _ => k' = k ∧ j = job
  | .setUnsuccessfulMessage k' j _ => k' = k ∧ j = job
  | .forget _ | .take _ | .removeJob _ => False

/-- What an operation does to the entry that it is about. -/
def change : Operation → Entry → Entry
  | .signal now _ s, x => s.change now x
  | .setCustomUrl _ _ url, x => { x with customUrl := some url }
  | .setUnsuccessfulMessage _ _ text, x => { x with unsuccessfulMessage := some text }
  | .forget _, x | .take _, x | .removeJob _, x => x

/-- The operation at time zero. -/
def untimed : Operation → Operation
  | .signal _ e s => .signal 0 e s
  | op => op

variable {k : PatchSetKey} {job : JobName} {op : Operation}

lemma concerns_untimed (op : Operation) : op.untimed.Concerns k job ↔ op.Concerns k job := by
  cases op <;> rfl

lemma concerns_of_untimed {ops ops' : List Operation} (h : ops.map untimed = ops'.map untimed)
    (hops : ∀ op ∈ ops, op.Concerns k job) : ∀ op ∈ ops', op.Concerns k job := by
  intro op hop
  have hmem : op.untimed ∈ ops.map untimed := h ▸ List.mem_map_of_mem hop
  obtain ⟨op', hop', hsame⟩ := List.mem_map.mp hmem
  rw [← concerns_untimed, ← hsame, concerns_untimed]
  exact hops op' hop'

lemma untimed_change (op : Operation) (x : Entry) :
    (op.change x).untimed = op.untimed.change x.untimed := by
  cases op with
  | signal now e s => exact s.untimed_change now x
  | _ => rfl

lemma change_inheriting (op : Operation) (x old : Entry) :
    op.change (x.inheriting old) = (op.change x).inheriting old := by
  cases op with
  | signal now e s => exact s.change_inheriting now x old
  | _ => rfl

lemma notes_change (h : op.Concerns k job) (x : Entry) :
    ((op.change x).customUrl = none ↔
        x.customUrl = none ∧ ∀ url, op ≠ .setCustomUrl k job url) ∧
      ((op.change x).unsuccessfulMessage = none ↔
        x.unsuccessfulMessage = none ∧ ∀ text, op ≠ .setUnsuccessfulMessage k job text) := by
  cases op with
  | signal now e s => simp [change, s.notes_change now x]
  | setCustomUrl k' j url =>
    obtain ⟨rfl, rfl⟩ := h
    simp [change]
  | setUnsuccessfulMessage k' j text =>
    obtain ⟨rfl, rfl⟩ := h
    simp [change]
  | _ => exact h.elim

/-- What operations do to the entry that they are about. -/
def changeAll (ops : List Operation) (x : Entry) : Entry := ops.foldl (fun x op => op.change x) x

lemma untimed_changeAll (ops : List Operation) (x : Entry) :
    (changeAll ops x).untimed = changeAll (ops.map untimed) x.untimed := by
  induction ops generalizing x with
  | nil => rfl
  | cons op ops ih => exact (ih (op.change x)).trans (by rw [untimed_change]; rfl)

lemma changeAll_inheriting (ops : List Operation) (x old : Entry) :
    changeAll ops (x.inheriting old) = (changeAll ops x).inheriting old := by
  induction ops generalizing x with
  | nil => rfl
  | cons op ops ih => exact (congrArg _ (op.change_inheriting x old)).trans (ih (op.change x))

lemma notes_changeAll {ops : List Operation} (h : ∀ op ∈ ops, op.Concerns k job) (x : Entry) :
    ((changeAll ops x).customUrl = none ↔
        x.customUrl = none ∧ ∀ url, .setCustomUrl k job url ∉ ops) ∧
      ((changeAll ops x).unsuccessfulMessage = none ↔
        x.unsuccessfulMessage = none ∧ ∀ text, .setUnsuccessfulMessage k job text ∉ ops) := by
  induction ops generalizing x with
  | nil => simp [changeAll]
  | cons op ops ih =>
    obtain ⟨hurl, htext⟩ := notes_change (h op (by simp)) x
    obtain ⟨hurls, htexts⟩ := ih (fun op' hop' => h op' (by simp [hop'])) (op.change x)
    change ((changeAll ops (op.change x)).customUrl = none ↔ _) ∧
      ((changeAll ops (op.change x)).unsuccessfulMessage = none ↔ _)
    rw [hurls, htexts, hurl, htext]
    simp only [List.mem_cons, not_or, forall_and, and_assoc, ne_eq, eq_comm, and_self]

end Operation

lemma entryOf?_apply_of_concerns {l : Ledger} {k : PatchSetKey} {job : JobName} {op : Operation}
    {x : Entry} (h : op.Concerns k job) (hx : l.entryOf? k job = some x) :
    (l.apply op).entryOf? k job = some (op.change x) := by
  have hannotate : ∀ change : Entry → Entry, (∀ x, (change x).job = x.job) →
      (l.annotate k job change).2.entryOf? k job = some (change x) := by
    intro change hc
    obtain ⟨i, hi, hix⟩ := Option.bind_eq_some_iff.mp hx
    rw [entryOf?, get?_annotate, Function.update_self, hi, Option.map_some, Option.bind_some,
      Imprint.entryOf?, Imprint.annotate, find?_modifyEntry_self job hc]
    exact congrArg (Option.map change) hix
  cases op with
  | signal now e s =>
    obtain ⟨hk, rfl, hs⟩ := h
    have hstep := l.entryOf?_apply_signal_of_ne now hk hs
    rw [hx] at hstep
    exact hstep
  | setCustomUrl k' j url =>
    obtain ⟨rfl, rfl⟩ := h
    exact hannotate _ fun _ => rfl
  | setUnsuccessfulMessage k' j text =>
    obtain ⟨rfl, rfl⟩ := h
    exact hannotate _ fun _ => rfl
  | _ => exact h.elim

lemma entryOf?_foldl_of_concerns {l : Ledger} {k : PatchSetKey} {job : JobName}
    {ops : List Operation} {x : Entry} (h : ∀ op ∈ ops, op.Concerns k job)
    (hx : l.entryOf? k job = some x) :
    (ops.foldl apply l).entryOf? k job = some (Operation.changeAll ops x) := by
  induction ops generalizing l x with
  | nil => exact hx
  | cons op ops ih =>
    exact ih (fun op' hop' => h op' (by simp [hop']))
      (entryOf?_apply_of_concerns (h op (by simp)) hx)

lemma entryOf?_apply_triggered (l : Ledger) (t : Instant) {e : Event} {k : PatchSetKey}
    {job : JobName} (hk : e.key? = some k) (hnone : l.entryOf? k job = none) :
    (l.apply (.signal t e (.triggered job))).entryOf? k job = some (.triggered job t) := by
  have hstep := l.entryOf?_apply_signal_of_ne t hk (s := .triggered job) (by simp)
  rw [Signal.job, hnone] at hstep
  exact hstep

lemma entryOf?_apply_retriggered (l : Ledger) (t : Instant) {e : Event} {k : PatchSetKey}
    {job : JobName} {x : Entry} (hk : e.key? = some k) (hx : l.entryOf? k job = some x)
    (others : List Build) :
    (l.apply (.signal t e (.retriggered job others))).entryOf? k job = some x.reset := by
  obtain ⟨i, hi, hix⟩ := Option.bind_eq_some_iff.mp hx
  have hstep := l.entryOf?_apply_signal t (.retriggered job others) hk
  rw [opened_of_get? hi, Signal.job, hix] at hstep
  exact hstep

lemma get?_of_takeCompleted {l rest : Ledger} {k : PatchSetKey} {i : Imprint}
    (h : l.takeCompleted k = some (i, rest)) : l.get? k = some i := by
  rw [takeCompleted_eq] at h
  obtain ⟨i', hi', h⟩ := Option.bind_eq_some_iff.mp h
  obtain ⟨-, h⟩ := Option.ite_none_right_eq_some.mp h
  have hi : i' = i := congrArg Prod.fst (Option.some.inj h)
  rw [hi', hi]

/-- A retriggered job goes through the entries of a job that is triggered for the first time, but
for the times and for the notes that its entry had before and that are not written anew. That entry
is the only one of the job in the imprint, also in one that is taken out. -/
theorem Reachable.retriggered_starts_over {l l' : Ledger} (h : Reachable l) {k : PatchSetKey}
    {job : JobName} {x : Entry} (hx : l.entryOf? k job = some x)
    (hnone : l'.entryOf? k job = none) {e e' : Event} (hk : e.key? = some k)
    (hk' : e'.key? = some k) (t t' : Instant) {ops ops' : List Operation}
    (hops : ∀ op ∈ ops, op.Concerns k job)
    (hsame : ops.map Operation.untimed = ops'.map Operation.untimed) :
    let again := ops.foldl Ledger.apply (l.apply (.signal t e (.retriggered job [])))
    let first := ops'.foldl Ledger.apply (l'.apply (.signal t' e' (.triggered job)))
    ∃ y z : Entry, again.entryOf? k job = some y ∧ first.entryOf? k job = some z ∧
      y.untimed = (z.inheriting x).untimed ∧
      (y.untimed = z.untimed ↔
        (x.customUrl = none ∨ ∃ url, .setCustomUrl k job url ∈ ops) ∧
        (x.unsuccessfulMessage = none ∨ ∃ text, .setUnsuccessfulMessage k job text ∈ ops)) ∧
      ∀ i, again.get? k = some i ∨ (∃ rest, again.takeCompleted k = some (i, rest)) →
        ∀ w ∈ i.entries, w.job = job → w = y := by
  intro again first
  let y := Operation.changeAll ops x.reset
  let z := Operation.changeAll ops' (.triggered job t')
  have hy : again.entryOf? k job = some y :=
    entryOf?_foldl_of_concerns hops (l.entryOf?_apply_retriggered t hk hx [])
  have hz : first.entryOf? k job = some z :=
    entryOf?_foldl_of_concerns (Operation.concerns_of_untimed hsame hops)
      (l'.entryOf?_apply_triggered t' hk' hnone)
  have hjob : x.job = job := by
    obtain ⟨i, -, hi⟩ := Option.bind_eq_some_iff.mp hx
    exact Imprint.job_of_entryOf? hi
  have hstart : x.reset.untimed = ((Entry.triggered job t').inheriting x).untimed := by
    simp [Entry.reset, Entry.triggered, Entry.inheriting, Entry.untimed, hjob]
  have huntimed : y.untimed = (z.inheriting x).untimed := by
    rw [Operation.untimed_changeAll, hstart, hsame, ← Operation.untimed_changeAll,
      Operation.changeAll_inheriting]
  -- `z` has the notes that the operations write, at whatever times they do
  obtain ⟨hurls, htexts⟩ := Operation.notes_changeAll hops (.triggered job t')
  have hshift : z.untimed = (Operation.changeAll ops (.triggered job t')).untimed := by
    rw [Operation.untimed_changeAll, Operation.untimed_changeAll, hsame]
  have hurl : z.customUrl = (Operation.changeAll ops (.triggered job t')).customUrl := by
    simpa [Entry.untimed] using congrArg Entry.customUrl hshift
  have htext : z.unsuccessfulMessage =
      (Operation.changeAll ops (.triggered job t')).unsuccessfulMessage := by
    simpa [Entry.untimed] using congrArg Entry.unsuccessfulMessage hshift
  refine ⟨y, z, hy, hz, huntimed, ?_, fun i hi w hw hj => ?_⟩
  · rw [huntimed, Entry.untimed_inheriting_eq_iff, hurl, htext, hurls, htexts]
    simp only [or_iff_not_imp_right, not_exists, Entry.triggered, true_and]
  · have hget : again.get? k = some i := by
      rcases hi with hi | ⟨rest, htake⟩
      · exact hi
      · exact get?_of_takeCompleted htake
    have hreach : Reachable again := reachable_foldl (h.apply _) ops
    have hw : i.entryOf? w.job = some w :=
      Imprint.entryOf?_of_mem (hreach.nodup_jobs i (mem_of_get? hget)) hw
    rw [entryOf?, hget, Option.bind_some, ← hj, hw] at hy
    exact Option.some.inj hy

/-- A job fails, gets an address and a reason, runs again and fails once more. The second time only
the reason is written anew, so that the address of the first build stays. -/
theorem retriggered_keeps_custom_url :
    let k : PatchSetKey := ⟨9, 1⟩
    let e := Event.bare k
    let l := (((({} : Ledger).apply (.signal 0 e (.triggered "lint"))).apply
      (.signal 1 e (.completed ⟨"verify", 3, some .failure⟩))).apply
        (.setCustomUrl k "verify" "https://ci/3")).apply
          (.setUnsuccessfulMessage k "verify" "flaky")
    let ops : Instant → List Operation := fun t =>
      [.signal t e (.started ⟨"verify", 4, none⟩), .setUnsuccessfulMessage k "verify" "broken",
        .signal (t + 1) e (.completed ⟨"verify", 4, some .failure⟩)]
    Reachable l ∧ ({} : Ledger).entryOf? k "verify" = none ∧
      (∀ op ∈ ops 3, op.Concerns k "verify") ∧
      (ops 3).map Operation.untimed = (ops 1).map Operation.untimed ∧
      ∃ x y z : Entry, l.entryOf? k "verify" = some x ∧
        ((ops 3).foldl Ledger.apply
          (l.apply (.signal 2 e (.retriggered "verify" [])))).entryOf? k "verify" = some y ∧
        ((ops 1).foldl Ledger.apply
          (({} : Ledger).apply (.signal 0 e (.triggered "verify")))).entryOf? k "verify" = some z ∧
        y.untimed = (z.inheriting x).untimed ∧ y.untimed ≠ z.untimed := by
  intro k e l ops
  have hl : Reachable l := .apply _ (.apply _ (.apply _ (.apply _ .empty)))
  have hops : ∀ op ∈ ops 3, op.Concerns k "verify" := by
    simp only [ops, List.forall_mem_cons]
    exact ⟨⟨rfl, rfl, fun _ _ => nofun⟩, ⟨rfl, rfl⟩, ⟨rfl, rfl, fun _ _ => nofun⟩, by simp⟩
  obtain ⟨x, hx, hold⟩ : ∃ x, l.entryOf? k "verify" = some x ∧ x.customUrl = some "https://ci/3" :=
    ⟨_, rfl, by decide⟩
  have hnone : ({} : Ledger).entryOf? k "verify" = none := rfl
  have hsame : (ops 3).map Operation.untimed = (ops 1).map Operation.untimed := rfl
  have hk := Event.key?_bare k
  obtain ⟨y, z, hy, hz, hyz, hiff, -⟩ := hl.retriggered_starts_over hx hnone hk hk 2 0 hops hsame
  refine ⟨hl, hnone, hops, hsame, x, y, z, hx, hy, hz, hyz, fun heq => ?_⟩
  rcases (hiff.mp heq).1 with hurl | ⟨url, hurl⟩
  · rw [hold] at hurl
    cases hurl
  · simp [ops] at hurl

/-- The reason why a build was not successful is told of the successful one that follows it. -/
theorem unsuccessful_message_outlives_build :
    let k : PatchSetKey := ⟨1, 1⟩
    let e := Event.bare k
    let l := (({} : Ledger).apply (.signal 0 e (.completed ⟨"verify", 1, some .failure⟩))).apply
      (.setUnsuccessfulMessage k "verify" "flaky")
    let done : Operation := .signal 2 e (.completed ⟨"verify", 2, some .success⟩)
    let again := (l.apply (.signal 1 e (.retriggered "verify" []))).apply done
    let first := (({} : Ledger).apply (.signal 1 e (.triggered "verify"))).apply done
    (again.takeCompleted k).map (fun r => r.1.entries.map fun x =>
        (x.result, x.unsuccessfulMessage)) = some [(some .success, some "flaky")] ∧
      (first.takeCompleted k).map (fun r => r.1.entries.map fun x =>
        (x.result, x.unsuccessfulMessage)) = some [(some .success, none)] := by
  decide

end Ledger
end ReviewStream
