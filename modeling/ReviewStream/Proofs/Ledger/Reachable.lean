import ReviewStream.Proofs.Ledger.Lookup

/-!
# Reachable ledgers

The ledger is changed by signals, by patch sets that are forgotten or taken out, by jobs that are
dropped and by what users write on entries. A property of imprints, or of entries, that all these
operations keep holds throughout every ledger they lead to.
-/

namespace ReviewStream

lemma mem_putImprint {i x : Imprint} {is : List Imprint} (h : x ∈ putImprint i is) :
    x = i ∨ x ∈ is := by
  induction is with
  | nil => exact .inl (by simpa [putImprint] using h)
  | cons y is ih =>
    rw [putImprint] at h
    by_cases hb : i.key.before y.key = true
    · rw [if_pos hb] at h
      exact List.mem_cons.mp h
    · rw [if_neg hb] at h
      by_cases he : i.key = y.key
      · rw [if_pos he] at h
        exact (List.mem_cons.mp h).imp_right (List.mem_cons_of_mem _)
      · rw [if_neg he] at h
        rcases List.mem_cons.mp h with rfl | h
        · exact .inr (by simp)
        · exact (ih h).imp_right (List.mem_cons_of_mem _)

lemma mem_modifyEntry {job : JobName} {change : Entry → Entry} {e : Entry} {es : List Entry}
    (h : e ∈ modifyEntry job change es) : e ∈ es ∨ ∃ x ∈ es, e = change x := by
  induction es with
  | nil => simp [modifyEntry] at h
  | cons x es ih =>
    rw [modifyEntry] at h
    by_cases hx : x.job = job
    · rw [if_pos hx] at h
      rcases List.mem_cons.mp h with rfl | h
      · exact .inr ⟨x, by simp, rfl⟩
      · exact .inl (by simp [h])
    · rw [if_neg hx] at h
      rcases List.mem_cons.mp h with rfl | h
      · exact .inl (by simp)
      · rcases ih h with h | ⟨y, hy, rfl⟩
        · exact .inl (by simp [h])
        · exact .inr ⟨y, by simp [hy], rfl⟩

lemma Imprint.know_eq_record (i : Imprint) (now : Instant) (b : Build) :
    i.know now b = i.record false now (if b.isRunning then .started b else .completed b) := by
  unfold know
  split <;> rfl

namespace Ledger

inductive Operation where
  | signal (now : Instant) (event : Event) (signal : Signal)
  | forget (key : PatchSetKey)
  | take (key : PatchSetKey)
  | removeJob (job : JobName)
  | setCustomUrl (key : PatchSetKey) (job : JobName) (url : String)
  | setUnsuccessfulMessage (key : PatchSetKey) (job : JobName) (text : String)

/-- The ledger after an operation. A refused signal changes nothing. -/
def apply (l : Ledger) : Operation → Ledger
  | .signal now e s =>
    match l.record now e s with
    | .ok (_, l') => l'
    | .error _ => l
  | .forget k => l.forget k
  | .take k =>
    match l.takeCompleted k with
    | some (_, l') => l'
    | none => l
  | .removeJob job => l.removeJob job
  | .setCustomUrl k job url => (l.setCustomUrl k job url).2
  | .setUnsuccessfulMessage k job text => (l.setUnsuccessfulMessage k job text).2

/-- The ledgers that operations lead to. -/
inductive Reachable : Ledger → Prop where
  | empty : Reachable {}
  | apply {l : Ledger} (op : Operation) : Reachable l → Reachable (l.apply op)

lemma apply_signal (l : Ledger) (now : Instant) {e : Event} {k : PatchSetKey} (s : Signal)
    (hk : e.key? = some k) : l.apply (.signal now e s) = l.put (l.recorded now e k s) := by
  simp only [apply, l.record_eq_ok now s hk]

lemma apply_signal_of_none (l : Ledger) (now : Instant) {e : Event} (s : Signal)
    (hk : e.key? = none) : l.apply (.signal now e s) = l := by
  simp only [apply, l.record_eq_error now s hk]

lemma apply_take (l : Ledger) (k : PatchSetKey) :
    l.apply (.take k) = l ∨ l.apply (.take k) = l.forget k := by
  simp only [apply, takeCompleted_eq]
  cases l.get? k with
  | none => exact .inl rfl
  | some i => by_cases hc : i.allCompleted = true <;> simp [hc]

lemma entryOf?_apply_signal (l : Ledger) (now : Instant) {e : Event} {k : PatchSetKey} (s : Signal)
    (hk : e.key? = some k) :
    (l.apply (.signal now e s)).entryOf? k s.job =
      some (s.touch now ((l.opened now e k s).entryOf? s.job)) := by
  unfold entryOf?
  rw [l.apply_signal now s hk, get?_put_recorded]
  exact Imprint.entryOf?_record_self ..

lemma opened_entryOf? (l : Ledger) (now : Instant) (e : Event) (k : PatchSetKey) {s : Signal}
    (hs : ∀ job others, s ≠ .retriggered job others) (job : JobName) :
    (l.opened now e k s).entryOf? job = l.entryOf? k job := by
  unfold entryOf?
  cases h : l.get? k with
  | some i => rw [opened_of_get? h]; rfl
  | none =>
    rw [opened_of_get?_none h]
    cases s with
    | retriggered job others => exact absurd rfl (hs job others)
    | _ => rfl

lemma entryOf?_apply_signal_of_ne (l : Ledger) (now : Instant) {e : Event} {k : PatchSetKey}
    (hk : e.key? = some k) {s : Signal} (hs : ∀ job others, s ≠ .retriggered job others) :
    (l.apply (.signal now e s)).entryOf? k s.job = some (s.touch now (l.entryOf? k s.job)) := by
  rw [l.entryOf?_apply_signal now s hk, l.opened_entryOf? now e k hs]

section Imprints

variable {P : Imprint → Prop}

lemma recorded_induction {e : Event} {k : PatchSetKey} (hnew : P ⟨k, e, []⟩)
    (hrec : ∀ (i : Imprint) (now : Instant) (s : Signal), P i → P (i.record false now s))
    {l : Ledger} (hl : ∀ i ∈ l.imprints, P i) (now : Instant) (s : Signal) :
    P (l.recorded now e k s) := by
  apply hrec
  cases h : l.get? k with
  | some i =>
    rw [opened_of_get? h]
    exact hl i (mem_of_get? h)
  | none =>
    rw [opened_of_get?_none h]
    refine Imprint.seed_induction (fun i b hi => ?_) s hnew
    rw [Imprint.know_eq_record]
    exact hrec i now _ hi

lemma mem_imprints_put {l : Ledger} {i x : Imprint} (h : x ∈ (l.put i).imprints) :
    x = i ∨ x ∈ l.imprints :=
  mem_putImprint h

lemma annotate_induction {change : Entry → Entry}
    (hann : ∀ (i : Imprint) (job : JobName), P i → P (i.annotate job change))
    {l : Ledger} (hl : ∀ i ∈ l.imprints, P i) (k : PatchSetKey) (job : JobName) :
    ∀ i ∈ (l.annotate k job change).2.imprints, P i := by
  unfold annotate
  cases h : l.get? k with
  | none => exact hl
  | some i =>
    by_cases hj : (i.entryOf? job).isSome = true
    · simp only [hj, if_true]
      intro x hx
      rcases mem_imprints_put hx with rfl | hx
      · exact hann i job (hl i (mem_of_get? h))
      · exact hl x hx
    · simp only [hj, Bool.false_eq_true, if_false]
      exact hl

/-- A property of imprints that every operation keeps holds throughout reachable ledgers. -/
theorem Reachable.imprint_induction
    (hnew : ∀ (k : PatchSetKey) (e : Event), e.key? = some k → P ⟨k, e, []⟩)
    (hrec : ∀ (i : Imprint) (now : Instant) (s : Signal), P i → P (i.record false now s))
    (hremove : ∀ (i : Imprint) (job : JobName), P i → P (i.removeJob job))
    (hurl : ∀ (i : Imprint) (job : JobName) (url : String), P i →
      P (i.annotate job fun e => { e with customUrl := some url }))
    (htext : ∀ (i : Imprint) (job : JobName) (text : String), P i →
      P (i.annotate job fun e => { e with unsuccessfulMessage := some text }))
    {l : Ledger} (h : Reachable l) : ∀ i ∈ l.imprints, P i := by
  induction h with
  | empty =>
    intro i hi
    simp at hi
  | @apply l op _ ih =>
    cases op with
    | signal now e s =>
      intro i hi
      cases hk : e.key? with
      | none =>
        rw [apply_signal_of_none _ _ _ hk] at hi
        exact ih i hi
      | some k =>
        rw [apply_signal _ _ _ hk] at hi
        rcases mem_imprints_put hi with rfl | hi
        · exact recorded_induction (hnew k e hk) hrec ih now s
        · exact ih i hi
    | forget k =>
      intro i hi
      exact ih i (List.mem_filter.mp hi).1
    | take k =>
      intro i hi
      rcases l.apply_take k with ht | ht
      · exact ih i (ht ▸ hi)
      · rw [ht] at hi
        exact ih i (List.mem_filter.mp hi).1
    | removeJob job =>
      intro i hi
      obtain ⟨x, hx, rfl⟩ := List.mem_map.mp hi
      exact hremove x job (ih x hx)
    | setCustomUrl k job url => exact annotate_induction (fun i job => hurl i job url) ih k job
    | setUnsuccessfulMessage k job text =>
      exact annotate_induction (fun i job => htext i job text) ih k job

end Imprints

/-- A property of entries that signals and notes keep holds throughout reachable ledgers. -/
theorem Reachable.entry_induction {P : Entry → Prop}
    (hfresh : ∀ (s : Signal) (now : Instant), P (s.fresh now))
    (hchange : ∀ (s : Signal) (now : Instant) (e : Entry), e.job = s.job → P e →
      P (s.change now e))
    (hurl : ∀ (e : Entry) (url : String), P e → P { e with customUrl := some url })
    (htext : ∀ (e : Entry) (text : String), P e → P { e with unsuccessfulMessage := some text })
    {l : Ledger} (h : Reachable l) : ∀ i ∈ l.imprints, ∀ e ∈ i.entries, P e := by
  apply h.imprint_induction (P := fun i => ∀ e ∈ i.entries, P e)
  · intro k e _ x hx
    simp at hx
  · intro i now s hi e he
    rw [Imprint.record_false] at he
    rcases mem_upsertEntry _ _ _ he with rfl | he | ⟨x, hx, hjob, rfl⟩
    · exact hfresh s now
    · exact hi e he
    · exact hchange s now x hjob (hi x hx)
  · intro i job hi e he
    exact hi e (List.mem_filter.mp he).1
  · intro i job url hi e he
    rcases mem_modifyEntry he with he | ⟨x, hx, rfl⟩
    · exact hi e he
    · exact hurl x url (hi x hx)
  · intro i job text hi e he
    rcases mem_modifyEntry he with he | ⟨x, hx, rfl⟩
    · exact hi e he
    · exact htext x text (hi x hx)

theorem Reachable.completed_of_cancelled {l : Ledger} (h : Reachable l) :
    ∀ i ∈ l.imprints, ∀ e ∈ i.entries, e.cancelled = true → e.completed = true := by
  apply h.entry_induction (P := fun e => e.cancelled = true → e.completed = true)
  · intro s now
    cases s <;> first | exact fun _ => rfl | exact fun hc => absurd hc Bool.false_ne_true
  · intro s now e _ he
    cases s with
    | triggered job => exact he
    | retriggered job others => exact fun hc => absurd hc Bool.false_ne_true
    | started b => exact he
    | completed b => exact fun _ => rfl
    | cancelled job => exact fun _ => rfl
  · exact fun e url he => he
  · exact fun e text he => he

theorem Reachable.build_or_cancelled_of_completed {l : Ledger} (h : Reachable l) :
    ∀ i ∈ l.imprints, ∀ e ∈ i.entries, e.completed = true →
      e.build.isSome = true ∨ e.cancelled = true := by
  apply h.entry_induction
    (P := fun e => e.completed = true → e.build.isSome = true ∨ e.cancelled = true)
  · intro s now hc
    cases s with
    | completed b => exact .inl rfl
    | cancelled job => exact .inr rfl
    | _ => exact absurd hc Bool.false_ne_true
  · intro s now e _ he hc
    cases s with
    | triggered job => exact he hc
    | retriggered job others => exact absurd hc Bool.false_ne_true
    | started b => exact .inl rfl
    | completed b => exact .inl (by simp [Signal.change, Entry.finish_eq])
    | cancelled job => exact .inr rfl
  · exact fun e url he => he
  · exact fun e text he => he

end Ledger

end ReviewStream
