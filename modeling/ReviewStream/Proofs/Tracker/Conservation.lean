import ReviewStream.Proofs.Ledger.KeyOrder
import ReviewStream.Proofs.Tracker.Step

/-!
# No imprint is lost

Imprints are numbered in the order in which they are opened, and a register keeps which of them are
resident and which have left the ledger. Throughout every history these are all of them, whatever is
resident still waits for something, and whatever has left was complete and was sent, once.
-/

namespace ReviewStream

namespace Tracker

/-- What became of the imprints. The number of an imprint is its place among those opened. -/
structure Register where
  /-- The patch sets and events for which imprints were opened. -/
  opened : List (PatchSetKey × Event) := []
  /-- The number of the imprint that is resident for a patch set. -/
  resident : PatchSetKey → Option Nat := fun _ => none
  /-- The imprints that left the ledger, as they were when they left it. -/
  removed : List (Nat × Imprint) := []

namespace Register

/-- What the resident imprint of a patch set was opened for. -/
def origin? (g : Register) (k : PatchSetKey) : Option (PatchSetKey × Event) :=
  (g.resident k).bind (g.opened[·]?)

def enter (g : Register) (k : PatchSetKey) (e : Event) : Register :=
  { g with
    opened := g.opened ++ [(k, e)]
    resident := fun k' => if k' = k then some g.opened.length else g.resident k' }

def leave (g : Register) (i : Imprint) : Register :=
  { g with
    resident := fun k => if k = i.key then none else g.resident k
    removed := g.removed ++ (g.resident i.key).toList.map fun n => (n, i) }

/-- Every imprint that was opened is either resident for its patch set or was removed, once. -/
structure Partitioned (g : Register) : Prop where
  exhaustive : ∀ n < g.opened.length,
    (∃ k, g.resident k = some n) ∨ n ∈ g.removed.map Prod.fst
  disjoint : ∀ k n, g.resident k = some n → n ∉ g.removed.map Prod.fst
  resident_key : ∀ k n, g.resident k = some n → ∃ e, g.opened[n]? = some (k, e)
  removed_origin : ∀ x ∈ g.removed, g.opened[x.1]? = some x.2.origin
  removed_once : (g.removed.map Prod.fst).Nodup

variable {g : Register}

lemma Partitioned.lt_of_removed (h : g.Partitioned) {n : Nat}
    (hn : n ∈ g.removed.map Prod.fst) : n < g.opened.length := by
  obtain ⟨x, hx, rfl⟩ := List.mem_map.mp hn
  exact (List.getElem?_eq_some_iff.mp (h.removed_origin x hx)).1

lemma Partitioned.resident_eq_none (h : g.Partitioned) {k : PatchSetKey}
    (hk : g.origin? k = none) : g.resident k = none := by
  cases hn : g.resident k with
  | none => rfl
  | some n =>
    obtain ⟨e, he⟩ := h.resident_key k n hn
    rw [origin?, hn, Option.bind_some, he] at hk
    cases hk

lemma opened_enter (k : PatchSetKey) (e : Event) {x : PatchSetKey × Event} {n : Nat}
    (h : g.opened[n]? = some x) : (g.enter k e).opened[n]? = some x := by
  have hn := (List.getElem?_eq_some_iff.mp h).1
  rw [enter, List.getElem?_append_left hn]
  exact h

lemma Partitioned.origin?_enter (h : g.Partitioned) (k : PatchSetKey) (e : Event)
    (k' : PatchSetKey) :
    (g.enter k e).origin? k' = if k' = k then some (k, e) else g.origin? k' := by
  by_cases hk : k' = k
  · simp [origin?, Register.enter, hk]
  · have hres : (g.enter k e).resident k' = g.resident k' := by simp [Register.enter, hk]
    rw [if_neg hk, origin?, hres, origin?]
    cases hn : g.resident k' with
    | none => rfl
    | some n =>
      obtain ⟨e', he⟩ := h.resident_key k' n hn
      exact (opened_enter k e he).trans he.symm

lemma origin?_leave (i : Imprint) (k : PatchSetKey) :
    (g.leave i).origin? k = if k = i.key then none else g.origin? k := by
  by_cases hk : k = i.key <;> simp [origin?, leave, hk]

lemma Partitioned.enter (h : g.Partitioned) {k : PatchSetKey} (e : Event)
    (hk : g.resident k = none) : (g.enter k e).Partitioned := by
  constructor
  · intro n hn
    have hn : n < g.opened.length + 1 := by simpa [Register.enter] using hn
    rcases Nat.lt_succ_iff_lt_or_eq.mp hn with hn | rfl
    · refine (h.exhaustive n hn).imp_left fun ⟨k', hk'⟩ => ⟨k', ?_⟩
      have hne : k' ≠ k := by
        rintro rfl
        rw [hk] at hk'
        cases hk'
      simpa [Register.enter, hne] using hk'
    · exact .inl ⟨k, by simp [Register.enter]⟩
  · intro k' n hn hr
    by_cases hk' : k' = k
    · have hl : g.opened.length = n := by simpa [Register.enter, hk'] using hn
      exact absurd (h.lt_of_removed hr) (by omega)
    · exact h.disjoint k' n (by simpa [Register.enter, hk'] using hn) hr
  · intro k' n hn
    by_cases hk' : k' = k
    · have hl : g.opened.length = n := by simpa [Register.enter, hk'] using hn
      exact ⟨e, by simp [Register.enter, ← hl, hk']⟩
    · obtain ⟨e', he⟩ := h.resident_key k' n (by simpa [Register.enter, hk'] using hn)
      exact ⟨e', opened_enter k e he⟩
  · intro x hx
    exact opened_enter k e (h.removed_origin x hx)
  · exact h.removed_once

lemma leave_of_resident {i : Imprint} {n : Nat} (hn : g.resident i.key = some n) :
    (g.leave i).removed = g.removed ++ [(n, i)] := by
  simp [leave, hn]

lemma Partitioned.leave (h : g.Partitioned) {i : Imprint} {n : Nat}
    (hn : g.resident i.key = some n) (ho : g.opened[n]? = some i.origin) :
    (g.leave i).Partitioned := by
  have hmem : ∀ m, m ∈ (g.leave i).removed.map Prod.fst ↔
      m ∈ g.removed.map Prod.fst ∨ m = n := by
    intro m
    rw [leave_of_resident hn]
    simp
  have hold : ∀ {k m}, (g.leave i).resident k = some m → k ≠ i.key ∧ g.resident k = some m := by
    intro k m hm
    by_cases hk : k = i.key
    · simp [Register.leave, hk] at hm
    · exact ⟨hk, by simpa [Register.leave, hk] using hm⟩
  constructor
  · intro m hm
    rcases h.exhaustive m hm with ⟨k, hk⟩ | hr
    · by_cases hki : k = i.key
      · rw [hki, hn] at hk
        exact .inr ((hmem m).mpr (.inr (Option.some.inj hk).symm))
      · exact .inl ⟨k, by simpa [Register.leave, hki] using hk⟩
    · exact .inr ((hmem m).mpr (.inl hr))
  · intro k m hm hr
    obtain ⟨hki, hm⟩ := hold hm
    rcases (hmem m).mp hr with hr | rfl
    · exact h.disjoint k m hm hr
    · obtain ⟨e, he⟩ := h.resident_key k m hm
      exact hki (congrArg Prod.fst (Option.some.inj (he.symm.trans ho)))
  · intro k m hm
    exact h.resident_key k m (hold hm).2
  · intro x hx
    rw [leave_of_resident hn, List.mem_append, List.mem_singleton] at hx
    rcases hx with hx | rfl
    · exact h.removed_origin x hx
    · exact ho
  · rw [leave_of_resident hn, List.map_append]
    refine List.nodup_append.mpr ⟨h.removed_once, by simp, ?_⟩
    intro m hm m' hm' he
    have hmn : m = n := he.trans (by simpa using hm')
    exact h.disjoint i.key n hn (hmn ▸ hm)

end Register

structure Chronicle where
  run : Run := {}
  register : Register := {}

namespace Chronicle

/-- The register once the imprint of a patch set is found, or opened for an event. -/
def entered (c : Chronicle) (k : PatchSetKey) (e : Event) : Register :=
  if c.run.ledger.isTracked k then c.register else c.register.enter k e

/-- Adds one report. The ledger before it and after it tells which imprint was opened and which one
left. -/
def step (c : Chronicle) (p : Report) : Chronicle :=
  let run := c.run.step p
  match c.run.ledger.record c.run.time p.event p.signal with
  | .error _ => { c with run }
  | .ok (k, l) =>
    let register := c.entered k p.event
    { run
      register := if run.ledger.isTracked k then register
        else (l.get? k).elim register register.leave }

def ofHistory (ps : List Report) : Chronicle := ps.foldl step {}

/-- Imprints are neither lost nor left behind. -/
structure Conserved (c : Chronicle) : Prop where
  keys_nodup : c.run.ledger.keys.Nodup
  outstanding : ∀ i ∈ c.run.ledger.imprints, ∃ e ∈ i.entries, e.completed = false
  tracked : ∀ k, c.register.origin? k = (c.run.ledger.get? k).map Imprint.origin
  partitioned : c.register.Partitioned
  complete : ∀ x ∈ c.register.removed, x.2.entries ≠ [] ∧ ∀ e ∈ x.2.entries, e.completed = true
  delivered : c.run.completions = c.register.removed.map Prod.snd

end Chronicle

namespace Run

variable {r : Run} {p : Report} {k : PatchSetKey}

/-- Every resident imprint waits for something. -/
def Outstanding (r : Run) : Prop :=
  ∀ i ∈ r.ledger.imprints, ∃ e ∈ i.entries, e.completed = false

/-- The imprint of a patch set, if it is resident, waits for something. -/
def OutstandingAt (r : Run) (k : PatchSetKey) : Prop :=
  ∀ i, r.ledger.get? k = some i → ∃ e ∈ i.entries, e.completed = false

lemma Outstanding.outstandingAt (h : r.Outstanding) (k : PatchSetKey) : r.OutstandingAt k :=
  fun i hi => h i (Ledger.mem_of_get? hi)

lemma isTracked_step (hk : p.event.key? = some k) :
    (r.step p).ledger.isTracked k = !r.closes p k := by
  rw [Ledger.isTracked, r.get?_step hk]
  cases r.closes p k <;> rfl

/-- A report that ends nothing leaves something outstanding. Where the entry of its job is done
already, it is another entry that the imprint waits for. -/
lemma recorded_outstanding_of_open (h : r.OutstandingAt k) (hs : p.signal.isFinal = false) :
    ∃ e ∈ (r.recorded p k).entries, e.completed = false := by
  by_cases hretr : ∃ job others, p.signal = .retriggered job others
  · obtain ⟨job, others, hp⟩ := hretr
    refine ⟨_, Imprint.touch_mem_record _ _ _, ?_⟩
    rw [hp]
    exact Signal.touch_retriggered_completed ..
  · have hplain : ∀ job others, p.signal ≠ .retriggered job others :=
      fun job others hp => hretr ⟨job, others, hp⟩
    cases hi : r.ledger.get? k with
    | none =>
      refine ⟨_, Imprint.touch_mem_record _ _ _, Signal.touch_open hs _ _ fun e he => ?_⟩
      rw [Ledger.opened_entryOf? _ _ _ _ hplain, Ledger.entryOf?, hi] at he
      cases he
    | some i =>
      obtain ⟨e, he, hc⟩ := h i hi
      have hentries : (r.recorded p k).entries = upsertEntry p.signal.job
          (p.signal.change r.time) (p.signal.fresh r.time) i.entries := by
        rw [recorded, Ledger.recorded_entries _ _ _ _ hplain, Ledger.entries, hi]
        rfl
      have hchange : (p.signal.change r.time e).completed = false :=
        p.signal.touch_open hs r.time (some e) fun x hx => Option.some.inj hx ▸ hc
      rw [hentries]
      rcases mem_upsertEntry_of_mem p.signal.job (p.signal.change r.time)
        (p.signal.fresh r.time) he with hm | hm
      · exact ⟨e, hm, hc⟩
      · exact ⟨_, hm, hchange⟩

lemma recorded_outstanding (h : r.OutstandingAt k) (hc : r.closes p k = false) :
    ∃ e ∈ (r.recorded p k).entries, e.completed = false := by
  cases hs : p.signal.isFinal with
  | false => exact recorded_outstanding_of_open h hs
  | true =>
    rw [closes, hs, Bool.true_and, Imprint.allCompleted, List.all_eq_false] at hc
    obtain ⟨e, he, hc⟩ := hc
    exact ⟨e, he, by simpa using hc⟩

lemma outstanding_step (h : r.Outstanding) (p : Report) : (r.step p).Outstanding := by
  intro i hi
  cases hk : p.event.key? with
  | none =>
    rw [step_of_key?_eq_none r hk] at hi
    exact h i hi
  | some k =>
    rw [(step_of_key? r hk).1] at hi
    cases hc : r.closes p k with
    | false =>
      simp only [hc, Bool.false_eq_true, if_false] at hi
      rcases Ledger.mem_imprints_put hi with rfl | hi
      · exact recorded_outstanding (h.outstandingAt k) hc
      · exact h i hi
    | true =>
      -- the recorded imprint is forgotten at once, so that only others are left
      simp only [hc, if_true, Ledger.forget] at hi
      obtain ⟨hi, hne⟩ := List.mem_filter.mp hi
      rcases Ledger.mem_imprints_put hi with rfl | hi
      · simp at hne
      · exact h i hi

lemma complete_of_closes (hc : r.closes p k = true) :
    (r.recorded p k).entries ≠ [] ∧ ∀ e ∈ (r.recorded p k).entries, e.completed = true := by
  refine ⟨List.ne_nil_of_mem (Imprint.touch_mem_record _ _ _), ?_⟩
  rw [closes, Bool.and_eq_true] at hc
  exact fun e he => List.all_eq_true.mp hc.2 e he

end Run

namespace Chronicle

variable {c : Chronicle} {p : Report} {k : PatchSetKey}

@[simp] lemma step_run (c : Chronicle) (p : Report) : (c.step p).run = c.run.step p := by
  unfold step
  cases c.run.ledger.record c.run.time p.event p.signal <;> rfl

lemma step_register_of_key?_eq_none (hk : p.event.key? = none) :
    (c.step p).register = c.register := by
  unfold step
  rw [Ledger.record_eq_error _ _ _ hk]

lemma step_register (hk : p.event.key? = some k) :
    (c.step p).register =
      if c.run.closes p k then (c.entered k p.event).leave (c.run.recorded p k)
      else c.entered k p.event := by
  have hget : (c.run.ledger.put (c.run.recorded p k)).get? k = some (c.run.recorded p k) :=
    c.run.ledger.get?_put_recorded ..
  unfold step
  rw [Ledger.record_eq_ok _ _ _ hk]
  change (if (c.run.step p).ledger.isTracked k then c.entered k p.event
    else ((c.run.ledger.put (c.run.recorded p k)).get? k).elim _ _) = _
  rw [Run.isTracked_step hk, hget]
  cases c.run.closes p k <;> rfl

lemma Conserved.entered_origin (h : c.Conserved) (p : Report) (k k' : PatchSetKey) :
    (c.entered k p.event).origin? k' =
      if k' = k then some (c.run.recorded p k).origin
      else (c.run.ledger.get? k').map Imprint.origin := by
  have ho : (c.run.recorded p k).origin =
      ((c.run.ledger.get? k).map Imprint.origin).getD (k, p.event) := Ledger.recorded_origin ..
  unfold entered Ledger.isTracked
  rw [ho]
  cases hi : c.run.ledger.get? k with
  | some i =>
    have ht := h.tracked k'
    by_cases hk : k' = k
    · rw [hk, hi] at ht
      simpa [hk] using ht
    · simpa [hk] using ht
  | none =>
    have ht := h.partitioned.origin?_enter k p.event k'
    rw [h.tracked k'] at ht
    simpa using ht

lemma Conserved.entered_partitioned (h : c.Conserved) (k : PatchSetKey) (e : Event) :
    (c.entered k e).Partitioned := by
  unfold entered Ledger.isTracked
  cases hi : c.run.ledger.get? k with
  | some i => exact h.partitioned
  | none =>
    have ht := h.tracked k
    rw [hi] at ht
    exact h.partitioned.enter e (h.partitioned.resident_eq_none ht)

@[simp] lemma entered_removed (c : Chronicle) (k : PatchSetKey) (e : Event) :
    (c.entered k e).removed = c.register.removed := by
  unfold entered
  split <;> rfl

lemma conserved_empty : ({} : Chronicle).Conserved where
  keys_nodup := List.nodup_nil
  outstanding := by simp
  tracked := fun _ => rfl
  partitioned := ⟨by simp, by simp, by simp, by simp, List.nodup_nil⟩
  complete := by simp
  delivered := rfl

lemma Conserved.ledger_step (h : c.Conserved) (hr : c.run.ledger.Reachable) (p : Report) :
    (c.step p).run.ledger.keys.Nodup ∧ (c.step p).run.Outstanding := by
  rw [step_run]
  exact ⟨(Run.reachable_step _ hr p).sorted.keys_nodup, Run.outstanding_step h.outstanding p⟩

lemma Conserved.step_open (h : c.Conserved) (hr : c.run.ledger.Reachable)
    (hk : p.event.key? = some k) (hc : c.run.closes p k = false) : (c.step p).Conserved := by
  have hg : (c.step p).register = c.entered k p.event := by
    rw [step_register hk, hc]
    rfl
  obtain ⟨hkeys, hout⟩ := h.ledger_step hr p
  refine ⟨hkeys, hout, fun k' => ?_, ?_, ?_, ?_⟩
  · rw [hg, step_run, h.entered_origin]
    by_cases hk' : k' = k
    · rw [hk', Run.get?_step _ hk, hc]
      simp
    · rw [Run.get?_step_of_ne _ fun he => hk' (Option.some.inj (he.symm.trans hk)), if_neg hk']
  · rw [hg]
    exact h.entered_partitioned k p.event
  · rw [hg, entered_removed]
    exact h.complete
  · rw [hg, entered_removed, step_run, (Run.step_of_key? _ hk).2, hc, h.delivered]
    simp

lemma Conserved.step_closing (h : c.Conserved) (hr : c.run.ledger.Reachable)
    (hk : p.event.key? = some k) (hc : c.run.closes p k = true) : (c.step p).Conserved := by
  have hg : (c.step p).register = (c.entered k p.event).leave (c.run.recorded p k) := by
    rw [step_register hk, hc]
    rfl
  have horigin : (c.entered k p.event).origin? (c.run.recorded p k).key =
      some (c.run.recorded p k).origin := by
    rw [h.entered_origin p k, Run.recorded_key, if_pos rfl]
  obtain ⟨n, hn, ho⟩ := Option.bind_eq_some_iff.mp horigin
  have hremoved : (c.step p).register.removed =
      c.register.removed ++ [(n, c.run.recorded p k)] := by
    rw [hg, Register.leave_of_resident hn, entered_removed]
  obtain ⟨hkeys, hout⟩ := h.ledger_step hr p
  refine ⟨hkeys, hout, fun k' => ?_, ?_, ?_, ?_⟩
  · rw [hg, step_run, Register.origin?_leave, Run.recorded_key]
    by_cases hk' : k' = k
    · rw [if_pos hk', hk', Run.get?_step _ hk, hc]
      rfl
    · rw [if_neg hk', h.entered_origin, if_neg hk',
        Run.get?_step_of_ne _ fun he => hk' (Option.some.inj (he.symm.trans hk))]
  · rw [hg]
    exact (h.entered_partitioned k p.event).leave hn ho
  · intro x hx
    rw [hremoved, List.mem_append, List.mem_singleton] at hx
    rcases hx with hx | rfl
    · exact h.complete x hx
    · exact Run.complete_of_closes hc
  · rw [hremoved, step_run, (Run.step_of_key? _ hk).2, hc, h.delivered]
    simp

lemma Conserved.step (h : c.Conserved) (hr : c.run.ledger.Reachable) (p : Report) :
    (c.step p).Conserved := by
  cases hk : p.event.key? with
  | none =>
    have hg := step_register_of_key?_eq_none (c := c) hk
    have hrun : (c.step p).run = { c.run with time := c.run.time + 1 } := by
      rw [step_run, Run.step_of_key?_eq_none _ hk]
    obtain ⟨hkeys, hout⟩ := h.ledger_step hr p
    refine ⟨hkeys, hout, ?_, ?_, ?_, ?_⟩
    · rw [hrun, hg]
      exact h.tracked
    · rw [hg]
      exact h.partitioned
    · rw [hg]
      exact h.complete
    · rw [hrun, hg]
      exact h.delivered
  | some k =>
    cases hc : c.run.closes p k with
    | false => exact h.step_open hr hk hc
    | true => exact h.step_closing hr hk hc

end Chronicle

/-- Throughout every history, whatever the reports and their order, no patch set has two imprints,
each resident imprint waits for something, and the imprints that were opened are those that are
resident and those that left. The latter are not empty, have nothing outstanding, and are what the
notices of completion carried, one each. -/
theorem imprints_conserved (ps : List Report) :
    (Chronicle.ofHistory ps).run = Run.ofHistory ps ∧ (Chronicle.ofHistory ps).Conserved := by
  suffices h : ∀ c : Chronicle, c.run.ledger.Reachable → c.Conserved →
      (ps.foldl Chronicle.step c).run = c.run.after ps ∧
        (ps.foldl Chronicle.step c).Conserved from h {} .empty Chronicle.conserved_empty
  induction ps with
  | nil => exact fun c _ h => ⟨rfl, h⟩
  | cons p ps ih =>
    intro c hr h
    have hstep : (c.step p).run.ledger.Reachable := by
      rw [Chronicle.step_run]
      exact Run.reachable_step _ hr p
    obtain ⟨hrun, hcons⟩ := ih (c.step p) hstep (h.step hr p)
    rw [Chronicle.step_run] at hrun
    exact ⟨hrun, hcons⟩

end Tracker

end ReviewStream
