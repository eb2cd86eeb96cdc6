import ReviewStream.Proofs.Fanout
import ReviewStream.Proofs.Ledger.Seeding
import ReviewStream.Reporter
import ReviewStream.Site

/-!
# What a report leaves alone

A report that is refused changes nothing. One that is taken touches the imprint of its patch set
only, and in it the entry of its job only, unless the imprint is opened for the report or leaves the
ledger with it. This holds for whatever hooks are told, as long as they leave the ledger alone.
-/

namespace ReviewStream

/-- The other builds that a report brings with it. -/
def Signal.others : Signal → List Build
  | .retriggered _ others => others
  | .triggered _ | .started _ | .completed _ | .cancelled _ => []

def Imprint.besides (i : Imprint) (job : JobName) : List Entry :=
  i.entries.filter fun e => e.job ≠ job

def Ledger.besides (l : Ledger) (k : PatchSetKey) : List Imprint :=
  l.imprints.filter fun i => i.key ≠ k

lemma Event.key?_eq_none_iff (e : Event) : e.key? = none ↔ e.kind = .refUpdated := by
  cases e <;> simp [key?, facts?, kind]

lemma filter_putImprint (i : Imprint) (is : List Imprint) :
    (putImprint i is).filter (fun x => x.key ≠ i.key) = is.filter fun x => x.key ≠ i.key := by
  induction is with
  | nil => simp [putImprint]
  | cons x is ih =>
    rw [putImprint]
    by_cases hb : i.key.before x.key = true
    · simp [hb]
    · rw [if_neg hb]
      by_cases he : i.key = x.key
      · simp [he]
      · rw [if_neg he, List.filter_cons, List.filter_cons, ih]

namespace Imprint

lemma besides_record (i : Imprint) (now : Instant) (s : Signal) :
    (i.record false now s).besides s.job = i.besides s.job := by
  rw [record_false]
  exact filter_upsertEntry s.job _ _ (s.change_job now) (s.fresh_job now) i.entries

lemma exists_others_of_mem_seed {k : PatchSetKey} {e : Event} {now : Instant} {s : Signal}
    {x : Entry} (hx : x ∈ ((Imprint.mk k e []).seed now s).entries) :
    ∃ b ∈ s.others, b.job = x.job := by
  cases s with
  | retriggered job others =>
    have htells := tells_seed k e now job others
    exact (htells.isSome_entryOf? x.job).mp
      ((isSome_entryOf?_iff _ _).mpr (List.mem_map_of_mem hx))
  | _ => cases hx

end Imprint

namespace Ledger

variable {l l' : Ledger} {k : PatchSetKey} {e : Event} {s : Signal}

/-- The ledger `l'` differs from `l` at most by what is recorded about the job of a signal. -/
structure Spares (l l' : Ledger) (k : PatchSetKey) (e : Event) (s : Signal) : Prop where
  patchSets : l'.besides k = l.besides k
  jobs : ∀ i, l.get? k = some i →
    ∃ i', l'.get? k = some i' ∧ i'.event = i.event ∧ i'.besides s.job = i.besides s.job
  opened : l.get? k = none →
    ∃ i', l'.get? k = some i' ∧ i'.event = e ∧
      ∀ x ∈ i'.besides s.job, ∃ b ∈ s.others, b.job = x.job

lemma besides_forget (l : Ledger) (k : PatchSetKey) : (l.forget k).besides k = l.besides k := by
  simp [besides, forget]

lemma spares_put_recorded (l : Ledger) (now : Instant) (e : Event) (k : PatchSetKey) (s : Signal) :
    l.Spares (l.put (l.recorded now e k s)) k e s := by
  have hget := l.get?_put_recorded now e k s
  have horigin := congrArg Prod.snd (l.recorded_origin now e k s)
  have hbesides : (l.recorded now e k s).besides s.job = (l.opened now e k s).besides s.job :=
    Imprint.besides_record ..
  refine ⟨?_, fun i hi => ⟨_, hget, ?_, ?_⟩, fun hnone => ⟨_, hget, ?_, ?_⟩⟩
  · have hput := filter_putImprint (l.recorded now e k s) l.imprints
    rwa [recorded_key] at hput
  · rw [hi] at horigin
    exact horigin
  · rw [hbesides, opened_of_get? hi]
  · rw [hnone] at horigin
    exact horigin
  · intro x hx
    rw [hbesides, opened_of_get?_none hnone] at hx
    exact Imprint.exists_others_of_mem_seed (List.mem_of_mem_filter hx)

end Ledger

namespace Reporter

variable {Ω ι κ Λ : Type} {S : Reporter Ω ι κ Λ} {c : Context Λ} {m : Moment} {l : Ledger}
  {k : PatchSetKey} {w w' : Ω}

/-- Whatever hooks the lifecycle of a context has, they leave the ledger alone. -/
def Quiet (S : Reporter Ω ι κ Λ) (c : Context Λ) : Prop :=
  ∀ lc, c.lifecycle = some lc → ∀ w₀, ∀ h ∈ S.hooks w₀ lc, ∀ m w,
    S.ledger (S.tell h lc m c.event w).2 = S.ledger w

/-- Whatever hooks the lifecycle of a context has, none breaks off. -/
def Steady (S : Reporter Ω ι κ Λ) (c : Context Λ) : Prop :=
  ∀ lc, c.lifecycle = some lc → ∀ w₀, ∀ h ∈ S.hooks w₀ lc, ∀ m w,
    (S.tell h lc m c.event w).1 ≠ .brokeOff

lemma Quiet.ledger_fireIn (hq : S.Quiet c) (m : Moment) (w : Ω) :
    S.ledger (S.fireIn c m w).2 = S.ledger w := by
  unfold Fanout.fireIn
  split
  · rename_i lc hl
    exact Fanout.tellEach_preserves_of_mem (P := fun w' => S.ledger w' = S.ledger w)
      (fun h hh w' hw' => (hq lc hl w h hh m w').trans hw') rfl
  · rfl

lemma Steady.fst_fireIn (hs : S.Steady c) (m : Moment) (w : Ω) :
    (S.fireIn c m w).1 ≠ .brokeOff := by
  unfold Fanout.fireIn
  split
  · rename_i lc hl
    exact S.fst_tellEach_ne_brokeOff (fun h hh => hs lc hl w h hh m) w
  · nofun

/-- A report was taken, or a hook broke off, and either way something holds of the ledger. -/
def Ends (S : Reporter Ω ι κ Λ) (c : Context Λ) (P : Ledger → Prop) (x : Answer × Ω) : Prop :=
  (x.1 = .taken ∨ x.1 = .brokeOff ∧ ¬ S.Steady c) ∧ P (S.ledger x.2)

lemma ends_announce (hq : S.Quiet c) {P : Ledger → Prop} {rest : Ω → Answer × Ω}
    (hl : P (S.ledger w)) (hrest : ∀ w', S.ledger w' = S.ledger w → S.Ends c P (rest w')) :
    S.Ends c P (S.announce c m rest w) := by
  have hkeep := hq.ledger_fireIn m w
  have hsteady : S.Steady c → (S.fireIn c m w).1 ≠ .brokeOff := fun hs => hs.fst_fireIn m w
  unfold announce
  split
  · rename_i w' heq
    rw [heq] at hkeep hsteady
    exact ⟨.inr ⟨rfl, fun hs => hsteady hs rfl⟩, hkeep ▸ hl⟩
  · rename_i o w' _ heq
    rw [heq] at hkeep
    exact hrest w' hkeep

lemma ends_sendProgress (b : Build) {P : Ledger → Prop} (hl : P (S.ledger w)) :
    S.Ends c P (S.sendProgress c b k w) := by
  unfold sendProgress
  split
  · exact ⟨.inl rfl, (S.ledger_send _ w).symm ▸ hl⟩
  · exact ⟨.inl rfl, hl⟩

lemma ends_close (hq : S.Quiet c) (k : PatchSetKey) (w : Ω) :
    S.Ends c (fun l' => l' = S.ledger w ∨
      (S.ledger w).allCompleted k = true ∧ l' = (S.ledger w).forget k) (S.close c k w) := by
  unfold close
  rw [Ledger.takeCompleted_eq, Ledger.allCompleted]
  cases hi : (S.ledger w).get? k with
  | none => exact ⟨.inl rfl, .inl rfl⟩
  | some i =>
    by_cases hall : i.allCompleted = true
    · have hset := S.ledger_setLedger ((S.ledger w).forget k) w
      simp only [Option.bind_some, if_pos hall]
      refine ends_announce hq (.inr ⟨hall, hset⟩) fun w' hw' => ⟨.inl rfl, .inr ⟨hall, ?_⟩⟩
      rw [S.ledger_send, hw', hset]
    · simp only [Option.bind_some, if_neg hall]
      exact ⟨.inl rfl, .inl rfl⟩

lemma ends_take (hq : S.Quiet c) (now : Instant) (hk : c.key? = some k) (s : Signal) (w : Ω) :
    let l := (S.ledger w).put ((S.ledger w).recorded now c.event k s)
    S.Ends c (fun l' => l' = l ∨ s.isFinal = true ∧ l.allCompleted k = true ∧ l' = l.forget k)
      (S.take now c s w) := by
  intro l
  have hset := S.ledger_setLedger l w
  -- hooks are told in between, so that closing looks at a later world with the same ledger
  have hclose : ∀ w', S.ledger w' = l → s.isFinal = true →
      S.Ends c (fun l' => l' = l ∨ s.isFinal = true ∧ l.allCompleted k = true ∧ l' = l.forget k)
        (S.close c k w') := by
    intro w' hw' hfinal
    obtain ⟨hanswer, hl | ⟨hall, hl⟩⟩ := ends_close hq k w'
    · exact ⟨hanswer, .inl (hl.trans hw')⟩
    · exact ⟨hanswer, .inr ⟨hfinal, hw' ▸ hall, hw' ▸ hl⟩⟩
  unfold take
  rw [(S.ledger w).record_eq_ok now s hk]
  cases s with
  | triggered job =>
    exact ends_announce hq (.inl hset) fun w' hw' => ⟨.inl rfl, .inl (hw'.trans hset)⟩
  | retriggered job others =>
    exact ends_announce hq (.inl hset) fun w' hw' => ⟨.inl rfl, .inl (hw'.trans hset)⟩
  | started b =>
    exact ends_announce hq (.inl hset) fun w' hw' => ends_sendProgress b (.inl (hw'.trans hset))
  | completed b =>
    exact ends_announce hq (.inl hset) fun w' hw' => hclose w' (hw'.trans hset) rfl
  | cancelled job => exact hclose _ hset rfl

/-- A report about an event without a patch set is refused, and ledger, hooks and notices are as
before. Any other report is taken, unless a hook breaks off. It leaves all other patch sets alone,
and the entries of all other jobs in its own one, unless the imprint is opened for it and takes over
the builds it brings, or leaves the ledger because the report is a final one and nothing is
outstanding any more. -/
theorem take_leaves_others_alone (hq : S.Quiet c) (now : Instant) (s : Signal) (w : Ω) :
    (c.event.kind = .refUpdated →
      (S.ledger w).record now c.event s = .error ⟨.refUpdated⟩ ∧
      S.take now c s w = (.refused ⟨.refUpdated⟩, w)) ∧
    (c.event.kind ≠ .refUpdated → ∃ k l, c.key? = some k ∧
      (S.ledger w).record now c.event s = .ok (k, l) ∧ (S.ledger w).Spares l k c.event s ∧
      ∃ answer w', S.take now c s w = (answer, w') ∧
        (answer = .taken ∨ answer = .brokeOff ∧ ¬ S.Steady c) ∧
        (S.ledger w').besides k = (S.ledger w).besides k ∧
        (S.ledger w' = l ∨
          s.isFinal = true ∧ l.allCompleted k = true ∧ S.ledger w' = l.forget k)) := by
  constructor
  · intro hkind
    have hrecord := (S.ledger w).record_eq_error now s (c.event.key?_eq_none_iff.mpr hkind)
    rw [hkind] at hrecord
    refine ⟨hrecord, ?_⟩
    rw [take, hrecord]
  · intro hkind
    obtain ⟨k, hk⟩ := Option.ne_none_iff_exists'.mp (c.event.key?_eq_none_iff.not.mpr hkind)
    have hspares := (S.ledger w).spares_put_recorded now c.event k s
    obtain ⟨hanswer, hledger⟩ := ends_take hq now hk s w
    refine ⟨k, _, hk, (S.ledger w).record_eq_ok now s hk, hspares, (S.take now c s w).1,
      (S.take now c s w).2, rfl, hanswer, ?_, hledger⟩
    rcases hledger with hl | ⟨-, -, hl⟩
    · rw [hl, hspares.patchSets]
    · rw [hl, Ledger.besides_forget, hspares.patchSets]

end Reporter

namespace Site

variable {Λ : Type} [DecidableEq Λ]

/-- A site takes reports in its own ledger and sends notices to its outbound queue. -/
def reporter : Reporter (Site Λ) Empty (Gate.Hook Unit) Λ where
  toFanout := hooks
  ledger s := s.ledger
  setLedger l s := { s with ledger := l }
  send n s := s.send n
  ledger_setLedger _ _ := rfl
  ledger_send n s := by
    unfold send
    split <;> rfl

lemma tell_setLedger (h : Gate.Hook Unit) (lc : Λ) (m : Moment) (e : Event) (l : Ledger)
    (s : Site Λ) : tell h lc m e { s with ledger := l } = { tell h lc m e s with ledger := l } := by
  cases h with
  | scanDone id k => cases m <;> rfl
  | foreign u => rfl

lemma tellEach_hooks (lc : Λ) (m : Moment) (e : Event) (hs : List (Gate.Hook Unit)) (s : Site Λ) :
    hooks.tellEach lc m e hs s = (.returned, hs.foldl (fun s h => tell h lc m e s) s) := by
  induction hs generalizing s with
  | nil => rfl
  | cons h hs ih => exact ih _

lemma fireIn_hooks_setLedger (c : Context Λ) (m : Moment) (l : Ledger) (s : Site Λ) :
    hooks.fireIn c m { s with ledger := l } =
      (.returned, { (hooks.fireIn c m s).2 with ledger := l }) := by
  unfold Fanout.fireIn
  cases c.lifecycle with
  | none => rfl
  | some lc =>
    have hfold : ∀ (hs : List (Gate.Hook Unit)) (s : Site Λ),
        hs.foldl (fun s h => tell h lc m c.event s) { s with ledger := l } =
          { hs.foldl (fun s h => tell h lc m c.event s) s with ledger := l } := by
      intro hs
      induction hs with
      | nil => exact fun _ => rfl
      | cons h hs ih =>
        intro s
        rw [List.foldl_cons, List.foldl_cons, tell_setLedger, ih]
    simp only [Fanout.fire, tellEach_hooks, hfold]
    rfl

lemma announce_reporter (c : Context Λ) (m : Moment) (rest : Site Λ → Answer × Site Λ)
    (l : Ledger) (s : Site Λ) :
    reporter.announce c m rest (reporter.setLedger l s) =
      rest (reporter.setLedger l (hooks.fireIn c m s).2) := by
  have hfire : reporter.fireIn c m (reporter.setLedger l s) =
      (.returned, reporter.setLedger l (hooks.fireIn c m s).2) := fireIn_hooks_setLedger c m l s
  rw [Reporter.announce, hfire]

/-- What a reaction to a report does to a site. -/
def follow (c : Context Λ) (r : Reaction) (s : Site Λ) : Site Λ :=
  r.notices.foldl send
    (r.moments.foldl (fun s m => (hooks.fireIn c m s).2) { s with ledger := r.ledger })

lemma follow_cons (c : Context Λ) (l : Ledger) (m : Moment) (ms : List Moment)
    (ns : List Notice) (s : Site Λ) :
    follow c ⟨l, m :: ms, ns⟩ s = follow c ⟨l, ms, ns⟩ (hooks.fireIn c m s).2 := by
  rw [follow, List.foldl_cons, fireIn_hooks_setLedger]
  rfl

lemma close_reporter (c : Context Λ) (k : PatchSetKey) (l : Ledger) (s : Site Λ) :
    reporter.close c k (reporter.setLedger l s) =
      (.taken, follow c (Tracker.closeIfDone k ⟨l, [], []⟩) s) := by
  have hset : ∀ l' : Ledger, reporter.setLedger l' (reporter.setLedger l s) =
      reporter.setLedger l' s := fun _ => rfl
  rw [Reporter.close, Tracker.closeIfDone, reporter.ledger_setLedger]
  cases l.takeCompleted k with
  | none => rfl
  | some x =>
    simp only [hset, announce_reporter, List.nil_append, follow_cons]
    rfl

lemma follow_closeIfDone (c : Context Λ) (k : PatchSetKey) (l : Ledger) (m : Moment) (s : Site Λ) :
    follow c (Tracker.closeIfDone k ⟨l, [m], []⟩) s =
      follow c (Tracker.closeIfDone k ⟨l, [], []⟩) (hooks.fireIn c m s).2 := by
  unfold Tracker.closeIfDone
  cases l.takeCompleted k <;> exact follow_cons ..

lemma take_reporter (c : Context Λ) (signal : Signal) (s : Site Λ) :
    reporter.take s.now c signal s =
      match s.report c signal with
      | .ok s' => (.taken, s')
      | .error e => (.refused e, s) := by
  have hreport : s.report c signal =
      (Tracker.react s.ledger s.now c.event signal).map fun r => follow c r s := rfl
  have hledger : reporter.ledger s = s.ledger := rfl
  rw [hreport, Reporter.take, Tracker.react, hledger]
  cases s.ledger.record s.now c.event signal with
  | error e => rfl
  | ok x =>
    obtain ⟨k, l⟩ := x
    cases signal with
    | triggered job => simp only [Except.map, announce_reporter, follow_cons]; rfl
    | retriggered job others => simp only [Except.map, announce_reporter, follow_cons]; rfl
    | started b =>
      simp only [Except.map, announce_reporter, follow_cons, Reporter.sendProgress,
        reporter.ledger_setLedger]
      cases l.progress? k <;> rfl
    | completed b =>
      simp only [Except.map, announce_reporter, close_reporter, follow_closeIfDone]
    | cancelled job => simp only [Except.map, close_reporter]

lemma quiet_reporter (c : Context Λ) : reporter.Quiet c := by
  intro lc _ w₀ h _ m w
  change (tell h lc m c.event w).ledger = w.ledger
  cases h with
  | scanDone id k => cases m <;> rfl
  | foreign u => rfl

/-- The end of one job is recorded beside another job that runs and beside another patch set, while
an event without a patch set is refused. -/
theorem report_leaves_others_alone :
    let k : PatchSetKey := ⟨4, 1⟩
    let run : Build := ⟨"docs", 2, none⟩
    let l : Ledger := ⟨[⟨k, Event.bare k, [.triggered "verify" 0, .started run 1]⟩,
      ⟨⟨7, 1⟩, Event.bare ⟨7, 1⟩, [.triggered "verify" 2]⟩]⟩
    let s : Site Unit := { observed with ledger := l, now := 3 }
    let c : Context Unit := ⟨Event.bare k, some ()⟩
    let c' : Context Unit := ⟨.refUpdated ⟨"p", "main", "0", "1"⟩ none .epoch, some ()⟩
    let signal : Signal := .completed ⟨"verify", 5, some .success⟩
    reporter.Quiet c ∧ reporter.Quiet c' ∧ c.event.kind ≠ .refUpdated ∧
      c'.event.kind = .refUpdated ∧ s.report c' signal = .error ⟨.refUpdated⟩ ∧
      ∃ s', s.report c signal = .ok s' ∧ s'.ledger.besides k = l.besides k ∧
        ∃ i, s'.ledger.get? k = some i ∧ i.besides "verify" = [.started run 1] := by
  intro k run l s c c' signal
  have hkind : c.event.kind ≠ .refUpdated := by decide
  have hrefused : s.report c' signal = .error ⟨.refUpdated⟩ := by
    have htake :=
      ((Reporter.take_leaves_others_alone (quiet_reporter c') s.now signal s).1 rfl).2
    rw [take_reporter] at htake
    cases hr : s.report c' signal with
    | ok s' =>
      rw [hr] at htake
      cases htake
    | error e =>
      rw [hr] at htake
      cases htake
      rfl
  refine ⟨quiet_reporter c, quiet_reporter c', hkind, rfl, hrefused, ?_⟩
  obtain ⟨k', l₁, hk, -, hspares, answer, s', htake, hanswer, hbesides, hledger⟩ :=
    (Reporter.take_leaves_others_alone (quiet_reporter c) s.now signal s).2 hkind
  obtain rfl : k = k' := Option.some.inj hk
  obtain ⟨i, hi, -, hjobs⟩ := hspares.jobs _ rfl
  have hrunning : i.besides "verify" = [.started run 1] := hjobs.trans (by decide)
  -- the other job still runs, so that the patch set is not closed
  have hopen : l₁.allCompleted k = false := by
    have hmem : Entry.started run 1 ∈ i.besides "verify" := hrunning ▸ List.mem_singleton_self _
    rw [Ledger.allCompleted, hi]
    exact List.all_eq_false.mpr ⟨_, List.mem_of_mem_filter hmem, by decide⟩
  have hkept : s'.ledger = l₁ := hledger.resolve_right fun h => by simp [hopen] at h
  rw [take_reporter] at htake
  cases hr : s.report c signal with
  | ok s'' =>
    rw [hr] at htake
    cases htake
    exact ⟨s', rfl, hbesides, i, hkept ▸ hi, hrunning⟩
  | error e =>
    rw [hr] at htake
    cases htake
    rcases hanswer with h | ⟨h, -⟩ <;> cases h

end Site

end ReviewStream
