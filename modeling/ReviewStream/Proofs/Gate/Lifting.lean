import ReviewStream.Proofs.Fanout
import ReviewStream.Proofs.Gate.Scans

/-!
# Lifting the barrier

The gate puts its hook behind the hooks that a lifecycle has already, and a hook that breaks off
keeps the ones behind it from being told. When an event has gone round, its barrier is therefore
down if no foreign hook broke off when the scan was done. A hook that breaks off before, when the
scan starts, keeps the event from the gate altogether.
-/

namespace ReviewStream.Gate.Barrier

variable {ι κ Λ : Type}

/-- The listeners of an event, and how those beside the gate and foreign hooks end their calls. -/
structure Company (ι κ : Type) where
  listeners : List (Listener ι)
  outcome : ι → Outcome
  hookOutcome : κ → Moment → Outcome

/-- A foreign hook among these breaks off when it is told about the moment. -/
def Company.Breaks (P : Company ι κ) (hs : List (Hook κ)) (m : Moment) : Prop :=
  ∃ h, .foreign h ∈ hs ∧ P.hookOutcome h m = .brokeOff

/-- The barrier is down for a patch set, and the gate has got no hooks in a lifecycle. -/
def Lifted (b : Barrier κ Λ) (l : Λ) (k : PatchSetKey) : Prop :=
  b.isTriggering k = false ∧ ∀ id k', .scanDone id k' ∉ b.hooks l

/-- The numbers of the gate's hooks have all been given out. -/
def Numbered (b : Barrier κ Λ) : Prop :=
  ∀ l id k, .scanDone id k ∈ b.hooks l → id < b.nextId

section Breaks

variable {P : Company ι κ} {hs : List (Hook κ)} {m : Moment}

lemma not_breaks_nil : ¬ P.Breaks [] m := by
  rintro ⟨h, hmem, -⟩
  cases hmem

lemma breaks_cons_scanDone {id : Nat} {k : PatchSetKey} :
    P.Breaks (.scanDone id k :: hs) m ↔ P.Breaks hs m := by
  simp [Company.Breaks]

lemma breaks_cons_foreign {h : κ} :
    P.Breaks (.foreign h :: hs) m ↔ P.hookOutcome h m = .brokeOff ∨ P.Breaks hs m := by
  simp [Company.Breaks, or_and_right, exists_or]

lemma Company.Breaks.exists_first (hb : P.Breaks hs m) : ∃ before h behind,
    hs = before ++ .foreign h :: behind ∧ ¬ P.Breaks before m ∧
      P.hookOutcome h m = .brokeOff := by
  induction hs with
  | nil => exact absurd hb not_breaks_nil
  | cons h hs ih =>
    cases h with
    | scanDone id k =>
      obtain ⟨before, h, behind, rfl, hnot, ho⟩ := ih (breaks_cons_scanDone.mp hb)
      exact ⟨.scanDone id k :: before, h, behind, rfl, mt breaks_cons_scanDone.mp hnot, ho⟩
    | foreign h =>
      by_cases ho : P.hookOutcome h m = .brokeOff
      · exact ⟨[], h, hs, rfl, not_breaks_nil, ho⟩
      · obtain ⟨before, h', behind, rfl, hnot, ho'⟩ :=
          ih ((breaks_cons_foreign.mp hb).resolve_left ho)
        refine ⟨.foreign h :: before, h', behind, rfl, ?_, ho'⟩
        exact fun hbefore => hnot ((breaks_cons_foreign.mp hbefore).resolve_left ho)

end Breaks

section Join

variable [DecidableEq Λ] {c : Context Λ} {l : Λ} {k : PatchSetKey}

lemma mem_hooks_addHook (b : Barrier κ Λ) (l l' : Λ) (h h' : Hook κ) :
    h' ∈ (b.addHook l h).hooks l' ↔ h' ∈ b.hooks l' ∨ (l' = l ∧ h' = h) := by
  unfold addHook changeHooks
  by_cases hl : l' = l <;> simp [hl]

lemma hooks_join (b : Barrier κ Λ) (hl : c.lifecycle = some l) (hk : c.key? = some k) :
    (b.join c).hooks = (b.addHook l (.scanDone b.nextId k)).hooks := by
  unfold join
  rw [hl, hk]

lemma nextId_join (b : Barrier κ Λ) (hl : c.lifecycle = some l) (hk : c.key? = some k) :
    (b.join c).nextId = b.nextId + 1 := by
  unfold join
  rw [hl, hk]
  rfl

lemma Numbered.addHook_foreign {b : Barrier κ Λ} (hb : b.Numbered) (l : Λ) (h : κ) :
    (b.addHook l (.foreign h)).Numbered := by
  intro l' id k hmem
  rcases (mem_hooks_addHook b l l' _ _).mp hmem with hmem | ⟨-, heq⟩
  · exact hb l' id k hmem
  · cases heq

lemma Numbered.join {b : Barrier κ Λ} (hb : b.Numbered) (c : Context Λ) :
    (b.join c).Numbered := by
  cases hl : c.lifecycle with
  | none => simpa only [Barrier.join, hl] using hb
  | some l =>
    cases hk : c.key? with
    | none => simpa only [Barrier.join, hl, hk] using hb
    | some k =>
      intro l' id k' hmem
      rw [hooks_join b hl hk] at hmem
      rw [nextId_join b hl hk]
      rcases (mem_hooks_addHook b l l' _ _).mp hmem with hmem | ⟨-, heq⟩
      · exact Nat.lt_succ_of_lt (hb l' id k' hmem)
      · cases heq
        exact Nat.lt_succ_self b.nextId

end Join

variable [DecidableEq κ] [DecidableEq Λ]

def Company.fanout (P : Company ι κ) : Fanout (Barrier κ Λ) (Listener ι) (Hook κ) Λ :=
  Barrier.fanout P.listeners P.outcome P.hookOutcome

/-- What changes the barrier: a foreign hook joins or leaves a lifecycle, hooks are told about a
moment, or an event goes round. -/
inductive Happening (ι κ Λ : Type) where
  | joined (lifecycle : Λ) (hook : κ)
  | left (lifecycle : Λ) (hook : κ)
  | told (company : Company ι κ) (lifecycle : Λ) (moment : Moment) (event : Event)
  | notified (company : Company ι κ) (context : Context Λ)

def happen (b : Barrier κ Λ) : Happening ι κ Λ → Barrier κ Λ
  | .joined l h => b.addHook l (.foreign h)
  | .left l h => b.removeHook l (.foreign h)
  | .told P l m e => (P.fanout.fire l m e b).2
  | .notified P c => (P.fanout.notify c b).2

/-- The barrier after a history that began with nothing. -/
def afterAll (xs : List (Happening ι κ Λ)) : Barrier κ Λ := xs.foldl happen {}

section Numbers

variable {b : Barrier κ Λ}

lemma Numbered.removeHook (hb : b.Numbered) (l : Λ) (h : Hook κ) :
    (b.removeHook l h).Numbered := by
  intro l' id k hmem
  by_cases hl : l' = l
  · simp only [Barrier.removeHook, changeHooks, hl, if_true] at hmem
    exact hb l id k (List.mem_filter.mp hmem).1
  · simp only [Barrier.removeHook, changeHooks, hl, if_false] at hmem
    exact hb l' id k hmem

lemma Numbered.deliver (hb : b.Numbered) (P : Company ι κ) (i : Listener ι) (c : Context Λ) :
    (P.fanout.deliver i c b).2.Numbered := by
  cases i with
  | gate => exact hb.join c
  | other i => exact hb

lemma Numbered.tell (hb : b.Numbered) (P : Company ι κ) (h : Hook κ) (l : Λ) (m : Moment)
    (e : Event) : (P.fanout.tell h l m e b).2.Numbered := by
  cases h with
  | foreign h => exact hb
  | scanDone id k =>
    cases m with
    | scanDone => exact hb.removeHook l (.scanDone id k)
    | _ => exact hb

lemma Numbered.happen (hb : b.Numbered) (x : Happening ι κ Λ) : (b.happen x).Numbered := by
  cases x with
  | joined l h => exact hb.addHook_foreign l h
  | left l h => exact hb.removeHook l (.foreign h)
  | told P l m e => exact Fanout.tellEach_preserves (fun h b hb => hb.tell P h l m e) _ hb
  | notified P c =>
    exact Fanout.notify_preserves (fun i b hb => hb.deliver P i c)
      (fun h l m b hb => hb.tell P h l m c.event) hb

lemma numbered_afterAll (xs : List (Happening ι κ Λ)) : (afterAll xs).Numbered := by
  induction xs using List.reverseRecOn with
  | nil => exact fun l id k hmem => nomatch hmem
  | append_singleton xs x ih =>
    rw [afterAll, List.foldl_append]
    exact ih.happen x

end Numbers

section Round

variable {P : Company ι κ} {b : Barrier κ Λ} {c : Context Λ} {l : Λ} {k : PatchSetKey}
  {m : Moment} {e : Event} {hs : List (Hook κ)}

lemma fst_tellEach_eq_brokeOff_iff :
    (P.fanout.tellEach l m e hs b).1 = .brokeOff ↔ P.Breaks hs m := by
  induction hs generalizing b with
  | nil => simp [Fanout.tellEach, not_breaks_nil]
  | cons h hs ih =>
    cases h with
    | scanDone id k =>
      have hreturns : (P.fanout.tell (.scanDone id k) l m e b).1 = .returned := by
        cases m <;> rfl
      rw [P.fanout.tellEach_cons_of_ne_brokeOff l m e _ hs b (by simp [hreturns]), ih,
        breaks_cons_scanDone]
    | foreign h =>
      have htell : P.fanout.tell (.foreign h) l m e b = (P.hookOutcome h m, b) := rfl
      rw [breaks_cons_foreign]
      by_cases ho : P.hookOutcome h m = .brokeOff
      · rw [P.fanout.tellEach_cons_of_brokeOff l m e _ hs b (by rw [htell, ho]), htell]
        simp [ho]
      · rw [P.fanout.tellEach_cons_of_ne_brokeOff l m e _ hs b (by rwa [htell]), htell, ih]
        simp [ho]

lemma snd_tellEach_of_ne_scanDone (hm : m ≠ .scanDone) :
    (P.fanout.tellEach l m e hs b).2 = b := by
  have htell : ∀ h b', b' = b → (P.fanout.tell h l m e b').2 = b := by
    rintro h b' rfl
    cases h with
    | foreign h => rfl
    | scanDone id k =>
      cases m with
      | scanDone => exact absurd rfl hm
      | _ => rfl
  exact Fanout.tellEach_preserves htell hs rfl

lemma tellEach_first_brokeOff {before behind : List (Hook κ)} {h : κ} (hnot : ¬ P.Breaks before m)
    (ho : P.hookOutcome h m = .brokeOff) :
    P.fanout.tellEach l m e (before ++ .foreign h :: behind) b =
      (.brokeOff, (P.fanout.tellEach l m e before b).2) := by
  have hbefore : (P.fanout.tellEach l m e before b).1 ≠ .brokeOff :=
    mt fst_tellEach_eq_brokeOff_iff.mp hnot
  have htell : ∀ b', P.fanout.tell (.foreign h) l m e b' = (.brokeOff, b') := by
    intro b'
    rw [← ho]
    rfl
  rw [Fanout.tellEach_append, if_neg hbefore, Fanout.tellEach_cons_of_brokeOff, htell]
  rw [htell]

lemma lifted_fire_scanDone (hnot : ¬ P.Breaks (b.hooks l) .scanDone)
    (hmem : ∃ id, .scanDone id k ∈ b.hooks l) : (P.fanout.fire l .scanDone e b).2.Lifted l k := by
  have hq : ∀ h, .foreign h ∈ b.hooks l → P.hookOutcome h .scanDone ≠ .brokeOff :=
    fun h hh ho => hnot ⟨h, hh, ho⟩
  obtain ⟨htrig, hhooks⟩ := tellEach_scanDone P.listeners P.outcome l e (b.hooks l) hq b
  obtain ⟨id, hid⟩ := hmem
  constructor
  · exact Bool.eq_false_iff.mpr fun hup => ((htrig k).mp hup).2 id hid
  · intro id' k' hmem
    obtain ⟨hmem, hnot⟩ := (hhooks l id' k').mp hmem
    exact hnot ⟨rfl, hmem⟩

lemma exists_hooks_deliverEach (hl : c.lifecycle = some l) (hk : c.key? = some k)
    (is : List (Listener ι)) (b : Barrier κ Λ) :
    ∃ new, (P.fanout.deliverEach c is b).hooks l = b.hooks l ++ new ∧
      (∀ h ∈ new, ∃ id, b.nextId ≤ id ∧ h = .scanDone id k) ∧ (.gate ∈ is → new ≠ []) := by
  induction is generalizing b with
  | nil => exact ⟨[], (List.append_nil _).symm, nofun, nofun⟩
  | cons i is ih =>
    cases i with
    | gate =>
      obtain ⟨new, hnew, hids, -⟩ := ih (b.join c)
      have hjoin : (b.join c).hooks l = b.hooks l ++ [.scanDone b.nextId k] := by
        rw [hooks_join b hl hk, addHook, changeHooks]
        exact if_pos rfl
      refine ⟨.scanDone b.nextId k :: new, ?_, ?_, fun _ => List.cons_ne_nil _ _⟩
      · have hstep : P.fanout.deliverEach c (.gate :: is) b =
            P.fanout.deliverEach c is (b.join c) := rfl
        rw [hstep, hnew, hjoin, List.append_assoc, List.singleton_append]
      · intro h hh
        rcases List.mem_cons.mp hh with rfl | hh
        · exact ⟨b.nextId, Nat.le_refl _, rfl⟩
        · obtain ⟨id, hle, rfl⟩ := hids h hh
          rw [nextId_join b hl hk] at hle
          exact ⟨id, Nat.le_of_succ_le hle, rfl⟩
    | other i =>
      obtain ⟨new, hnew, hids, hne⟩ := ih b
      refine ⟨new, hnew, hids, fun hmem => hne ?_⟩
      simpa using hmem

lemma isTriggering_deliverEach (hl : c.lifecycle = some l) (hk : c.key? = some k)
    {is : List (Listener ι)} (hgate : .gate ∈ is) (b : Barrier κ Λ) :
    (P.fanout.deliverEach c is b).isTriggering k = true := by
  have hdeliver : ∀ i b, isTriggering b k = true →
      (P.fanout.deliver i c b).2.isTriggering k = true := by
    intro i b hup
    cases i with
    | gate => exact (isTriggering_join b c k).mpr (.inr hup)
    | other i => exact hup
  induction is generalizing b with
  | nil => cases hgate
  | cons i is ih =>
    rcases List.mem_cons.mp hgate with rfl | hgate
    · have hjoin : (b.join c).isTriggering k = true :=
        (isTriggering_join b c k).mpr (.inl ⟨by rw [hl]; rfl, hk⟩)
      exact Fanout.deliverEach_preserves hdeliver is hjoin
    · exact ih hgate _

lemma notify_of_breaks (hl : c.lifecycle = some l)
    (hbreaks : P.Breaks (b.hooks l) .scanStarting) : (P.fanout.notify c b).2 = b := by
  have hstart : (P.fanout.fire l .scanStarting c.event b).1 = .brokeOff :=
    fst_tellEach_eq_brokeOff_iff.mpr hbreaks
  rw [Fanout.notify_of_lifecycle _ hl]
  simp only [hstart, if_true]
  exact snd_tellEach_of_ne_scanDone nofun

lemma notify_of_not_breaks (hl : c.lifecycle = some l)
    (hbreaks : ¬ P.Breaks (b.hooks l) .scanStarting) : P.fanout.notify c b =
      P.fanout.fire l .scanDone c.event (P.fanout.deliverEach c P.listeners b) := by
  have hstart : (P.fanout.fire l .scanStarting c.event b).1 ≠ .brokeOff :=
    mt fst_tellEach_eq_brokeOff_iff.mp hbreaks
  have hquiet : (P.fanout.fire l .scanStarting c.event b).2 = b :=
    snd_tellEach_of_ne_scanDone nofun
  rw [Fanout.notify_of_lifecycle _ hl]
  simp only [hstart, if_false, hquiet]
  rfl

/-- A hook that breaks off when the scan is done keeps the new hooks of the gate from being told,
since these stand behind it. -/
lemma left_behind_of_breaks (hb : b.Numbered) (hl : c.lifecycle = some l) (hk : c.key? = some k)
    (hgate : .gate ∈ P.listeners) (hstart : ¬ P.Breaks (b.hooks l) .scanStarting)
    (hdone : P.Breaks (b.hooks l) .scanDone) :
    (∃ id, .scanDone id k ∈ (P.fanout.notify c b).2.hooks l) ∧
      (b.Lifted l k → (P.fanout.notify c b).2.isTriggering k = true) := by
  let joined := P.fanout.deliverEach c P.listeners b
  obtain ⟨new, hnew, hids, hne⟩ := exists_hooks_deliverEach (P := P) hl hk P.listeners b
  obtain ⟨before, h, behind, hsplit, hnot, ho⟩ := hdone.exists_first
  have hjoined : joined.hooks l = before ++ .foreign h :: (behind ++ new) := by
    rw [hnew, hsplit, List.append_assoc, List.cons_append]
  have hround : (P.fanout.notify c b).2 =
      (P.fanout.tellEach l .scanDone c.event before joined).2 := by
    have hfire : P.fanout.fire l .scanDone c.event joined =
        P.fanout.tellEach l .scanDone c.event (joined.hooks l) joined := rfl
    rw [notify_of_not_breaks hl hstart, hfire, hjoined, tellEach_first_brokeOff hnot ho]
  have hq : ∀ h, .foreign h ∈ before → P.hookOutcome h .scanDone ≠ .brokeOff :=
    fun h hh ho => hnot ⟨h, hh, ho⟩
  obtain ⟨htrig, hhooks⟩ :=
    tellEach_scanDone P.listeners P.outcome l c.event before hq joined
  have hold : ∀ h ∈ before, h ∈ b.hooks l := fun h hh => by simp [hsplit, hh]
  rw [hround]
  constructor
  · obtain ⟨h', hh'⟩ := List.exists_mem_of_ne_nil new (hne hgate)
    obtain ⟨id, hle, rfl⟩ := hids h' hh'
    have hmem : .scanDone id k ∈ joined.hooks l := by simp [hjoined, hh']
    -- the number of the hook is new, so none of the hooks that were told takes it out
    have hfresh : .scanDone id k ∉ before :=
      fun hmem => Nat.not_lt.mpr hle (hb l id k (hold _ hmem))
    exact ⟨id, (hhooks l id k).mpr ⟨hmem, fun h => hfresh h.2⟩⟩
  · intro hlifted
    have hup : joined.isTriggering k = true := isTriggering_deliverEach hl hk hgate b
    exact (htrig k).mpr ⟨hup, fun id hmem => hlifted.2 id k (hold _ hmem)⟩

lemma lifted_of_not_breaks (hl : c.lifecycle = some l) (hk : c.key? = some k)
    (hgate : .gate ∈ P.listeners) (hstart : ¬ P.Breaks (b.hooks l) .scanStarting)
    (hdone : ¬ P.Breaks (b.hooks l) .scanDone) : (P.fanout.notify c b).2.Lifted l k := by
  obtain ⟨new, hnew, hids, hne⟩ := exists_hooks_deliverEach (P := P) hl hk P.listeners b
  rw [notify_of_not_breaks hl hstart]
  refine lifted_fire_scanDone ?_ ?_
  · rw [hnew]
    rintro ⟨h, hmem, ho⟩
    rcases List.mem_append.mp hmem with hmem | hmem
    · exact hdone ⟨h, hmem, ho⟩
    · obtain ⟨id, -, heq⟩ := hids _ hmem
      cases heq
  · obtain ⟨h, hh⟩ := List.exists_mem_of_ne_nil new (hne hgate)
    obtain ⟨id, -, rfl⟩ := hids h hh
    exact ⟨id, by simp [hnew, hh]⟩

/-- Whether the barrier is lifted when an event has gone round, whatever happened before. It is if
no foreign hook of the lifecycle breaks off at either end of the scan. A hook that breaks off at the
start changes nothing; one that breaks off only at the end leaves a hook of the gate behind, and the
barrier up if it was down before. -/
theorem lifted_notify_iff (xs : List (Happening ι κ Λ)) (P : Company ι κ) {c : Context Λ} {l : Λ}
    {k : PatchSetKey} (hl : c.lifecycle = some l) (hk : c.key? = some k)
    (hgate : .gate ∈ P.listeners) :
    let b := afterAll xs
    let b' := (P.fanout.notify c b).2
    (b'.Lifted l k ↔ (P.Breaks (b.hooks l) .scanStarting ∧ b.Lifted l k) ∨
      (¬ P.Breaks (b.hooks l) .scanStarting ∧ ¬ P.Breaks (b.hooks l) .scanDone)) ∧
    (P.Breaks (b.hooks l) .scanStarting → b' = b) ∧
    (¬ P.Breaks (b.hooks l) .scanStarting → P.Breaks (b.hooks l) .scanDone →
      (∃ id, .scanDone id k ∈ b'.hooks l) ∧ (b.Lifted l k → b'.isTriggering k = true)) := by
  intro b b'
  by_cases hstart : P.Breaks (b.hooks l) .scanStarting
  · have heq : b' = b := notify_of_breaks hl hstart
    rw [heq]
    exact ⟨by simp [hstart], fun _ => rfl, fun hnot => absurd hstart hnot⟩
  · by_cases hdone : P.Breaks (b.hooks l) .scanDone
    · have hleft := left_behind_of_breaks (numbered_afterAll xs) hl hk hgate hstart hdone
      have hnot : ¬ b'.Lifted l k := by
        obtain ⟨⟨id, hid⟩, -⟩ := hleft
        exact fun hlifted => hlifted.2 id k hid
      exact ⟨by simp [hstart, hdone, hnot], fun h => absurd h hstart, fun _ _ => hleft⟩
    · have hlifted : b'.Lifted l k := lifted_of_not_breaks hl hk hgate hstart hdone
      exact ⟨by simp [hstart, hdone, hlifted], fun h => absurd h hstart,
        fun _ h => absurd h hdone⟩

/-- A hook of the gate that was left behind does its work when another event goes round, whose
foreign hooks all return. -/
theorem lifted_by_later_round :
    let k : PatchSetKey := ⟨30, 2⟩
    let c : Context String := ⟨Event.bare k, some "first"⟩
    let broken : Company Unit Unit :=
      ⟨[.gate], fun _ => .returned, fun _ m => if m = .scanDone then .brokeOff else .returned⟩
    let calm : Company Unit Unit :=
      ⟨[.other (), .gate, .gate], fun _ => .brokeOff, fun _ _ => .returned⟩
    let b := afterAll [.joined "first" (), .notified broken c]
    b.isTriggering k = true ∧ (calm.fanout.notify c b).2.Lifted "first" k := by
  intro k c broken calm b
  have hcalm : ∀ hs m, ¬ calm.Breaks hs m := by
    rintro hs m ⟨h, -, ho⟩
    cases ho
  have hlifted := (lifted_notify_iff [.joined "first" (), .notified broken c] calm
    (c := c) (l := "first") (k := k) rfl rfl (by decide)).1
  exact ⟨by decide, hlifted.mpr (.inr ⟨hcalm _ _, hcalm _ _⟩)⟩

/-- The barrier stays up when a hook in front of the gate's breaks off. A hook that returns leaves
one of the gate's behind too, if it hands the event to the gate again when the scan is done. -/
theorem not_lifted_behind_failing_hook :
    let k : PatchSetKey := ⟨30, 2⟩
    let c : Context String := ⟨Event.bare k, some "first"⟩
    let b := afterAll ([.joined "first" ()] : List (Happening Empty Unit String))
    let broken : Company Empty Unit :=
      ⟨[.gate], Empty.elim, fun _ m => if m = .scanDone then .brokeOff else .returned⟩
    let calm : Company Empty Unit := ⟨[.gate], Empty.elim, fun _ _ => .returned⟩
    let again : Fanout (Barrier Unit String) (Listener Empty) (Hook Unit) String :=
      { calm.fanout with tell := fun h l m e b =>
          if h = .foreign () ∧ m = .scanDone then (.returned, b.join c)
          else calm.fanout.tell h l m e b }
    b.Lifted "first" k ∧
      (broken.fanout.notify c b).2.isTriggering k = true ∧
      (broken.fanout.notify c b).2.hooks "first" = [.foreign (), .scanDone 0 k] ∧
      ¬ (broken.fanout.notify c b).2.Lifted "first" k ∧
      (again.notify c b).2.hooks "first" = [.foreign (), .scanDone 1 k] ∧
      ¬ (again.notify c b).2.Lifted "first" k := by
  intro k c b broken calm again
  have hbefore : b.hooks "first" = [.foreign ()] := by decide
  have hlifted : b.Lifted "first" k := ⟨by decide, fun id k' hmem => by simp [hbefore] at hmem⟩
  have hbroken : (broken.fanout.notify c b).2.hooks "first" = [.foreign (), .scanDone 0 k] := by
    decide
  have hagain : (again.notify c b).2.hooks "first" = [.foreign (), .scanDone 1 k] := by decide
  refine ⟨hlifted, by decide, hbroken, fun h => h.2 0 k ?_, hagain, fun h => h.2 1 k ?_⟩
  · simp [hbroken]
  · simp [hagain]

end Round

end ReviewStream.Gate.Barrier
