import Mathlib.Data.List.Induction
import Mathlib.Tactic.Lemma
import ReviewStream.Gate.Basic
import ReviewStream.Proofs.Fanout
import ReviewStream.Proofs.Ledger.Lookup

/-!
# Trigger scans at the barrier

The barrier notes patch sets, while scans belong to lifecycles. As long as the scans of a patch set
come one after another the barrier is up exactly while one of them is in progress. If they overlap,
the first one that is done takes the barrier down for all of them.
-/

namespace ReviewStream.Gate.Barrier

section Since

variable {α : Type} {start : α → Prop} {stop : List α → α → Prop}

/-- Something in the history was a start, and nothing after it was a stop in the light of what had
come before. -/
def Since (start : α → Prop) (stop : List α → α → Prop) (xs : List α) : Prop :=
  ∃ before x after, xs = before ++ x :: after ∧ start x ∧
    ∀ mid y rest, after = mid ++ y :: rest → ¬ stop (before ++ x :: mid) y

lemma not_since_nil : ¬ Since start stop [] := by
  rintro ⟨before, x, after, h, -⟩
  simp at h

lemma eq_append_cons_of_append_singleton {xs before after : List α} {x y : α}
    (h : xs ++ [x] = before ++ y :: after) :
    (before = xs ∧ y = x ∧ after = []) ∨
      ∃ rest, after = rest ++ [x] ∧ xs = before ++ y :: rest := by
  rcases List.eq_nil_or_concat after with rfl | ⟨rest, z, rfl⟩
  · obtain ⟨hxs, hx⟩ := List.append_inj' h rfl
    exact .inl ⟨hxs.symm, (List.singleton_inj.mp hx).symm, rfl⟩
  · have h : xs ++ [x] = (before ++ y :: rest) ++ [z] := by simpa using h
    obtain ⟨hxs, hx⟩ := List.append_inj' h rfl
    exact .inr ⟨rest, by rw [List.concat_eq_append, hx], hxs⟩

lemma since_append_singleton {xs : List α} {x : α} :
    Since start stop (xs ++ [x]) ↔ start x ∨ (Since start stop xs ∧ ¬ stop xs x) := by
  constructor
  · rintro ⟨before, y, after, hsplit, hstart, hnone⟩
    rcases eq_append_cons_of_append_singleton hsplit with ⟨-, rfl, -⟩ | ⟨rest, rfl, rfl⟩
    · exact .inl hstart
    · refine .inr ⟨⟨before, y, rest, rfl, hstart, fun mid z later hz => ?_⟩, ?_⟩
      · exact hnone mid z (later ++ [x]) (by simp [hz])
      · exact hnone rest x [] rfl
  · rintro (hstart | ⟨⟨before, y, after, rfl, hstart, hnone⟩, hstop⟩)
    · exact ⟨xs, x, [], rfl, hstart, by simp⟩
    · refine ⟨before, y, after ++ [x], by simp, hstart, fun mid z later hz => ?_⟩
      rcases eq_append_cons_of_append_singleton hz with ⟨rfl, rfl, -⟩ | ⟨rest, -, hafter⟩
      · exact hstop
      · exact hnone mid z rest hafter

end Since

/-- What happens around the barrier: the gate is handed an event, or the hooks of a lifecycle are
told that the scan of an event is done. -/
inductive ScanStep (Λ : Type) where
  | handed (context : Context Λ)
  | done (lifecycle : Λ) (event : Event)

/-- The gate was handed an event about the patch set with this lifecycle, whose scan has not been
reported done since. -/
def Scanning {Λ : Type} (l : Λ) (k : PatchSetKey) : List (ScanStep Λ) → Prop :=
  Since (fun x => ∃ c : Context Λ, x = .handed c ∧ c.lifecycle = some l ∧ c.key? = some k)
    fun _ y => ∃ e, y = .done l e

/-- The gate was handed an event about the patch set with a lifecycle, and no scan of the patch set
has been reported done since. -/
def Announced {Λ : Type} (k : PatchSetKey) : List (ScanStep Λ) → Prop :=
  Since (fun x => ∃ c : Context Λ, x = .handed c ∧ c.lifecycle.isSome = true ∧ c.key? = some k)
    fun xs y => ∃ l e, y = .done l e ∧ Scanning l k xs

section History

variable {Λ : Type} {l l' : Λ} {k : PatchSetKey} {c : Context Λ} {e : Event}
  {xs : List (ScanStep Λ)}

@[simp] lemma not_scanning_nil : ¬ Scanning l k [] := not_since_nil

@[simp] lemma not_announced_nil : ¬ Announced k ([] : List (ScanStep Λ)) := not_since_nil

lemma scanning_handed : Scanning l k (xs ++ [.handed c]) ↔
    (c.lifecycle = some l ∧ c.key? = some k) ∨ Scanning l k xs := by
  unfold Scanning
  rw [since_append_singleton]
  simp

lemma scanning_done : Scanning l k (xs ++ [.done l' e]) ↔ Scanning l k xs ∧ l' ≠ l := by
  unfold Scanning
  rw [since_append_singleton]
  simp

lemma announced_handed : Announced k (xs ++ [.handed c]) ↔
    (c.lifecycle.isSome = true ∧ c.key? = some k) ∨ Announced k xs := by
  unfold Announced
  rw [since_append_singleton]
  simp

lemma announced_done : Announced k (xs ++ [.done l e]) ↔ Announced k xs ∧ ¬ Scanning l k xs := by
  unfold Announced
  rw [since_append_singleton]
  simp

lemma Announced.exists_scanning (h : Announced k xs) : ∃ l, Scanning l k xs := by
  induction xs using List.reverseRecOn with
  | nil => exact absurd h not_announced_nil
  | append_singleton xs x ih =>
    cases x with
    | handed c =>
      rcases announced_handed.mp h with ⟨hl, hk⟩ | h
      · obtain ⟨l, hl⟩ := Option.isSome_iff_exists.mp hl
        exact ⟨l, scanning_handed.mpr (.inl ⟨hl, hk⟩)⟩
      · obtain ⟨l, hl⟩ := ih h
        exact ⟨l, scanning_handed.mpr (.inr hl)⟩
    | done l e =>
      obtain ⟨h, hdone⟩ := announced_done.mp h
      obtain ⟨l', hl'⟩ := ih h
      exact ⟨l', scanning_done.mpr ⟨hl', fun he => hdone (he ▸ hl')⟩⟩

/-- In the history no scan of the patch set is reported done while another one is in progress. -/
def OneByOne (k : PatchSetKey) (xs : List (ScanStep Λ)) : Prop :=
  ∀ ys l e, ys ++ [.done l e] <+: xs → Scanning l k ys → ∀ l', Scanning l' k ys → l' = l

lemma OneByOne.announced_of_scanning (h : OneByOne k xs) (hl : Scanning l k xs) :
    Announced k xs := by
  induction xs using List.reverseRecOn generalizing l with
  | nil => exact absurd hl not_scanning_nil
  | append_singleton xs x ih =>
    have hinit : OneByOne k xs := fun ys l e hys => h ys l e (hys.trans (List.prefix_append xs [x]))
    cases x with
    | handed c =>
      rcases scanning_handed.mp hl with ⟨hsome, hk⟩ | hl
      · exact announced_handed.mpr (.inl ⟨by simp [hsome], hk⟩)
      · exact announced_handed.mpr (.inr (ih hinit hl))
    | done l' e =>
      obtain ⟨hl, hne⟩ := scanning_done.mp hl
      have hother : ¬ Scanning l' k xs := fun hl' => hne (h xs l' e List.prefix_rfl hl' l hl).symm
      exact announced_done.mpr ⟨ih hinit hl, hother⟩

lemma oneByOne_of_announced
    (h : ∀ ys, ys <+: xs → (∃ l, Scanning l k ys) → Announced k ys) : OneByOne k xs := by
  intro ys l e hys hl l' hl'
  by_contra hne
  have hstill : Scanning l' k (ys ++ [.done l e]) :=
    scanning_done.mpr ⟨hl', fun he => hne he.symm⟩
  exact (announced_done.mp (h _ hys ⟨l', hstill⟩)).2 hl

end History

section Steps

variable {κ Λ : Type} [DecidableEq Λ]

lemma triggering_join (b : Barrier κ Λ) {c : Context Λ} {l : Λ} {k : PatchSetKey}
    (hl : c.lifecycle = some l) (hk : c.key? = some k) :
    (b.join c).triggering = b.triggering.insert k := by
  unfold join
  rw [hl, hk]
  rfl

lemma isTriggering_join (b : Barrier κ Λ) (c : Context Λ) (k : PatchSetKey) :
    (b.join c).isTriggering k = true ↔
      (c.lifecycle.isSome = true ∧ c.key? = some k) ∨ b.isTriggering k = true := by
  unfold isTriggering
  cases hl : c.lifecycle with
  | none => simp [join, hl]
  | some l =>
    cases hk : c.key? with
    | none => simp [join, hl, hk]
    | some k' =>
      rw [triggering_join b hl hk, List.contains_iff_mem, List.mem_insert_iff]
      simp [eq_comm]

lemma mem_hooks_join (b : Barrier κ Λ) (c : Context Λ) (l : Λ) (k : PatchSetKey) :
    (∃ id, .scanDone id k ∈ (b.join c).hooks l) ↔
      (c.lifecycle = some l ∧ c.key? = some k) ∨ ∃ id, .scanDone id k ∈ b.hooks l := by
  unfold join
  cases hl : c.lifecycle with
  | none => simp
  | some l' =>
    cases hk : c.key? with
    | none => simp
    | some k' =>
      by_cases he : l = l'
      · subst he
        simp [addHook, changeHooks, exists_or, or_comm, eq_comm]
      · have hne : l' ≠ l := fun h => he h.symm
        simp [addHook, changeHooks, he, hne]

variable [DecidableEq κ]

lemma isTriggering_leave (b : Barrier κ Λ) (l : Λ) (id : Nat) (k k' : PatchSetKey) :
    (b.leave l id k).isTriggering k' = true ↔ b.isTriggering k' = true ∧ k' ≠ k := by
  simp [leave, isTriggering]

lemma mem_hooks_leave (b : Barrier κ Λ) (l l' : Λ) (id : Nat) (k : PatchSetKey) (h : Hook κ) :
    h ∈ (b.leave l id k).hooks l' ↔ h ∈ b.hooks l' ∧ ¬ (l' = l ∧ h = .scanDone id k) := by
  unfold leave removeHook changeHooks
  by_cases hl : l' = l <;> simp [hl]

/-- Telling hooks that a scan is done takes the barriers of the gate's hooks among them down and
those hooks out, whatever foreign hooks there are in between. -/
lemma tellEach_scanDone {ι : Type} (listeners : List (Listener ι)) (answer : ι → Outcome)
    {outcome : κ → Moment → Outcome} (l : Λ) (e : Event) (hs : List (Hook κ))
    (hq : ∀ h, .foreign h ∈ hs → outcome h .scanDone ≠ .brokeOff) (b : Barrier κ Λ) :
    let F := fanout listeners answer outcome
    let b' := (F.tellEach l .scanDone e hs b).2
    (∀ k, b'.isTriggering k = true ↔ b.isTriggering k = true ∧ ∀ id, .scanDone id k ∉ hs) ∧
    ∀ l' id k, .scanDone id k ∈ b'.hooks l' ↔
      .scanDone id k ∈ b.hooks l' ∧ ¬ (l' = l ∧ .scanDone id k ∈ hs) := by
  intro F
  induction hs generalizing b with
  | nil => simp [Fanout.tellEach]
  | cons h hs ih =>
    have hrest : ∀ h, .foreign h ∈ hs → outcome h .scanDone ≠ .brokeOff :=
      fun h hmem => hq h (List.mem_cons_of_mem _ hmem)
    cases h with
    | scanDone id k =>
      obtain ⟨htrig, hhooks⟩ := ih hrest (b.leave l id k)
      have hstep : F.tellEach l .scanDone e (.scanDone id k :: hs) b =
          F.tellEach l .scanDone e hs (b.leave l id k) :=
        F.tellEach_cons_of_ne_brokeOff l .scanDone e _ hs b (by simp [F, fanout])
      refine ⟨fun k' => ?_, fun l' id' k' => ?_⟩
      · rw [hstep, htrig, isTriggering_leave]
        simp only [List.mem_cons, Hook.scanDone.injEq, not_or]
        constructor
        · rintro ⟨⟨ht, hne⟩, hn⟩
          exact ⟨ht, fun id' => ⟨fun hid => hne hid.2, hn id'⟩⟩
        · rintro ⟨ht, hn⟩
          exact ⟨⟨ht, fun hk => (hn id).1 ⟨rfl, hk⟩⟩, fun id' => (hn id').2⟩
      · rw [hstep, hhooks, mem_hooks_leave]
        simp only [List.mem_cons]
        tauto
    | foreign h =>
      have hstep : F.tellEach l .scanDone e (.foreign h :: hs) b =
          F.tellEach l .scanDone e hs b :=
        F.tellEach_cons_of_ne_brokeOff l .scanDone e _ hs b (hq h (List.mem_cons_self ..))
      simpa [hstep] using ih hrest b

def scanStep (outcome : κ → Moment → Outcome) (b : Barrier κ Λ) : ScanStep Λ → Barrier κ Λ
  | .handed c => b.join c
  | .done l e =>
    ((fanout ([] : List (Listener Empty)) Empty.elim outcome).fire l .scanDone e b).2

/-- The barrier after a history that began with nothing but foreign hooks. -/
def afterScans (outcome : κ → Moment → Outcome) (foreign : Λ → List κ)
    (xs : List (ScanStep Λ)) : Barrier κ Λ :=
  xs.foldl (scanStep outcome) { hooks := fun l => (foreign l).map .foreign }

end Steps

section Run

variable {κ Λ : Type} [DecidableEq κ] [DecidableEq Λ] {outcome : κ → Moment → Outcome}
  {k : PatchSetKey} {xs : List (ScanStep Λ)}

lemma afterScans_append_singleton (outcome : κ → Moment → Outcome) (foreign : Λ → List κ)
    (xs : List (ScanStep Λ)) (x : ScanStep Λ) :
    afterScans outcome foreign (xs ++ [x]) =
      scanStep outcome (afterScans outcome foreign xs) x := by
  simp [afterScans]

/-- The gate has got a hook for a patch set in a lifecycle exactly while that lifecycle scans. -/
lemma mem_hooks_afterScans (hq : ∀ h, outcome h .scanDone ≠ .brokeOff) (foreign : Λ → List κ)
    (l : Λ) (k : PatchSetKey) (xs : List (ScanStep Λ)) :
    (∃ id, .scanDone id k ∈ (afterScans outcome foreign xs).hooks l) ↔ Scanning l k xs := by
  induction xs using List.reverseRecOn with
  | nil => simp [afterScans]
  | append_singleton xs x ih =>
    rw [afterScans_append_singleton]
    generalize afterScans outcome foreign xs = b at ih ⊢
    cases x with
    | handed c => rw [scanning_handed, scanStep, mem_hooks_join, ih]
    | done l' e =>
      obtain ⟨-, hhooks⟩ := tellEach_scanDone ([] : List (Listener Empty)) Empty.elim l' e
        (b.hooks l') (fun h _ => hq h) b
      rw [scanning_done, ← ih]
      constructor
      · rintro ⟨id, hid⟩
        obtain ⟨hmem, hnot⟩ := (hhooks l id k).mp hid
        exact ⟨⟨id, hmem⟩, fun h => hnot ⟨h.symm, h ▸ hmem⟩⟩
      · rintro ⟨⟨id, hmem⟩, hne⟩
        exact ⟨id, (hhooks l id k).mpr ⟨hmem, fun h => hne h.1.symm⟩⟩

lemma isTriggering_afterScans (hq : ∀ h, outcome h .scanDone ≠ .brokeOff) (foreign : Λ → List κ)
    (k : PatchSetKey) (xs : List (ScanStep Λ)) :
    (afterScans outcome foreign xs).isTriggering k = true ↔ Announced k xs := by
  induction xs using List.reverseRecOn with
  | nil => simp [afterScans, isTriggering]
  | append_singleton xs x ih =>
    rw [afterScans_append_singleton]
    cases x with
    | handed c => rw [announced_handed, scanStep, isTriggering_join, ih]
    | done l e =>
      have hscanning := mem_hooks_afterScans hq foreign l k xs
      generalize afterScans outcome foreign xs = b at ih hscanning ⊢
      obtain ⟨htrig, -⟩ := tellEach_scanDone ([] : List (Listener Empty)) Empty.elim l e (b.hooks l)
        (fun h _ => hq h) b
      rw [announced_done, ← ih, ← hscanning, not_exists]
      exact htrig k

/-- The barrier of a patch set is up from the announcement of a scan until the first report that one
of its scans is done. It is up throughout the scans exactly if these come one by one. -/
theorem isTriggering_iff_scanning (hq : ∀ h, outcome h .scanDone ≠ .brokeOff)
    (foreign : Λ → List κ) (k : PatchSetKey) (xs : List (ScanStep Λ)) :
    ((afterScans outcome foreign xs).isTriggering k = true ↔ Announced k xs) ∧
    ((afterScans outcome foreign xs).isTriggering k = true → ∃ l, Scanning l k xs) ∧
    ((∀ ys, ys <+: xs → ((afterScans outcome foreign ys).isTriggering k = true ↔
      ∃ l, Scanning l k ys)) ↔ OneByOne k xs) := by
  have hann := isTriggering_afterScans hq foreign k
  refine ⟨hann xs, fun h => ((hann xs).mp h).exists_scanning, ?_⟩
  simp only [hann]
  constructor
  · intro h
    exact oneByOne_of_announced fun ys hys => (h ys hys).mpr
  · intro h ys hys
    have hinit : OneByOne k ys := fun zs l e hzs => h zs l e (hzs.trans hys)
    exact ⟨Announced.exists_scanning, fun ⟨l, hl⟩ => hinit.announced_of_scanning hl⟩

theorem isTriggering_during_second_scan :
    let k : PatchSetKey := ⟨30, 2⟩
    let e := Event.bare k
    let outcome : Unit → Moment → Outcome := fun _ _ => .refused
    let xs : List (ScanStep String) := [.handed ⟨e, some "first"⟩, .done "first" e,
      .handed ⟨e, none⟩, .handed ⟨e, some "second"⟩]
    (afterScans outcome (fun _ => [()]) xs).isTriggering k = true ∧
      Announced k xs ∧ ∃ l, Scanning l k xs := by
  intro k e outcome xs
  -- a hook that refuses does not keep the gate's hook after it from being told
  have hq : ∀ h, outcome h .scanDone ≠ .brokeOff := fun _ => nofun
  obtain ⟨hann, hscan, -⟩ := isTriggering_iff_scanning hq (fun _ => [()]) k xs
  have hup : (afterScans outcome (fun _ => [()]) xs).isTriggering k = true := by decide
  exact ⟨hup, hann.mp hup, hscan hup⟩

/-- Two events about one patch set carry lifecycles of their own. When the first scan is done the
barrier is down, though the second is still in progress. -/
theorem first_of_two_scans_lifts_barrier :
    let k : PatchSetKey := ⟨30, 2⟩
    let e := Event.bare k
    let xs : List (ScanStep String) :=
      [.handed ⟨e, some "first"⟩, .handed ⟨e, some "second"⟩, .done "first" e]
    ¬ ((afterScans (fun (_ : Empty) _ => .returned) (fun _ => []) xs).isTriggering k = true ↔
      ∃ l, Scanning l k xs) := by
  intro k e xs h
  have hscanning : Scanning "second" k
      ([.handed ⟨e, some "first"⟩] ++ [.handed ⟨e, some "second"⟩]) :=
    scanning_handed.mpr (.inl ⟨rfl, rfl⟩)
  have hstill : Scanning "second" k xs := scanning_done.mpr ⟨hscanning, by decide⟩
  have hdown : ¬ (afterScans (fun (_ : Empty) _ => .returned) (fun _ => []) xs).isTriggering k =
    true := by decide
  exact hdown (h.mpr ⟨"second", hstill⟩)

end Run

end ReviewStream.Gate.Barrier
