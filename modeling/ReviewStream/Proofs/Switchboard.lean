import Mathlib.Data.List.Induction
import ReviewStream.Proofs.Fanout
import ReviewStream.Switchboard

/-!
# Who is called when an event goes round

Those who are called in a round are those who stand registered when it begins, each once for every
registration and in the order of the registrations, whatever they change in the course of it. Who
stands registered is read off the log: a registration counts as long as no removal follows it.
-/

namespace ReviewStream

section Standing

variable {α β : Type} [DecidableEq α]

/-- The registrations that were not taken back, in the order in which they were made. -/
def standing : List (RosterChange α) → List α
  | [] => []
  | .add x :: rest => if .remove x ∈ rest then standing rest else x :: standing rest
  | .remove _ :: rest => standing rest

lemma standing_append_singleton (cs : List (RosterChange α)) (c : RosterChange α) :
    standing (cs ++ [c]) = c.apply (standing cs) := by
  induction cs with
  | nil => cases c <;> simp [standing, RosterChange.apply]
  | cons c' cs ih =>
    cases c' with
    | remove y => exact ih
    | add y =>
      rw [List.cons_append, standing, ih, standing]
      by_cases hmem : RosterChange.remove y ∈ cs
      · rw [if_pos hmem, if_pos (List.mem_append_left _ hmem)]
      · rw [if_neg hmem]
        cases c with
        | add x => simp [hmem, RosterChange.apply]
        | remove x =>
          by_cases hx : y = x
          · simp [hx, RosterChange.apply]
          · simp [hmem, hx, RosterChange.apply]

lemma standing_filterMap_append_singleton (change? : β → Option (RosterChange α)) (log : List β)
    (x : β) : standing ((log ++ [x]).filterMap change?) =
      match change? x with
      | some c => c.apply (standing (log.filterMap change?))
      | none => standing (log.filterMap change?) := by
  rw [List.filterMap_append]
  cases hx : change? x with
  | none => simp [hx]
  | some c => simp [hx, standing_append_singleton]

end Standing

section Calls

variable {σ ι κ Λ : Type}

def calls (log : List (Occurrence ι κ Λ)) : List (Occurrence ι κ Λ) :=
  log.filter fun
    | .handed .. | .told .. => true
    | .done .. => false

/-- A switchboard that has gone on by some calls, and by changes. -/
def Switchboard.Extends (w w' : Switchboard σ ι κ Λ) (cs : List (Occurrence ι κ Λ)) : Prop :=
  ∃ new, w'.log = w.log ++ new ∧ calls new = cs

namespace Switchboard.Extends

variable {w w' w'' : Switchboard σ ι κ Λ} {cs cs' : List (Occurrence ι κ Λ)}

lemma refl (w : Switchboard σ ι κ Λ) : w.Extends w [] := ⟨[], by simp, rfl⟩

lemma trans (h : w.Extends w' cs) (h' : w'.Extends w'' cs') : w.Extends w'' (cs ++ cs') := by
  obtain ⟨new, hlog, rfl⟩ := h
  obtain ⟨new', hlog', rfl⟩ := h'
  exact ⟨new ++ new', by rw [hlog', hlog, List.append_assoc], List.filter_append ..⟩

end Switchboard.Extends

lemma Switchboard.extends_note (w : Switchboard σ ι κ Λ) (x : Occurrence ι κ Λ) :
    w.Extends (w.note x) (calls [x]) :=
  ⟨[x], rfl, rfl⟩

end Calls

section Registered

variable {ι κ Λ : Type}

/-- The change among the listeners that happened, if it was one. -/
def Occurrence.listenerChange? : Occurrence ι κ Λ → Option (RosterChange ι)
  | .done (.listener change) _ => some change
  | _ => none

/-- The change among the hooks of a lifecycle that happened, if it was one. -/
def Occurrence.hookChange? [DecidableEq Λ] (l : Λ) : Occurrence ι κ Λ → Option (RosterChange κ)
  | .done (.hook l' change) _ => if l' = l then some change else none
  | _ => none

def listenersAfter [DecidableEq ι] (log : List (Occurrence ι κ Λ)) : List ι :=
  standing (log.filterMap Occurrence.listenerChange?)

def hooksAfter [DecidableEq κ] [DecidableEq Λ] (l : Λ) (log : List (Occurrence ι κ Λ)) : List κ :=
  standing (log.filterMap (Occurrence.hookChange? l))

lemma listenersAfter_append_singleton [DecidableEq ι] (log : List (Occurrence ι κ Λ))
    (x : Occurrence ι κ Λ) :
    listenersAfter (log ++ [x]) = match x.listenerChange? with
      | some c => c.apply (listenersAfter log)
      | none => listenersAfter log :=
  standing_filterMap_append_singleton ..

lemma hooksAfter_append_singleton [DecidableEq κ] [DecidableEq Λ] (l : Λ)
    (log : List (Occurrence ι κ Λ)) (x : Occurrence ι κ Λ) :
    hooksAfter l (log ++ [x]) = match x.hookChange? l with
      | some c => c.apply (hooksAfter l log)
      | none => hooksAfter l log :=
  standing_filterMap_append_singleton ..

/-- The calls that tell the hooks of a context which stand registered after a log about a moment. -/
def tellings [DecidableEq κ] [DecidableEq Λ] (c : Context Λ) (m : Moment)
    (log : List (Occurrence ι κ Λ)) : List (Occurrence ι κ Λ) :=
  match c.lifecycle with
  | some l => (hooksAfter l log).map fun h => .told h l m c.event
  | none => []

end Registered

namespace Switchboard

variable {σ ι κ Λ : Type} [DecidableEq ι] [DecidableEq κ] [DecidableEq Λ]
variable {C : Conduct σ ι κ Λ} {w : Switchboard σ ι κ Λ} {c : Context Λ}

@[simp] lemma log_act (w : Switchboard σ ι κ Λ) (d : Deed ι κ Λ) :
    (w.act d).log = w.log ++ [.done d (w.answer? d)] := by
  cases d <;> rfl

section Faithful

/-- Those who are registered are those who stand registered by the log. -/
structure Faithful (w : Switchboard σ ι κ Λ) : Prop where
  listeners : w.listeners = listenersAfter w.log
  hooks : ∀ l, w.hooks l = hooksAfter l w.log

lemma Faithful.act (h : w.Faithful) (d : Deed ι κ Λ) : (w.act d).Faithful := by
  refine ⟨?_, fun l => ?_⟩
  · rw [log_act, listenersAfter_append_singleton, ← h.listeners]
    cases d <;> rfl
  · rw [log_act, hooksAfter_append_singleton, ← h.hooks]
    cases d with
    | listener change => rfl
    | hook l' change =>
      by_cases hl : l = l'
      · simp [Switchboard.act, Switchboard.note, Occurrence.hookChange?, hl]
      · simp [Switchboard.act, Switchboard.note, Occurrence.hookChange?, hl, Ne.symm hl]

lemma Faithful.note (h : w.Faithful) {x : Occurrence ι κ Λ} (hl : x.listenerChange? = none)
    (hh : ∀ l, x.hookChange? l = none) : (w.note x).Faithful := by
  refine ⟨?_, fun l => ?_⟩
  · rw [Switchboard.note, listenersAfter_append_singleton, hl]
    exact h.listeners
  · rw [Switchboard.note, hooksAfter_append_singleton, hh l]
    exact h.hooks l

lemma Faithful.absorb (h : w.Faithful) (x : Call σ ι κ Λ) : (w.absorb x).2.Faithful := by
  have hfold : ∀ (ds : List (Deed ι κ Λ)) (w : Switchboard σ ι κ Λ), w.Faithful →
      (ds.foldl Switchboard.act w).Faithful := by
    intro ds
    induction ds with
    | nil => exact fun _ h => h
    | cons d ds ih => exact fun w h => ih _ (h.act d)
  have hdone := hfold x.deeds w h
  exact ⟨hdone.listeners, hdone.hooks⟩

lemma Faithful.deliver (h : w.Faithful) (i : ι) (c : Context Λ) :
    ((fanout C).deliver i c w).2.Faithful :=
  (h.note rfl fun _ => rfl).absorb _

lemma Faithful.tell (h : w.Faithful) (k : κ) (l : Λ) (m : Moment) (e : Event) :
    ((fanout C).tell k l m e w).2.Faithful :=
  (h.note rfl fun _ => rfl).absorb _

lemma Faithful.deliverEach (h : w.Faithful) (c : Context Λ) (is : List ι) :
    ((fanout C).deliverEach c is w).Faithful :=
  Fanout.deliverEach_preserves (fun i _ h => h.deliver i c) is h

lemma Faithful.fireIn (h : w.Faithful) (c : Context Λ) (m : Moment) :
    ((fanout C).fireIn c m w).2.Faithful :=
  Fanout.fireIn_preserves (fun k l _ h => h.tell k l m c.event) h

end Faithful

section History

/-- Something that is done to a switchboard from outside. -/
inductive Happening (ι κ Λ : Type) where
  | deed (deed : Deed ι κ Λ)
  | notify (context : Context Λ)
  | fire (lifecycle : Λ) (moment : Moment) (event : Event)

def happen (C : Conduct σ ι κ Λ) (w : Switchboard σ ι κ Λ) :
    Happening ι κ Λ → Switchboard σ ι κ Λ
  | .deed d => w.act d
  | .notify c => ((fanout C).notify c w).2
  | .fire l m e => ((fanout C).fire l m e w).2

/-- A switchboard after a history that began with nobody registered. -/
def afterAll (C : Conduct σ ι κ Λ) (memory : σ) (xs : List (Happening ι κ Λ)) :
    Switchboard σ ι κ Λ :=
  xs.foldl (happen C) { memory }

lemma Faithful.happen (h : w.Faithful) (x : Happening ι κ Λ) : (w.happen C x).Faithful := by
  cases x with
  | deed d => exact h.act d
  | notify c =>
    exact Fanout.notify_preserves (fun i _ h => h.deliver i c) (fun k l m _ h => h.tell k l m _) h
  | fire l m e => exact Fanout.tellEach_preserves (fun k _ h => h.tell k l m e) _ h

lemma faithful_afterAll (C : Conduct σ ι κ Λ) (memory : σ) (xs : List (Happening ι κ Λ)) :
    (afterAll C memory xs).Faithful := by
  induction xs using List.reverseRecOn with
  | nil => exact ⟨rfl, fun _ => rfl⟩
  | append_singleton xs x ih =>
    rw [afterAll, List.foldl_append]
    exact ih.happen x

end History

section Rounds

lemma extends_absorb (w : Switchboard σ ι κ Λ) (x : Call σ ι κ Λ) :
    w.Extends (w.absorb x).2 [] := by
  have hact : ∀ (w : Switchboard σ ι κ Λ) (d : Deed ι κ Λ), w.Extends (w.act d) [] :=
    fun w d => ⟨_, w.log_act d, rfl⟩
  have hfold : ∀ (ds : List (Deed ι κ Λ)) (w : Switchboard σ ι κ Λ),
      w.Extends (ds.foldl act w) [] := by
    intro ds
    induction ds with
    | nil => exact Extends.refl
    | cons d ds ih => exact fun w => (hact w d).trans (ih _)
  exact hfold x.deeds w

lemma extends_deliver (i : ι) (c : Context Λ) (w : Switchboard σ ι κ Λ) :
    w.Extends ((fanout C).deliver i c w).2 [.handed i c] :=
  (w.extends_note (.handed i c)).trans (extends_absorb _ _)

lemma extends_tell (k : κ) (l : Λ) (m : Moment) (e : Event) (w : Switchboard σ ι κ Λ) :
    w.Extends ((fanout C).tell k l m e w).2 [.told k l m e] :=
  (w.extends_note (.told k l m e)).trans (extends_absorb _ _)

lemma extends_deliverEach (c : Context Λ) (is : List ι) (w : Switchboard σ ι κ Λ) :
    w.Extends ((fanout C).deliverEach c is w) (is.map fun i => .handed i c) := by
  induction is generalizing w with
  | nil => exact Extends.refl w
  | cons i is ih => exact (extends_deliver i c w).trans (ih _)

lemma extends_tellEach {l : Λ} {m : Moment} {e : Event}
    (hs : ∀ k w, (C.heed k l m e w).outcome ≠ .brokeOff) (ks : List κ)
    (w : Switchboard σ ι κ Λ) :
    ((fanout C).tellEach l m e ks w).1 = .returned ∧
      w.Extends ((fanout C).tellEach l m e ks w).2 (ks.map fun k => .told k l m e) := by
  induction ks generalizing w with
  | nil => exact ⟨rfl, Extends.refl w⟩
  | cons k ks ih =>
    rw [(fanout C).tellEach_cons_of_ne_brokeOff l m e k ks w (hs k w)]
    obtain ⟨hreturned, hmore⟩ := ih ((fanout C).tell k l m e w).2
    exact ⟨hreturned, (extends_tell k l m e w).trans hmore⟩

/-- Whatever hooks the lifecycle of a context has, none breaks off. -/
def Steady (C : Conduct σ ι κ Λ) (c : Context Λ) : Prop :=
  ∀ l, c.lifecycle = some l → ∀ k m w, (C.heed k l m c.event w).outcome ≠ .brokeOff

lemma extends_fireIn (hs : Steady C c) (m : Moment) (hw : w.Faithful) :
    ((fanout C).fireIn c m w).1 = .returned ∧
      w.Extends ((fanout C).fireIn c m w).2 (tellings c m w.log) := by
  unfold Fanout.fireIn tellings
  cases hl : c.lifecycle with
  | none => exact ⟨rfl, Extends.refl w⟩
  | some l =>
    have hround := extends_tellEach (fun k => hs l hl k m) ((fanout C).hooks w l) w
    have hhooks : (fanout C).hooks w l = hooksAfter l w.log := hw.hooks l
    rw [hhooks] at hround
    simpa only [Fanout.fire, hhooks] using hround

lemma fireIn_of_lifecycle_none (hnone : c.lifecycle = none) (m : Moment) :
    (fanout C).fireIn c m w = (.returned, w) := by
  rw [Fanout.fireIn, hnone]

lemma notify_eq (hs : Steady C c) (hw : w.Faithful) :
    let started := ((fanout C).fireIn c .scanStarting w).2
    (fanout C).notify c w =
      (fanout C).fireIn c .scanDone ((fanout C).deliverEach c started.listeners started) := by
  have hreturned := (extends_fireIn hs .scanStarting hw).1
  unfold Fanout.notify
  rcases hfire : (fanout C).fireIn c .scanStarting w with ⟨o, started⟩
  rw [hfire] at hreturned
  cases hreturned
  rfl

/-- An event goes round in three steps, whatever those who are called change and however listeners
end their calls. First all hooks that stand registered are told that the scan starts. Then the event
is handed to exactly the listeners that stand registered by then, in the order of their
registrations and once for each of them. At last the hooks that stand registered after all this are
told that the scan is done. -/
theorem calls_of_notify (memory : σ) (xs : List (Happening ι κ Λ)) (hs : Steady C c) :
    let w := afterAll C memory xs
    ((fanout C).notify c w).1 = .returned ∧
      ∃ starting during ending,
        ((fanout C).notify c w).2.log = w.log ++ starting ++ during ++ ending ∧
        calls starting = tellings c .scanStarting w.log ∧
        calls during = (listenersAfter (w.log ++ starting)).map (fun i => .handed i c) ∧
        calls ending = tellings c .scanDone (w.log ++ starting ++ during) ∧
        (c.lifecycle = none → starting = [] ∧ ending = []) := by
  intro w
  have hw : w.Faithful := faithful_afterAll C memory xs
  obtain ⟨-, starting, hstarting, hfirst⟩ := extends_fireIn hs .scanStarting hw
  -- listeners are looked up once the scan is announced, hooks once more after the last listener
  let w₁ := ((fanout C).fireIn c .scanStarting w).2
  have hw₁ : w₁.Faithful := hw.fireIn c .scanStarting
  obtain ⟨during, hduring, hhanded⟩ := extends_deliverEach (C := C) c w₁.listeners w₁
  let w₂ := (fanout C).deliverEach c w₁.listeners w₁
  have hw₂ : w₂.Faithful := hw₁.deliverEach c w₁.listeners
  obtain ⟨hreturned, ending, hending, hlast⟩ := extends_fireIn hs .scanDone hw₂
  have hlog : w₂.log = w.log ++ starting ++ during := hduring.trans (by rw [hstarting])
  rw [notify_eq hs hw]
  refine ⟨hreturned, starting, during, ending, ?_, hfirst, ?_, ?_, fun hnone => ⟨?_, ?_⟩⟩
  · rw [hending, hlog]
  · rw [hhanded, hw₁.listeners, hstarting]
  · rw [hlast, hlog]
  · rw [fireIn_of_lifecycle_none hnone] at hstarting
    exact List.self_eq_append_right.mp hstarting
  · rw [fireIn_of_lifecycle_none hnone] at hending
    exact List.self_eq_append_right.mp hending

/-- The first listener stands registered twice and takes itself and a hook back while the event goes
round, and the first hook brings another listener. -/
theorem calls_of_notify_with_changes :
    let e : Event := .refUpdated ⟨"p", "main", "0", "1"⟩ none .epoch
    let c : Context Unit := ⟨e, some ()⟩
    let C : Conduct Unit Nat Nat Unit :=
      { receive := fun i _ _ =>
          if i = 1 then
            { deeds := [.listener (.remove 1), .hook () (.add 8), .hook () (.remove 7)]
              outcome := .brokeOff, memory := () }
          else { outcome := .refused, memory := () }
        heed := fun k _ _ _ _ =>
          if k = 6 then { deeds := [.hook () (.remove 6), .listener (.add 4)], memory := () }
          else { memory := () } }
    let xs : List (Happening Nat Nat Unit) :=
      [.deed (.listener (.add 1)), .deed (.listener (.add 2)), .deed (.listener (.add 5)),
        .deed (.listener (.add 1)), .deed (.listener (.remove 5)), .deed (.hook () (.add 6)),
        .deed (.hook () (.add 7))]
    let w := afterAll C () xs
    Steady C c ∧ ((fanout C).notify c w).1 = .returned ∧
      ∃ starting during ending,
        ((fanout C).notify c w).2.log = w.log ++ starting ++ during ++ ending ∧
        calls starting = [.told 6 () .scanStarting e, .told 7 () .scanStarting e] ∧
        calls during = (listenersAfter (w.log ++ starting)).map (fun i => .handed i c) ∧
        calls during ++ calls ending = [.handed 1 c, .handed 2 c, .handed 1 c, .handed 4 c,
          .told 8 () .scanDone e, .told 8 () .scanDone e] := by
  intro e c C xs w
  have hs : Steady C c := by
    intro l _ k m w
    change (if k = 6 then _ else _ : Call Unit Nat Nat Unit).outcome ≠ .brokeOff
    split <;> nofun
  obtain ⟨hreturned, starting, during, ending, hlog, hstarting, hduring, -, -⟩ :=
    calls_of_notify () xs hs
  have hfirst : calls starting = [.told 6 () .scanStarting e, .told 7 () .scanStarting e] :=
    hstarting.trans (by decide)
  refine ⟨hs, hreturned, starting, during, ending, hlog, hfirst, hduring, ?_⟩
  have hall : calls ((fanout C).notify c w).2.log = [.told 6 () .scanStarting e,
      .told 7 () .scanStarting e, .handed 1 c, .handed 2 c, .handed 1 c, .handed 4 c,
      .told 8 () .scanDone e, .told 8 () .scanDone e] := by decide
  have hsplit : calls (w.log ++ starting ++ during ++ ending) =
      calls starting ++ (calls during ++ calls ending) := by
    have hnone : calls w.log = [] := by decide
    simp only [calls, List.filter_append, List.append_assoc] at hnone ⊢
    rw [hnone, List.nil_append]
  rw [hlog, hsplit, hfirst] at hall
  simpa only [List.cons_append, List.nil_append, List.cons.injEq, true_and] using hall

end Rounds

end Switchboard

end ReviewStream
