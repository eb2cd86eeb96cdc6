import Mathlib.Data.List.Induction
import Mathlib.Tactic.Lemma
import ReviewStream.Proofs.Except
import ReviewStream.Proofs.Fanout
import ReviewStream.Proofs.Work.Order
import ReviewStream.Work.Service

/-!
# Handing out of work

A pool of one worker hands each registered listener what its items amount to, in the order in which
they were submitted and each once. How a listener takes an event makes no difference to what it and
the others are handed later. Only a hook that breaks off when a scan is announced keeps an event
back, and then that event alone.
-/

namespace ReviewStream

variable {Ω ι κ Λ : Type}

namespace Event

variable {now : Calendar.Timestamp} {provider : Option Provider} {e : Event}

lemma facts_provider {p : Payload.ReviewFields} {f : ReviewFacts}
    (h : p.facts now provider = .ok f) : f.provider = provider := by
  obtain ⟨_, -, h⟩ := bind_eq_ok_iff.mp h
  obtain ⟨_, -, h⟩ := bind_eq_ok_iff.mp h
  cases h
  rfl

lemma provider?_of_ofMembers {kind : EventKind} {ms : Json.Members}
    (h : ofMembers now provider kind ms = .ok e) :
    e.provider? = if e.kind = .refUpdated then none else provider := by
  cases kind with
  | refUpdated =>
    obtain ⟨p, -, h⟩ := bind_eq_ok_iff.mp h
    cases h
    rfl
  | patchSetCreated | changeAbandoned | changeMerged | commentAdded =>
    obtain ⟨p, -, h⟩ := bind_eq_ok_iff.mp h
    obtain ⟨f, hf, h⟩ := bind_eq_ok_iff.mp h
    cases h
    exact facts_provider hf

lemma provider?_of_classify {line : String} (h : classify now provider line = some e) :
    e.provider? = if e.kind = .refUpdated then none else provider := by
  unfold classify at h
  split at h
  · rename_i e' hparse
    subst h
    unfold parse at hparse
    split at hparse
    · cases hparse
    · obtain ⟨j, -, hj⟩ := bind_eq_ok_iff.mp hparse
      unfold ofJson at hj
      split at hj
      · split at hj
        · rename_i ms _ kind _
          cases hm : ofMembers now provider kind ms with
          | error e => simp [hm, Except.map] at hj
          | ok e' =>
            simp only [hm, Except.map, Except.ok.injEq, Option.some.injEq] at hj
            exact hj ▸ provider?_of_ofMembers hm
        · cases hj
      · cases hj
  · cases h

end Event

namespace Work

/-- What performing items amounts to, in order: the contexts of those that are events. -/
def contexts (performed : List (Calendar.Timestamp × Work Λ)) : List (Context Λ) :=
  performed.filterMap fun x => x.2.context? x.1

/-- A performance as its worker sees it, which takes no notice of how it ends. -/
def handle (F : Fanout Ω ι κ Λ) (now : Calendar.Timestamp) (work : Work Λ) (w : Ω) : Ω :=
  (work.perform F now w).2

lemma context?_line {now : Calendar.Timestamp} {text : String} {provider : Provider} {c : Context Λ}
    (h : (line text provider).context? now = some c) : c.lifecycle = none ∧
      c.event.provider? = if c.event.kind = .refUpdated then none else some provider := by
  simp only [context?, Option.map_eq_some_iff] at h
  obtain ⟨e, he, rfl⟩ := h
  exact ⟨rfl, Event.provider?_of_classify he⟩

end Work

namespace Fanout

variable (F : Fanout Ω ι κ Λ) (c : Context Λ) (w : Ω) (log : List (ι × Context Λ))

/-- The fan-out in a world that also holds what was handed to whom, in order. -/
def recorded : Fanout (Ω × List (ι × Context Λ)) ι κ Λ where
  listeners w := F.listeners w.1
  hooks w l := F.hooks w.1 l
  deliver i c w := ((F.deliver i c w.1).1, (F.deliver i c w.1).2, w.2 ++ [(i, c)])
  tell k l m e w := ((F.tell k l m e w.1).1, (F.tell k l m e w.1).2, w.2)

/-- No hook that an event carries breaks off when its scan is announced. -/
def Announces : Prop :=
  ∀ l, c.lifecycle = some l → ∀ k w, (F.tell k l .scanStarting c.event w).1 ≠ .brokeOff

/-- What is handed out of an event: the event to every listener, unless its scan could not be
announced. -/
def handed : List (ι × Context Λ) :=
  match F.fireIn c .scanStarting w with
  | (.brokeOff, _) => []
  | (_, w') => (F.listeners w').map (·, c)

/-- What was handed to one listener. -/
def handedTo [DecidableEq ι] (i : ι) (log : List (ι × Context Λ)) : List (Context Λ) :=
  (log.filter (·.1 = i)).map Prod.snd

lemma recorded_tellEach (l : Λ) (m : Moment) (e : Event) (ks : List κ) :
    F.recorded.tellEach l m e ks (w, log) =
      ((F.tellEach l m e ks w).1, (F.tellEach l m e ks w).2, log) := by
  induction ks generalizing w with
  | nil => rfl
  | cons k ks ih =>
    unfold tellEach
    rcases hk : F.tell k l m e w with ⟨o, w'⟩
    cases o <;> simp [recorded, hk, ← ih]

lemma recorded_fireIn (m : Moment) : F.recorded.fireIn c m (w, log) =
    ((F.fireIn c m w).1, (F.fireIn c m w).2, log) := by
  unfold fireIn fire
  cases c.lifecycle with
  | none => rfl
  | some l => exact F.recorded_tellEach w log l m c.event (F.hooks w l)

lemma recorded_deliverEach (is : List ι) : F.recorded.deliverEach c is (w, log) =
    (F.deliverEach c is w, log ++ is.map (·, c)) := by
  induction is generalizing w log with
  | nil => simp [deliverEach]
  | cons i is ih => exact (ih (F.deliver i c w).2 (log ++ [(i, c)])).trans (by simp [deliverEach])

lemma recorded_notify : (F.recorded.notify c (w, log)).2 =
    ((F.notify c w).2, log ++ F.handed c w) := by
  unfold notify handed
  rw [recorded_fireIn]
  rcases F.fireIn c .scanStarting w with ⟨o, w'⟩
  cases o with
  | brokeOff => simp
  | returned | refused =>
    simp only
    rw [show F.recorded.listeners (w', log) = F.listeners w' from rfl, recorded_deliverEach,
      recorded_fireIn]

variable {F c} in
lemma Announces.fst_fireIn (h : F.Announces c) : (F.fireIn c .scanStarting w).1 ≠ .brokeOff := by
  unfold fireIn
  cases hl : c.lifecycle with
  | none => nofun
  | some l => exact F.fst_tellEach_ne_brokeOff (fun k _ => h l hl k) w

lemma handedTo_handed [DecidableEq ι] {i : ι} (hi : ∀ w, (F.listeners w).count i = 1) :
    handedTo i (F.handed c w) = [c] ∨ handedTo i (F.handed c w) = [] ∧ ¬ F.Announces c := by
  have hall : ∀ w', handedTo i ((F.listeners w').map (·, c)) = [c] := by
    intro w'
    have hfilter : ((F.listeners w').map (·, c)).filter (·.1 = i) =
        ((F.listeners w').filter (· = i)).map (·, c) := List.filter_map
    rw [handedTo, hfilter, List.filter_eq, hi w']
    rfl
  have hannounced := fun h : F.Announces c => h.fst_fireIn w
  unfold handed
  rcases hw : F.fireIn c .scanStarting w with ⟨o, w'⟩
  cases o with
  | brokeOff => exact .inr ⟨rfl, fun h => hannounced h (congrArg Prod.fst hw)⟩
  | returned | refused => exact .inl (hall w')

end Fanout

namespace Work

open Pool (Happening Shift)

variable [DecidableEq ι] {F : Fanout Ω ι κ Λ} {i : ι}

/-- What the listener is handed of the contexts: none that is not among them, in their order, and
every one whose scan can be announced. -/
structure HandedOf (F : Fanout Ω ι κ Λ) (contexts handed : List (Context Λ)) : Prop where
  sublist : handed.Sublist contexts
  filter : ∀ P : Context Λ → Bool, (∀ c ∈ contexts, P c = true → F.Announces c) →
    handed.filter P = contexts.filter P

omit [DecidableEq ι] in
lemma HandedOf.eq {contexts handed : List (Context Λ)} (h : HandedOf F contexts handed)
    (ha : ∀ c ∈ contexts, F.Announces c) : handed = contexts := by
  have hfilter := h.filter (fun _ => true) fun c hc _ => ha c hc
  rwa [List.filter_eq_self.mpr (fun _ _ => rfl), List.filter_eq_self.mpr (fun _ _ => rfl)]
    at hfilter

omit [DecidableEq ι] in
lemma HandedOf.append {cs cs' hs hs' : List (Context Λ)} (h : HandedOf F cs hs)
    (h' : HandedOf F cs' hs') : HandedOf F (cs ++ cs') (hs ++ hs') where
  sublist := h.sublist.append h'.sublist
  filter P hP := by
    rw [List.filter_append, List.filter_append,
      h.filter P fun c hc => hP c (List.mem_append_left _ hc),
      h'.filter P fun c hc => hP c (List.mem_append_right _ hc)]

lemma handle_recorded (hi : ∀ w, (F.listeners w).count i = 1) (x : Calendar.Timestamp × Work Λ)
    (w : Ω) (log : List (ι × Context Λ)) : ∃ new,
      handle F.recorded x.1 x.2 (w, log) = (handle F x.1 x.2 w, log ++ new) ∧
        HandedOf F (contexts [x]) (Fanout.handedTo i new) := by
  cases hc : x.2.context? x.1 with
  | none =>
    refine ⟨[], ?_, ?_⟩
    · simp [handle, perform, hc]
    · rw [show contexts [x] = [] by simp [contexts, hc]]
      exact ⟨List.nil_sublist _, fun _ _ => rfl⟩
  | some c =>
    refine ⟨F.handed c w, ?_, ?_⟩
    · simp only [handle, perform, hc]
      exact F.recorded_notify c w log
    · rw [show contexts [x] = [c] by simp [contexts, hc]]
      obtain h | ⟨h, hna⟩ := F.handedTo_handed c w hi
      · rw [h]
        exact ⟨List.Sublist.refl _, fun _ _ => rfl⟩
      · rw [h]
        refine ⟨List.nil_sublist _, fun P hP => ?_⟩
        have hc : ¬ P c = true := fun hPc => hna (hP c (by simp) hPc)
        simp [hc]

lemma contexts_append (xs ys : List (Calendar.Timestamp × Work Λ)) :
    contexts (xs ++ ys) = contexts xs ++ contexts ys := List.filterMap_append

/-- However many items are performed, recording changes nothing for the rest of the world. -/
lemma worldAfter_recorded (hi : ∀ w, (F.listeners w).count i = 1) (w : Ω)
    (performed : List (Calendar.Timestamp × Work Λ)) : ∃ log,
      Shift.worldAfter (handle F.recorded) (w, []) performed =
        (Shift.worldAfter (handle F) w performed, log) ∧
        HandedOf F (contexts performed) (Fanout.handedTo i log) := by
  induction performed using List.reverseRecOn with
  | nil => exact ⟨[], rfl, List.nil_sublist _, fun _ _ => rfl⟩
  | append_singleton performed x ih =>
    obtain ⟨log, hworld, hhanded⟩ := ih
    obtain ⟨new, hnew, hhanded'⟩ :=
      handle_recorded hi x (Shift.worldAfter (handle F) w performed) log
    refine ⟨log ++ new, ?_, ?_⟩
    · simp only [Shift.worldAfter, List.foldl_append, List.foldl_cons, List.foldl_nil]
        at hworld hnew ⊢
      rw [hworld, hnew]
    · rw [contexts_append, Fanout.handedTo, List.filter_append, List.map_append]
      exact hhanded.append hhanded'

omit [DecidableEq ι] in
lemma receiving_of_start {receivers senders capacity : Nat} {s : Service Λ}
    (h : Service.start receivers senders capacity = .ok s) :
    s.receiving = Pool.onQueue (.bounded capacity) receivers := by
  unfold Service.start Pool.bounded? WorkQueue.bounded? at h
  split at h
  · cases h
  · cases h
    rfl

/-- The receiving pool of a service at work in a world that records what is handed out. -/
def shift (F : Fanout Ω ι κ Λ) (s : Service Λ) (w : Ω)
    (xs : List (Happening Calendar.Timestamp (Work Λ))) :
    Shift Calendar.Timestamp (Work Λ) (Ω × List (ι × Context Λ)) :=
  Shift.run (handle F.recorded) { pool := s.receiving, world := (w, []) } xs

/-- What a listener is handed by the receiving pool of a service with one worker, whatever is
submitted, taken and finished in whatever order, and whether or not the pool is stopped. The items
performed are the first ones that were accepted, and the listener is handed their contexts, except
those that do not announce their scan because a hook breaks off, and a line never does. As long as
the pool is not stopped, its worker can go on to all items that were accepted, which is what doing
all work that waits comes to. -/
theorem handed_of_run (hi : ∀ w, (F.listeners w).count i = 1) {senders capacity : Nat}
    {s : Service Λ} (hs : Service.start 1 senders capacity = .ok s) (w : Ω)
    (xs : List (Happening Calendar.Timestamp (Work Λ))) :
    let reached := shift F s w xs
    let contexts := contexts reached.performed
    let handed := Fanout.handedTo i reached.world.2
    reached.world.1 = Shift.worldAfter (handle F) w reached.performed ∧
      reached.pool.busy.length ≤ 1 ∧
      reached.done <+: reached.accepted ∧
      ((∀ c ∈ contexts, F.Announces c) → handed = contexts) ∧
      (handed.Sublist contexts ∧ ∀ P : Context Λ → Bool,
        (∀ c ∈ contexts, P c = true → F.Announces c) → handed.filter P = contexts.filter P) ∧
      (∀ text provider t c, (line text provider).context? t = some c → F.Announces c ∧
        c.event.provider? = if c.event.kind = .refUpdated then none else some provider) ∧
      (.stopped ∉ xs → ∀ t, let idle := shift F s w (xs ++ [.finished])
        ∃ ys, (∀ y ∈ ys, y = .taken t ∨ y = .finished) ∧
          let all := shift F s w (xs ++ .finished :: ys)
          all.done = reached.accepted ∧
            idle.pool.performAll (handle F.recorded t) idle.world = (all.world, all.pool)) := by
  intro reached contexts handed
  have hpool := receiving_of_start hs
  have hstart :
      Shift.Orderly (handle F.recorded) (w, []) { pool := s.receiving, world := (w, []) } :=
    ⟨rfl, fun _ => by simp [hpool, Shift.done, Pool.onQueue, WorkQueue.bounded], List.nil_prefix,
      by simp [hpool, Pool.onQueue, WorkQueue.bounded], by simp [hpool, Pool.onQueue]⟩
  have hreached : Shift.Orderly (handle F.recorded) (w, []) reached := hstart.run xs
  have hworkers : reached.pool.workers = 1 :=
    (Shift.workers_run _ _ xs).trans (by simp [hpool, Pool.onQueue])
  obtain ⟨log, hlog, hhanded⟩ := worldAfter_recorded hi w reached.performed
  have hworld : reached.world = (Shift.worldAfter (handle F) w reached.performed, log) :=
    hreached.world.trans hlog
  have hhanded : HandedOf F contexts handed := by simpa [handed, hworld] using hhanded
  refine ⟨congrArg Prod.fst hworld, hworkers ▸ hreached.busy, hreached.done_prefix, hhanded.eq,
    ⟨hhanded.sublist, hhanded.filter⟩, fun text provider t c hc => ?_, fun hx t => ?_⟩
  · obtain ⟨hnone, hprovider⟩ := context?_line hc
    exact ⟨fun l hl => by simp [hnone] at hl, hprovider⟩
  · have hrunning : reached.pool.stopped = false :=
      Shift.running_run (by simp [hpool, Pool.onQueue]) fun x hmem he => hx (he ▸ hmem)
    obtain ⟨ys, hys, hdone, hall⟩ := hreached.exists_drain hrunning hworkers t
    refine ⟨ys, hys, ?_⟩
    simp only [shift, Shift.run_append]
    exact ⟨hdone, hall⟩

/-- A line that is no event, one about a reference and an event with a lifecycle, for a listener
that refuses everything behind one that always breaks off. The pool is stopped with an item left. -/
theorem handed_behind_listener_that_breaks_off :
    let F : Fanout Unit Bool Empty Unit :=
      ⟨fun _ => [true, false], fun _ _ => [], fun i _ w => (if i then .brokeOff else .refused, w),
        fun k => nomatch k⟩
    let review : Provider := ⟨"review", "localhost", 29418, "ssh", none⟩
    let update : Event := .refUpdated ⟨"p", "r", "0", "1"⟩ none .epoch
    let text := "\x7b\"type\": \"ref-updated\", \"refUpdate\": [\"p\", \"r\", \"0\", \"1\"]\x7d"
    let xs : List (Happening Calendar.Timestamp (Work Unit)) :=
      [.submitted (.line "\x7b" review), .taken .epoch, .submitted (.line text review),
        .submitted (.event ⟨update, some ()⟩), .submitted (.line text review), .finished,
        .taken .epoch, .finished, .taken .epoch, .stopped, .finished, .taken .epoch]
    let s : Service Unit := ⟨.onQueue (.bounded 8) 1, .unbounded 1⟩
    Service.start 1 1 8 = .ok s ∧ (shift F s () xs).accepted.length = 4 ∧
      (shift F s () xs).performed.length = 3 ∧
      Fanout.handedTo false (shift F s () xs).world.2 = [⟨update, none⟩, ⟨update, some ()⟩] := by
  intro F review update text xs s
  have hs : Service.start 1 1 8 = .ok s := rfl
  obtain ⟨-, -, -, hhanded, -⟩ := handed_of_run (F := F) (i := false) (fun _ => rfl) hs () xs
  refine ⟨hs, by decide +kernel, by decide +kernel, ?_⟩
  rw [hhanded fun c _ l _ k => nomatch k]
  decide +kernel

end Work

end ReviewStream
