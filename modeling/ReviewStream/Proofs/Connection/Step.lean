import Mathlib.Data.List.Induction
import Mathlib.Tactic.Lemma
import ReviewStream.Connection.Basic

/-!
# One step of the connection

All that a step can do to the connection is listed once, as a move. What moves keep is kept by runs,
which grow at their end.
-/

namespace ReviewStream.Connection

variable {S : Setup} {c c' : Connection} {s : Step} {xs ys : List Step} {acts new : List Act}

/-- What a step of the connection does in a state in which it is possible. -/
inductive Move (S : Setup) (c : Connection) : Step → Connection → List Act → Prop where
  | start (hp : c.phase = .unstarted) (hs : c.shutDown = false) :
      Move S c .start { c with phase := .connecting } [.attempt]
  | startInVain (h : c.phase ≠ .unstarted ∨ c.shutDown = true) : Move S c .start c []
  | reconnect : Move S c .reconnect c.reconnect []
  | shutdown : Move S c .shutdown c.shutdown []
  | opened (hp : c.phase = .connecting) (hs : c.shutDown = false) :
      Move S c .opened { c with
        phase := .reading, failures := 0, cut := false, pending := false, connected := true } [.up]
  | failed (hp : c.phase = .connecting) (hs : c.shutDown = false) (d : Duration)
      (hd : S.backoff.delay? c.failures.toNat = some d) :
      Move S c .failed { c with phase := .pausing d, failures := countFailure c.failures }
        [.pause d]
  | failedForGood (hp : c.phase = .connecting) (hs : c.shutDown = false)
      (hd : S.backoff.delay? c.failures.toNat = none) : Move S c .failed c.breakOff []
  | received (hp : c.phase = .reading) (hc : c.isCut = false) (line : List UInt8) (text : String)
      (ht : lineText? line = some text) :
      Move S c (.received line) { c with phase := .posting text } []
  | passedOver (hp : c.phase = .reading) (hc : c.isCut = false) (line : List UInt8)
      (ht : lineText? line = none) : Move S c (.received line) c []
  | ended (hp : c.phase = .reading) (hc : c.isCut = false) :
      Move S c .ended
        { c with phase := .pausing S.backoff.initial, cut := false, connected := false }
        [.down, .pause S.backoff.initial]
  | posted (text : String) (hp : c.phase = .posting text) (hc : c.isCut = false) :
      Move S c .posted { c with phase := .reading } [.post text S.provider]
  | dropped (text : String) (hp : c.phase = .posting text) (hc : c.isCut = false) :
      Move S c .dropped { c with phase := .reading } []
  | closed (hp : c.inSession = true) (hc : c.cut = true) (hs : c.shutDown = false) :
      Move S c .closed
        { c with phase := .pausing S.backoff.initial, cut := false, connected := false }
        [.down, .pause S.backoff.initial]
  | closedForGood (hp : c.inSession = true) (hs : c.shutDown = true) :
      Move S c .closed { c with phase := .gone, cut := false, connected := false } [.down]
  | resumed (d : Duration) (hp : c.phase = .pausing d) (hs : c.shutDown = false) :
      Move S c .resumed { c with phase := .connecting } [.attempt]
  | stopped (hp : c.phase = .connecting ∨ ∃ d, c.phase = .pausing d) (hs : c.shutDown = true) :
      Move S c .stopped c.breakOff []

lemma shutDown_of_not_isCut (h : c.isCut = false) : c.shutDown = false :=
  (Bool.or_eq_false_iff.mp h).2

lemma move_of_step? (h : c.step? S s = some (c', new)) : Move S c s c' new := by
  cases s with
  | start =>
    simp only [step?, Connection.start, Option.some.injEq] at h
    split at h
    · rename_i hc
      obtain ⟨rfl, rfl⟩ := Prod.mk.injEq .. ▸ h
      exact .start hc.1 (by simpa using hc.2)
    · rename_i hc
      obtain ⟨rfl, rfl⟩ := Prod.mk.injEq .. ▸ h
      exact .startInVain (by simpa only [not_and_or, not_not] using hc)
  | reconnect =>
    simp only [step?, Option.some.injEq, Prod.mk.injEq] at h
    obtain ⟨rfl, rfl⟩ := h
    exact .reconnect
  | shutdown =>
    simp only [step?, Option.some.injEq, Prod.mk.injEq] at h
    obtain ⟨rfl, rfl⟩ := h
    exact .shutdown
  | opened =>
    simp only [step?, openSession, Option.ite_none_right_eq_some, Option.some.injEq,
      Prod.mk.injEq] at h
    obtain ⟨⟨hp, hs⟩, rfl, rfl⟩ := h
    exact .opened hp (by simpa using hs)
  | failed =>
    simp only [step?, fail, Option.ite_none_right_eq_some, Option.some.injEq] at h
    obtain ⟨⟨hp, hs⟩, h⟩ := h
    split at h
    · rename_i hd
      obtain ⟨rfl, rfl⟩ := Prod.mk.injEq .. ▸ h
      exact .failedForGood hp (by simpa using hs) hd
    · rename_i d hd
      obtain ⟨rfl, rfl⟩ := Prod.mk.injEq .. ▸ h
      exact .failed hp (by simpa using hs) d hd
  | received line =>
    simp only [step?, Option.ite_none_right_eq_some] at h
    obtain ⟨⟨hp, hc⟩, h⟩ := h
    split at h
    · rename_i ht
      simp only [Option.some.injEq, Prod.mk.injEq] at h
      obtain ⟨rfl, rfl⟩ := h
      exact .passedOver hp (by simpa using hc) line ht
    · rename_i text ht
      simp only [Option.some.injEq, Prod.mk.injEq] at h
      obtain ⟨rfl, rfl⟩ := h
      exact .received hp (by simpa using hc) line text ht
  | ended =>
    simp only [step?, Option.ite_none_right_eq_some, Option.some.injEq] at h
    obtain ⟨⟨hp, hc⟩, h⟩ := h
    have hc : c.isCut = false := by simpa using hc
    rw [closeSession, if_neg (by simp [shutDown_of_not_isCut hc])] at h
    obtain ⟨rfl, rfl⟩ := Prod.mk.injEq .. ▸ h
    exact .ended hp hc
  | posted =>
    simp only [step?] at h
    split at h
    · rename_i text hp
      simp only [Option.ite_none_left_eq_some, Option.some.injEq, Prod.mk.injEq] at h
      obtain ⟨hc, rfl, rfl⟩ := h
      exact .posted text hp (by simpa using hc)
    · cases h
  | dropped =>
    simp only [step?] at h
    split at h
    · rename_i text hp
      simp only [Option.ite_none_left_eq_some, Option.some.injEq, Prod.mk.injEq] at h
      obtain ⟨hc, rfl, rfl⟩ := h
      exact .dropped text hp (by simpa using hc)
    · cases h
  | closed =>
    simp only [step?, Option.ite_none_right_eq_some, Option.some.injEq] at h
    obtain ⟨⟨hp, hc⟩, h⟩ := h
    cases hs : c.shutDown with
    | true =>
      rw [closeSession, if_pos hs] at h
      obtain ⟨rfl, rfl⟩ := Prod.mk.injEq .. ▸ h
      exact .closedForGood hp hs
    | false =>
      rw [closeSession, if_neg (by simp [hs])] at h
      obtain ⟨rfl, rfl⟩ := Prod.mk.injEq .. ▸ h
      exact .closed hp (by simpa [isCut, hs] using hc) hs
  | resumed =>
    simp only [step?] at h
    split at h
    · rename_i d hp
      simp only [Option.ite_none_left_eq_some, Option.some.injEq, Prod.mk.injEq] at h
      obtain ⟨hs, rfl, rfl⟩ := h
      exact .resumed d hp (by simpa using hs)
    · cases h
  | stopped =>
    simp only [step?] at h
    split at h
    · rename_i hp
      simp only [Option.ite_none_right_eq_some, Option.some.injEq, Prod.mk.injEq] at h
      obtain ⟨hs, rfl, rfl⟩ := h
      exact .stopped (.inl hp) hs
    · rename_i d hp
      simp only [Option.ite_none_right_eq_some, Option.some.injEq, Prod.mk.injEq] at h
      obtain ⟨hs, rfl, rfl⟩ := h
      exact .stopped (.inr ⟨d, hp⟩) hs
    · cases h

lemma inSession_congr (h : c'.phase = c.phase) : c'.inSession = c.inSession := by
  unfold inSession
  rw [h]

lemma phase_reconnect (c : Connection) : c.reconnect.phase = c.phase := by
  unfold reconnect
  split <;> rfl

section Run

@[simp] lemma run?_nil (S : Setup) (c : Connection) : run? S c [] = some (c, []) := rfl

lemma run?_cons_eq_some_iff :
    run? S c (s :: xs) = some (c', acts) ↔ ∃ c₁ a b,
      c.step? S s = some (c₁, a) ∧ run? S c₁ xs = some (c', b) ∧ acts = a ++ b := by
  simp only [run?, Option.bind_eq_bind, Option.bind_eq_some_iff, Prod.exists, Option.pure_def,
    Option.some.injEq, Prod.mk.injEq]
  constructor
  · rintro ⟨c₁, a, hs, c₂, b, hr, rfl, rfl⟩
    exact ⟨c₁, a, b, hs, hr, rfl⟩
  · rintro ⟨c₁, a, b, hs, hr, rfl⟩
    exact ⟨c₁, a, hs, c', b, hr, rfl, rfl⟩

lemma run?_append_eq_some_iff :
    run? S c (xs ++ ys) = some (c', acts) ↔ ∃ c₁ a b,
      run? S c xs = some (c₁, a) ∧ run? S c₁ ys = some (c', b) ∧ acts = a ++ b := by
  induction xs generalizing c acts with
  | nil => simp
  | cons s xs ih =>
    rw [List.cons_append, run?_cons_eq_some_iff]
    constructor
    · rintro ⟨c₁, a, b, hs, hr, rfl⟩
      obtain ⟨c₂, a₂, b₂, hx, hy, rfl⟩ := ih.mp hr
      exact ⟨c₂, a ++ a₂, b₂, run?_cons_eq_some_iff.mpr ⟨c₁, a, a₂, hs, hx, rfl⟩, hy, by simp⟩
    · rintro ⟨c₂, a₂, b₂, hx, hy, rfl⟩
      obtain ⟨c₁, a, a₁, hs, hr, rfl⟩ := run?_cons_eq_some_iff.mp hx
      exact ⟨c₁, a, a₁ ++ b₂, hs, ih.mpr ⟨c₂, a₁, b₂, hr, hy, rfl⟩, by simp⟩

lemma run?_append_singleton_eq_some_iff :
    run? S c (xs ++ [s]) = some (c', acts) ↔ ∃ c₁ a b,
      run? S c xs = some (c₁, a) ∧ c₁.step? S s = some (c', b) ∧ acts = a ++ b := by
  rw [run?_append_eq_some_iff]
  simp only [run?_cons_eq_some_iff, run?_nil, Option.some.injEq, Prod.mk.injEq]
  constructor
  · rintro ⟨c₁, a, b, hr, ⟨c₂, b', -, hs, ⟨rfl, rfl⟩, rfl⟩, rfl⟩
    exact ⟨c₁, a, b', hr, hs, by simp⟩
  · rintro ⟨c₁, a, b, hr, hs, rfl⟩
    exact ⟨c₁, a, b, hr, ⟨c', b, [], hs, ⟨rfl, rfl⟩, by simp⟩, rfl⟩

/-- What holds at first and is kept by every move holds after every run. -/
lemma run_induction {P : List Step → Connection → List Act → Prop} (hnil : P [] c [])
    (hmove : ∀ xs c₁ acts s c₂ new, P xs c₁ acts → Move S c₁ s c₂ new →
      P (xs ++ [s]) c₂ (acts ++ new))
    (h : run? S c xs = some (c', acts)) : P xs c' acts := by
  induction xs using List.reverseRecOn generalizing c' acts with
  | nil =>
    simp only [run?_nil, Option.some.injEq, Prod.mk.injEq] at h
    obtain ⟨rfl, rfl⟩ := h
    exact hnil
  | append_singleton xs s ih =>
    obtain ⟨c₁, a, b, hr, hs, rfl⟩ := run?_append_singleton_eq_some_iff.mp h
    exact hmove xs c₁ a s c' b (ih hr) (move_of_step? hs)

end Run

end ReviewStream.Connection
