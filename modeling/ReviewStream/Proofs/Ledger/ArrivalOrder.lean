import ReviewStream.Proofs.Ledger.Reachable

/-!
# Signals that arrive out of order

A build that is reported completed before it is reported started stays completed, but the late start
puts its running form in the place of the finished one, and the result is lost.
-/

namespace ReviewStream

/-- Two entries tell the same about the build of their job. -/
def Entry.Agrees (x y : Entry) : Prop :=
  x.build = y.build ∧ x.result = y.result ∧ x.completed = y.completed ∧ x.cancelled = y.cancelled

namespace Signal

variable (e : Option Entry) (t u : Instant) (b b' : Build)

lemma touch_started_completed :
    let x := (completed b').touch u (some ((started b).touch t e))
    x.build = some b' ∧ x.completed = true ∧
      x.cancelled = (e.map Entry.cancelled).getD false := by
  cases e <;> exact ⟨rfl, rfl, rfl⟩

lemma touch_completed_started :
    let x := (started b).touch u (some ((completed b').touch t e))
    x.build = some b ∧ x.completed = true ∧
      x.cancelled = (e.map Entry.cancelled).getD false := by
  cases e with
  | none => exact ⟨rfl, rfl, rfl⟩
  | some x =>
    refine ⟨rfl, rfl, ?_⟩
    simp [touch, change, Entry.start, Entry.finish_eq]

end Signal

namespace Ledger

lemma entryOf?_apply_started (l : Ledger) (t : Instant) {e : Event} {k : PatchSetKey}
    (hk : e.key? = some k) (b : Build) :
    (l.apply (.signal t e (.started b))).entryOf? k b.job =
      some ((Signal.started b).touch t (l.entryOf? k b.job)) :=
  l.entryOf?_apply_signal_of_ne t hk (s := .started b) (by simp)

lemma entryOf?_apply_completed (l : Ledger) (t : Instant) {e : Event} {k : PatchSetKey}
    (hk : e.key? = some k) (b : Build) :
    (l.apply (.signal t e (.completed b))).entryOf? k b.job =
      some ((Signal.completed b).touch t (l.entryOf? k b.job)) :=
  l.entryOf?_apply_signal_of_ne t hk (s := .completed b) (by simp)

/-- The two orders of a start and a completion agree on `completed` and `cancelled` always, and on
the build and its result only if the build that starts is already the one that is completed. -/
theorem started_completed_agrees_iff (l : Ledger) (t u t' u' : Instant) {e : Event}
    {k : PatchSetKey} (hk : e.key? = some k) (b b' : Build) (hjob : b'.job = b.job) :
    ∃ x y : Entry,
      ((l.apply (.signal t e (.started b))).apply (.signal u e (.completed b'))).entryOf? k b.job =
        some x ∧
      ((l.apply (.signal t' e (.completed b'))).apply (.signal u' e (.started b))).entryOf? k
        b.job = some y ∧
      x.build = some b' ∧ y.build = some b ∧ x.completed = true ∧ y.completed = true ∧
      x.cancelled = y.cancelled ∧ (x.Agrees y ↔ b = b') := by
  have hx := (l.apply (.signal t e (.started b))).entryOf?_apply_completed u hk b'
  rw [hjob, l.entryOf?_apply_started t hk b] at hx
  have hc := l.entryOf?_apply_completed t' hk b'
  rw [hjob] at hc
  have hy := (l.apply (.signal t' e (.completed b'))).entryOf?_apply_started u' hk b
  rw [hc] at hy
  obtain ⟨hxb, hxc, hxx⟩ := Signal.touch_started_completed (l.entryOf? k b.job) t u b b'
  obtain ⟨hyb, hyc, hyx⟩ := Signal.touch_completed_started (l.entryOf? k b.job) t' u' b b'
  refine ⟨_, _, hx, hy, hxb, hyb, hxc, hyc, hxx.trans hyx.symm, ?_⟩
  constructor
  · intro h
    have hb := h.1
    rw [hxb, hyb] at hb
    exact (Option.some.inj hb).symm
  · intro h
    have hb := hxb.trans ((congrArg some h.symm).trans hyb.symm)
    refine ⟨hb, ?_, hxc.trans hyc.symm, hxx.trans hyx.symm⟩
    rw [Entry.result, Entry.result, hb]

theorem started_completed_disagrees_of_running :
    let l : Ledger := {}
    let k : PatchSetKey := ⟨1, 1⟩
    let e := Event.bare k
    let b : Build := ⟨"verify", 3, none⟩
    let b' : Build := ⟨"verify", 3, some .success⟩
    ∃ x y : Entry,
      ((l.apply (.signal 0 e (.started b))).apply (.signal 1 e (.completed b'))).entryOf? k b.job =
        some x ∧
      ((l.apply (.signal 0 e (.completed b'))).apply (.signal 1 e (.started b))).entryOf? k b.job =
        some y ∧
      ¬ x.Agrees y := by
  intro l k e b b'
  obtain ⟨x, y, hx, hy, -, -, -, -, -, h⟩ :=
    started_completed_agrees_iff l 0 1 0 1 (Event.key?_bare k) b b' rfl
  exact ⟨x, y, hx, hy, fun ha => absurd (h.mp ha) (by decide)⟩

/-- A start that is reported late erases the result of a successful build. -/
theorem late_start_erases_result :
    let l : Ledger := {}
    let k : PatchSetKey := ⟨1, 1⟩
    let e := Event.bare k
    let b : Build := ⟨"verify", 3, none⟩
    let b' : Build := ⟨"verify", 3, some .success⟩
    let inOrder := (l.apply (.signal 0 e (.started b))).apply (.signal 1 e (.completed b'))
    let late := (l.apply (.signal 0 e (.completed b'))).apply (.signal 1 e (.started b))
    (inOrder.entryOf? k "verify").bind Entry.result = some .success ∧
      (late.entryOf? k "verify").bind Entry.result = none ∧
      (late.entryOf? k "verify").map Entry.completed = some true := by
  decide

end Ledger

end ReviewStream
