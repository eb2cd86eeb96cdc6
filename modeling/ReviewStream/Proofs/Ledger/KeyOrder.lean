import ReviewStream.Proofs.Ledger.Reachable

/-!
# The order of the ledger

Every reachable ledger lists its imprints in strictly ascending order of their keys. No patch set
has two imprints, and looking a key up finds the imprint that is listed under it.
-/

namespace ReviewStream

namespace PatchSetKey

variable {a b c : PatchSetKey}

lemma before_irrefl (a : PatchSetKey) : a.before a = false := by
  simp [before]

lemma before_trans (hab : a.before b = true) (hbc : b.before c = true) : a.before c = true := by
  simp only [before, Bool.or_eq_true, Bool.and_eq_true, decide_eq_true_eq,
    UInt64.lt_iff_toNat_lt, ← UInt64.toNat_inj] at *
  omega

lemma before_of_not_before (hab : ¬ a.before b = true) (hne : a ≠ b) : b.before a = true := by
  have hparts : ¬ (a.change = b.change ∧ a.patchSet = b.patchSet) := by
    rintro ⟨hc, hp⟩
    obtain ⟨ca, pa⟩ := a
    obtain ⟨cb, pb⟩ := b
    exact hne (PatchSetKey.mk.injEq .. ▸ ⟨hc, hp⟩)
  simp only [before, Bool.or_eq_true, Bool.and_eq_true, decide_eq_true_eq,
    UInt64.lt_iff_toNat_lt, ← UInt64.toNat_inj] at *
  omega

lemma ne_of_before (hab : a.before b = true) : a ≠ b := by
  rintro rfl
  rw [before_irrefl] at hab
  exact Bool.false_ne_true hab

end PatchSetKey

namespace Ledger

/-- The imprints stand in ascending order of their keys. -/
def Sorted (l : Ledger) : Prop := l.imprints.Pairwise fun i j => i.key.before j.key = true

lemma pairwise_putImprint (i : Imprint) {is : List Imprint}
    (h : is.Pairwise fun i j => i.key.before j.key = true) :
    (putImprint i is).Pairwise fun i j => i.key.before j.key = true := by
  induction is with
  | nil => simp [putImprint]
  | cons x is ih =>
    obtain ⟨hx, his⟩ := List.pairwise_cons.mp h
    rw [putImprint]
    by_cases hb : i.key.before x.key = true
    · rw [if_pos hb]
      refine List.pairwise_cons.mpr ⟨fun y hy => ?_, h⟩
      rcases List.mem_cons.mp hy with rfl | hy
      · exact hb
      · exact PatchSetKey.before_trans hb (hx y hy)
    · rw [if_neg hb]
      by_cases he : i.key = x.key
      · rw [if_pos he]
        exact List.pairwise_cons.mpr ⟨fun y hy => he ▸ hx y hy, his⟩
      · rw [if_neg he]
        refine List.pairwise_cons.mpr ⟨fun y hy => ?_, ih his⟩
        rcases mem_putImprint hy with rfl | hy
        · exact PatchSetKey.before_of_not_before hb he
        · exact hx y hy

namespace Sorted

variable {l : Ledger}

lemma put (h : l.Sorted) (i : Imprint) : (l.put i).Sorted := pairwise_putImprint i h

lemma forget (h : l.Sorted) (k : PatchSetKey) : (l.forget k).Sorted := h.filter _

lemma removeJob (h : l.Sorted) (job : JobName) : (l.removeJob job).Sorted :=
  List.pairwise_map.mpr h

lemma annotate (h : l.Sorted) (k : PatchSetKey) (job : JobName) (change : Entry → Entry) :
    (l.annotate k job change).2.Sorted := by
  unfold Ledger.annotate
  cases l.get? k with
  | none => exact h
  | some i =>
    by_cases hj : (i.entryOf? job).isSome = true
    · simp only [hj, if_true]
      exact h.put _
    · simp only [hj, Bool.false_eq_true, if_false]
      exact h

lemma apply (h : l.Sorted) (op : Operation) : (l.apply op).Sorted := by
  cases op with
  | signal now e s =>
    cases hk : e.key? with
    | none =>
      rw [apply_signal_of_none _ _ _ hk]
      exact h
    | some k =>
      rw [apply_signal _ _ _ hk]
      exact h.put _
  | forget k => exact h.forget k
  | take k =>
    rcases l.apply_take k with ht | ht
    · rw [ht]
      exact h
    · rw [ht]
      exact h.forget k
  | removeJob job => exact h.removeJob job
  | setCustomUrl k job url => exact h.annotate k job _
  | setUnsuccessfulMessage k job text => exact h.annotate k job _

lemma keys_nodup (h : l.Sorted) : l.keys.Nodup :=
  List.pairwise_map.mpr (h.imp fun hb => PatchSetKey.ne_of_before hb)

lemma get?_of_mem (h : l.Sorted) {i : Imprint} (hi : i ∈ l.imprints) :
    l.get? i.key = some i :=
  find?_eq_some_of_nodup h.keys_nodup hi

end Sorted

/-- The keys of a reachable ledger are listed in ascending order. -/
theorem Reachable.sorted {l : Ledger} (h : Reachable l) : l.Sorted := by
  induction h with
  | empty => exact List.Pairwise.nil
  | apply op _ ih => exact ih.apply op

end Ledger

end ReviewStream
