import Mathlib.Algebra.Group.Nat.Defs
import Mathlib.Data.List.Induction
import Mathlib.Tactic.Lemma
import ReviewStream.Proofs.Text.Basic
import ReviewStream.Text.Basic

/-!
# Numerals read back

A number is read from its decimal digits, with or without a plus sign, further zeros and blanks
around them.
-/

namespace ReviewStream.Text

variable {cs : List Char} {n : Nat}

/-- The ways to write a number: its digits, behind a plus sign and zeros that may be missing. -/
inductive Numeral (n : Nat) : List Char → Prop where
  | unsigned (zeros : Nat) : Numeral n (List.replicate zeros '0' ++ Nat.toDigits 10 n)
  | plus (zeros : Nat) : Numeral n ('+' :: (List.replicate zeros '0' ++ Nat.toDigits 10 n))

lemma digitsOnto_of_isDigit (h : ∀ c ∈ cs, c.isDigit = true) (acc : Nat) :
    digitsOnto acc cs = some (Nat.ofDigitChars 10 cs acc) := by
  induction cs generalizing acc with
  | nil => rfl
  | cons c cs ih =>
    have hc : '0' ≤ c ∧ c ≤ '9' := by simpa [Char.isDigit, Char.le_def] using h c (by simp)
    have hcs := fun b hb => h b (List.mem_cons_of_mem c hb)
    rw [digitsOnto, digit?, if_pos hc, Option.bind_some, ih hcs, Nat.ofDigitChars_cons,
      Nat.mul_comm acc]

lemma digits?_replicate_append (zeros n : Nat) :
    digits? (List.replicate zeros '0' ++ Nat.toDigits 10 n) = some n := by
  have hdigits : digitsOnto 0 (Nat.toDigits 10 n) = some n := by
    rw [digitsOnto_of_isDigit fun c hc => Nat.isDigit_of_mem_toDigits (by decide) (by decide) hc,
      Nat.ofDigitChars_ten_toDigits]
  have hzeros : digitsOnto 0 (List.replicate zeros '0' ++ Nat.toDigits 10 n) = some n := by
    induction zeros with
    | zero => exact hdigits
    | succ zeros ih => exact ih
  cases h : List.replicate zeros '0' ++ Nat.toDigits 10 n with
  | nil => simp [Nat.toDigits_ne_nil] at h
  | cons c cs => rwa [h] at hzeros

lemma Numeral.unsigned?_eq (h : Numeral n cs) : unsigned? cs = some n := by
  cases h with
  | unsigned zeros =>
    have hdigits := digits?_replicate_append zeros n
    unfold unsigned?
    split
    · rename_i hplus
      rw [hplus] at hdigits
      simp [digits?, digitsOnto, digit?] at hdigits
    · exact hdigits
  | plus zeros => exact digits?_replicate_append zeros n

lemma isBlank_of_isDigit {c : Char} (hc : c.isDigit = true) : isBlank c = false := by
  have hc : 48 ≤ c.toNat ∧ c.toNat ≤ 57 := by
    simpa [Char.isDigit, UInt32.le_iff_toNat_le] using hc
  have hsmall : ¬ (9 ≤ c.toNat ∧ c.toNat ≤ 13) := by omega
  refine Bool.eq_false_iff.mpr fun hb => ?_
  simp only [isBlank, Bool.or_eq_true, Bool.and_eq_true, decide_eq_true_eq] at hb
  omega

lemma Numeral.forall_mem {P : Char → Prop} (h : Numeral n cs) (hplus : P '+')
    (hdigit : ∀ c : Char, c.isDigit = true → P c) : ∀ c ∈ cs, P c := by
  have hall : ∀ zeros, ∀ c ∈ List.replicate zeros '0' ++ Nat.toDigits 10 n, P c := by
    intro zeros c hc
    refine hdigit c ?_
    obtain hc | hc := List.mem_append.mp hc
    · rw [(List.mem_replicate.mp hc).2]
      rfl
    · exact Nat.isDigit_of_mem_toDigits (by decide) (by decide) hc
  cases h with
  | unsigned zeros => exact hall zeros
  | plus zeros => exact List.forall_mem_cons.mpr ⟨hplus, hall zeros⟩

lemma Numeral.isBlank_eq_false (h : Numeral n cs) : ∀ c ∈ cs, isBlank c = false :=
  h.forall_mem rfl fun _ hc => isBlank_of_isDigit hc

lemma Numeral.not_mem {c : Char} (h : Numeral n cs) (hplus : c ≠ '+') (hdigit : c.isDigit = false) :
    c ∉ cs := by
  intro hc
  exact h.forall_mem (P := (c ≠ ·)) hplus (fun b hb hcb => by simp [hcb, hb] at hdigit) c hc rfl

lemma Numeral.trim_eq (h : Numeral n cs) : trim cs = cs := by
  have hblank := h.isBlank_eq_false
  have htrim : trim ([] ++ (cs ++ [])) = cs :=
    trim_append rfl rfl (fun c hc => hblank c (List.mem_of_mem_head? hc))
      (fun c hc => hblank c (List.mem_of_mem_getLast? hc))
  rwa [List.nil_append, List.append_nil] at htrim

lemma Numeral.unsignedBelow?_trim (h : Numeral n cs) {bound : Nat} (hn : n < bound)
    {front back : List Char} (hfront : allBlank front = true) (hback : allBlank back = true) :
    unsignedBelow? bound (trim (front ++ (cs ++ back))) = some n := by
  have hblank := h.isBlank_eq_false
  rw [trim_append hfront hback (fun c hc => hblank c (List.mem_of_mem_head? hc))
    (fun c hc => hblank c (List.mem_of_mem_getLast? hc)), unsignedBelow?, h.unsigned?_eq]
  simpa using hn

section Accepted

lemma isDigit_of_digit? {c : Char} {d : Nat} (h : digit? c = some d) : c.isDigit = true := by
  unfold digit? at h
  split at h
  · rename_i hc
    simpa [Char.isDigit, Char.le_def] using hc
  · cases h

lemma isDigit_of_digitsOnto {acc : Nat} (h : digitsOnto acc cs = some n) :
    ∀ c ∈ cs, c.isDigit = true := by
  induction cs generalizing acc with
  | nil => simp
  | cons c cs ih =>
    obtain ⟨d, hd, hcs⟩ := Option.bind_eq_some_iff.mp h
    exact List.forall_mem_cons.mpr ⟨isDigit_of_digit? hd, ih hcs⟩

lemma exists_digitChar {c : Char} (hc : c.isDigit = true) :
    ∃ d < 10, c = Nat.digitChar d ∧ c.toNat - '0'.toNat = d := by
  have hbounds : 48 ≤ c.toNat ∧ c.toNat ≤ 57 := by
    simpa [Char.isDigit, UInt32.le_iff_toNat_le] using hc
  have hchar : ∀ d < 10, (Nat.digitChar d).toNat = d + 48 := by decide
  have hd : c.toNat - 48 < 10 := by omega
  refine ⟨c.toNat - 48, hd, Char.toNat_inj.mp ?_, rfl⟩
  rw [hchar _ hd]
  omega

lemma exists_replicate_of_isDigit (hne : cs ≠ []) (h : ∀ c ∈ cs, c.isDigit = true) :
    ∃ zeros, cs = List.replicate zeros '0' ++ Nat.toDigits 10 (Nat.ofDigitChars 10 cs 0) := by
  induction cs using List.reverseRecOn with
  | nil => exact absurd rfl hne
  | append_singleton cs c ih =>
    obtain ⟨d, hd, hc, hval⟩ := exists_digitChar (h c (by simp))
    have hdigit : Nat.toDigits 10 d = [c] := by rw [Nat.toDigits_of_lt_base hd, hc]
    rw [Nat.ofDigitChars_append, Nat.ofDigitChars_cons, Nat.ofDigitChars_nil, hval]
    by_cases hcs : cs = []
    · subst hcs
      refine ⟨0, ?_⟩
      rw [Nat.ofDigitChars_nil, Nat.mul_zero, Nat.zero_add, hdigit]
      rfl
    · obtain ⟨zeros, hzeros⟩ := ih hcs fun b hb => h b (by simp [hb])
      generalize Nat.ofDigitChars 10 cs 0 = m at hzeros ⊢
      obtain rfl | hm := Nat.eq_zero_or_pos m
      · -- So far there are nothing but zeros.
        refine ⟨zeros + 1, ?_⟩
        rw [hzeros, Nat.mul_zero, Nat.zero_add, hdigit, List.replicate_succ']
        rfl
      · refine ⟨zeros, ?_⟩
        rw [hzeros, List.append_assoc, ← hdigit, Nat.toDigits_append_toDigits (by decide) hm hd]

lemma exists_replicate_of_digits? (h : digits? cs = some n) :
    ∃ zeros, cs = List.replicate zeros '0' ++ Nat.toDigits 10 n := by
  cases cs with
  | nil => cases h
  | cons c cs =>
    have hdigits := isDigit_of_digitsOnto h
    obtain rfl : Nat.ofDigitChars 10 (c :: cs) 0 = n := by
      rw [digits?, digitsOnto_of_isDigit hdigits] at h
      exact Option.some.inj h
    exact exists_replicate_of_isDigit (by simp) hdigits

lemma numeral_of_unsigned? (h : unsigned? cs = some n) : Numeral n cs := by
  unfold unsigned? at h
  split at h
  · obtain ⟨zeros, rfl⟩ := exists_replicate_of_digits? h
    exact .plus zeros
  · obtain ⟨zeros, rfl⟩ := exists_replicate_of_digits? h
    exact .unsigned zeros

lemma numeral_of_unsignedBelow?_trim {bound : Nat}
    (h : unsignedBelow? bound (trim cs) = some n) : n < bound ∧ ∃ front digits back,
      Numeral n digits ∧ allBlank front = true ∧ allBlank back = true ∧
        cs = front ++ (digits ++ back) := by
  obtain ⟨hn, hbound⟩ := Option.filter_eq_some_iff.mp h
  obtain ⟨front, back, hfront, hback, hcs⟩ := exists_eq_append_trim cs
  exact ⟨by simpa using hbound, front, trim cs, back, numeral_of_unsigned? hn, hfront, hback, hcs⟩

end Accepted

section Padded

lemma toList_padded (width n : Nat) : (padded width n).toList =
    List.replicate (width - (Nat.toDigits 10 n).length) '0' ++ Nat.toDigits 10 n := by
  rw [padded, String.toList_append, String.toList_ofList, Nat.toList_repr, ← String.length_toList,
    Nat.toList_repr]

lemma isDigit_of_mem_padded (width n : Nat) : ∀ c ∈ (padded width n).toList, c.isDigit = true := by
  intro c hc
  rw [toList_padded, List.mem_append, List.mem_replicate] at hc
  obtain ⟨-, rfl⟩ | hc := hc
  · rfl
  · exact Nat.isDigit_of_mem_toDigits (by decide) (by decide) hc

lemma digits?_padded (width n : Nat) : digits? (padded width n).toList = some n := by
  rw [toList_padded, digits?_replicate_append]

lemma numeral_padded (width n : Nat) : Numeral n (padded width n).toList := by
  rw [toList_padded]
  exact .unsigned _

lemma length_padded {width : Nat} (hwidth : 0 < width) (hn : n < 10 ^ width) :
    (padded width n).toList.length = width := by
  have hdigits := (Nat.length_toDigits_le_iff (by decide) hwidth).mpr hn
  rw [toList_padded, List.length_append, List.length_replicate]
  omega

end Padded

end ReviewStream.Text
