import ReviewStream.Calendar.Timestamp
import ReviewStream.Proofs.Calendar.Date
import ReviewStream.Proofs.Text.Numeral

/-!
# Timestamps read back

A timestamp is read from the text that it is written as, in any year that can be represented, with
any fraction of a second, and also inside a leap second.
-/

namespace ReviewStream.Calendar.Timestamp

section Fields

variable {ds rest : List Char} {n : Nat}

lemma takeNumber_digits {most : Nat} (hds : ∀ c ∈ ds, c.isDigit = true)
    (hmost : ds.length ≤ most)
    (hend : ds.length = most ∨ ∀ c, rest.head? = some c → c.isDigit = false) :
    takeNumber most (ds ++ rest) = (Text.digits? ds).map fun n => (n, rest) := by
  have htake : ((ds ++ rest).take most).takeWhile Char.isDigit = ds := by
    rw [List.take_append, List.take_of_length_le hmost, List.takeWhile_append_of_pos hds]
    obtain hfull | hdelimited := hend
    · simp [hfull]
    · cases rest with
      | nil => simp
      | cons c rest =>
        cases h : most - ds.length with
        | zero => simp
        | succ k => simp [hdelimited c rfl]
  rw [takeNumber, htake, List.drop_left]

lemma trimStart_digits (hds : ∀ c ∈ ds, c.isDigit = true) (hne : ds ≠ []) (rest : List Char) :
    Text.trimStart (ds ++ rest) = ds ++ rest := by
  obtain ⟨c, cs, rfl⟩ := List.exists_cons_of_ne_nil hne
  have hblank := Text.isBlank_of_isDigit (hds c (by simp))
  simp [Text.trimStart, hblank]

lemma padded_ne_nil (width n : Nat) : (Text.padded width n).toList ≠ [] := by
  rw [Text.toList_padded]
  simp [Nat.toDigits_ne_nil]

lemma takeNumber_padded {width : Nat} (hwidth : 0 < width) (hn : n < 10 ^ width)
    (rest : List Char) :
    takeNumber width ((Text.padded width n).toList ++ rest) = some (n, rest) := by
  have hlength := Text.length_padded hwidth hn
  rw [takeNumber_digits (Text.isDigit_of_mem_padded width n) hlength.le
    (.inl hlength), Text.digits?_padded, Option.map_some]

lemma takeField_twoDigits {low high : Nat} (hlow : low ≤ n) (hhigh : n ≤ high) (hn : n < 100)
    (rest : List Char) :
    takeField low high ((Text.twoDigits n).toList ++ rest) = some (n, rest) := by
  rw [takeField, Text.twoDigits,
    trimStart_digits (Text.isDigit_of_mem_padded 2 n) (padded_ne_nil 2 n),
    takeNumber_padded (by decide) hn]
  simp [hlow, hhigh]

lemma takeSeparator_cons {sep : Char} (hsep : Text.isBlank sep = false) (rest : List Char) :
    takeSeparator sep (sep :: rest) = some rest := by
  have htrim : Text.trimStart (sep :: rest) = sep :: rest := by simp [Text.trimStart, hsep]
  simp [takeSeparator, htrim]

/-- A year of four digits has no sign, and behind a sign there are as many digits as it takes. -/
lemma takeYear_renderYear (y : Int) (rest : List Char) :
    takeYear ((renderYear y).toList ++ '-' :: rest) = some (y, '-' :: rest) := by
  have hdigits := Text.isDigit_of_mem_padded 4 y.natAbs
  have hne := padded_ne_nil 4 y.natAbs
  have hsigned : takeNumber ((Text.padded 4 y.natAbs).toList ++ '-' :: rest).length
      ((Text.padded 4 y.natAbs).toList ++ '-' :: rest) = some (y.natAbs, '-' :: rest) := by
    rw [takeNumber_digits hdigits (by simp) (.inr (by simp)), Text.digits?_padded,
      Option.map_some]
  unfold renderYear
  by_cases hplain : 0 ≤ y ∧ y ≤ 9999
  · have hnat : y.toNat = y.natAbs := by omega
    have hsmall : y.natAbs < 10 ^ 4 := by omega
    rw [if_pos hplain, hnat, takeYear, trimStart_digits hdigits hne]
    obtain ⟨c, cs, hcs⟩ := List.exists_cons_of_ne_nil hne
    have hc : c.isDigit = true := hdigits c (by rw [hcs]; simp)
    have hread := takeNumber_padded (n := y.natAbs) (by decide) hsmall ('-' :: rest)
    rw [hcs, List.cons_append] at hread ⊢
    split
    · rename_i h
      cases h
      exact absurd hc (by decide)
    · rename_i h
      cases h
      exact absurd hc (by decide)
    · rw [hread]
      simp
      omega
  · have hsign : ∀ sign : Char, Text.isBlank sign = false →
        Text.trimStart ((String.singleton sign ++ Text.padded 4 y.natAbs).toList ++ '-' :: rest) =
          sign :: ((Text.padded 4 y.natAbs).toList ++ '-' :: rest) := by
      intro sign hblank
      simp [String.toList_append, Text.trimStart, hblank]
    rw [if_neg hplain]
    by_cases hneg : y < 0
    · have hy : -(y.natAbs : Int) = y := by omega
      rw [if_pos hneg, takeYear, show "-" = String.singleton '-' from rfl, hsign '-' rfl]
      simp only [hsigned, Option.map_some, hy]
    · have hy : (y.natAbs : Int) = y := by omega
      rw [if_neg hneg, takeYear, show "+" = String.singleton '+' from rfl, hsign '+' rfl]
      simp only [hsigned, Option.map_some, hy]

lemma takeFraction_renderFraction (hn : n < 1000000000) :
    takeFraction ((renderFraction n).toList ++ ['Z']) = some (n, ['Z']) := by
  have hread : ∀ width k, 0 < width → width ≤ 9 → k < 10 ^ width →
      takeFraction (("." ++ Text.padded width k).toList ++ ['Z']) =
        some (k * 10 ^ (9 - width), ['Z']) := by
    intro width k hwidth hnine hk
    have hdigits := Text.isDigit_of_mem_padded width k
    have hlength := Text.length_padded hwidth hk
    have hnumber : takeNumber 9 ((Text.padded width k).toList ++ ['Z']) = some (k, ['Z']) := by
      rw [takeNumber_digits hdigits (hlength.le.trans hnine) (.inr (by simp)),
        Text.digits?_padded, Option.map_some]
    have hwhile : ((Text.padded width k).toList ++ ['Z']).takeWhile Char.isDigit =
        (Text.padded width k).toList := by
      rw [List.takeWhile_append_of_pos hdigits]
      simp
    simp [String.toList_append, takeFraction, hnumber, hwhile, hlength]
  unfold renderFraction
  split_ifs with hzero hmilli hmicro
  · subst hzero
    rfl
  · rw [hread 3 _ (by decide) (by decide) (by omega)]
    simp
    omega
  · rw [hread 6 _ (by decide) (by decide) (by omega)]
    simp
    omega
  · rw [hread 9 _ (by decide) (by decide) (by omega)]
    simp

end Fields

lemma ofLocal?_parts (t : Timestamp) :
    let second := (t.seconds % 86400).toNat
    ofLocal? (Date.ofDays (t.seconds / 86400)) (second / 3600) (second / 60 % 60)
      (second % 60 + t.nanos / 1000000000) (t.nanos % 1000000000) 0 = some t := by
  intro second
  have hrange := t.in_range
  have hnanos := t.nanos_valid
  simp only [earliestSecond, latestSecond] at hrange
  have hstart : earliestSecond ≤ t.seconds / 86400 * 86400 ∧
      t.seconds / 86400 * 86400 ≤ latestSecond := by
    simp only [earliestSecond, latestSecond]
    omega
  have hparts : ofParts? t.seconds t.nanos = some t := by
    rw [ofParts?, dif_pos t.in_range, dif_pos t.nanos_valid]
  simp only [ofLocal?, isValid_ofDays, toDays_ofDays, hstart, Bool.true_and, and_self, if_true]
  rw [if_pos (by decide)]
  obtain hplain | hleap : t.nanos / 1000000000 = 0 ∨
      t.nanos / 1000000000 = 1 ∧ t.seconds % 60 = 59 := by omega
  · have hsecond : ¬ (second % 60 + t.nanos / 1000000000 = 60) := by omega
    rw [if_neg hsecond, ← hparts]
    congr 1 <;> omega
  · have hsecond : second % 60 + t.nanos / 1000000000 = 60 := by omega
    rw [if_pos hsecond, ← hparts]
    congr 1 <;> omega

/-- A timestamp is read back from its text. -/
theorem parse?_render (t : Timestamp) : parse? t.render = some t := by
  obtain ⟨hmonth, hday⟩ := bounds_of_isValid (isValid_ofDays (t.seconds / 86400))
  have hnanos := t.nanos_valid
  have hparts := ofLocal?_parts t
  generalize hdate : Date.ofDays (t.seconds / 86400) = date at hmonth hday hparts
  obtain ⟨year, month, day⟩ := date
  generalize hsecond : (t.seconds % 86400).toNat = second at hparts
  have hbound : second < 86400 := by omega
  have hfraction := takeFraction_renderFraction (n := t.nanos % 1000000000) (by omega)
  have htext : t.render.toList =
      (renderYear year).toList ++ '-' :: ((Text.twoDigits month).toList ++
        '-' :: ((Text.twoDigits day).toList ++ 'T' :: ((Text.twoDigits (second / 3600)).toList ++
          ':' :: ((Text.twoDigits (second / 60 % 60)).toList ++
            ':' :: ((Text.twoDigits (second % 60 + t.nanos / 1000000000)).toList ++
              ((renderFraction (t.nanos % 1000000000)).toList ++ ['Z'])))))) := by
    simp [render, hdate, hsecond, String.toList_append]
  have hleap : second % 60 + t.nanos / 1000000000 ≤ 60 := by omega
  have hoffset : takeOffset (Text.trimStart ['Z']) = some (0, []) := rfl
  have hdash : ∀ rest, takeSeparator '-' ('-' :: rest) = some rest := takeSeparator_cons rfl
  have hcolon : ∀ rest, takeSeparator ':' (':' :: rest) = some rest := takeSeparator_cons rfl
  unfold parse?
  rw [htext, takeYear_renderYear]
  simp only [bind, Option.bind_some, hdash, hcolon, hfraction, hoffset,
    takeField_twoDigits hmonth.1 hmonth.2 (by omega), takeField_twoDigits hday.1 hday.2 (by omega),
    takeField_twoDigits (Nat.zero_le _) (show second / 3600 ≤ 23 by omega) (by omega),
    takeField_twoDigits (Nat.zero_le _) (show second / 60 % 60 ≤ 59 by omega) (by omega),
    takeField_twoDigits (Nat.zero_le _) hleap (by omega)]
  exact hparts

end ReviewStream.Calendar.Timestamp
