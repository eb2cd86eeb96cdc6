import Mathlib.Data.List.Basic
import Mathlib.Data.List.TakeWhile
import Mathlib.Tactic.Lemma
import ReviewStream.Proofs.Except
import ReviewStream.Text.Basic

/-!
# Texts and their parts

What is left of a text when the blanks at its ends are taken away, and what it is split into.
Joining undoes splitting, and splitting undoes joining as long as no piece holds the separator.

A list is written as pieces with separators between them, and blank pieces do not count. The reader
of such a list accepts a text if each piece writes an element of the list, and else it reports the
fault of the first piece that writes none.
-/

namespace ReviewStream.Text

/-! ### Bytes -/

lemma fromUTF8?_eq_some_iff {bytes : ByteArray} {s : String} :
    String.fromUTF8? bytes = some s ↔ bytes = s.toUTF8 := by
  unfold String.fromUTF8?
  constructor
  · intro h
    split at h
    · cases h
      rfl
    · cases h
  · rintro rfl
    rw [dif_pos (show s.toUTF8.IsValidUTF8 from s.isValidUTF8)]
    rfl

lemma toList_loop_byteArray (bytes : ByteArray) (i : Nat) (done : List UInt8) :
    ByteArray.toList.loop bytes i done = done.reverse ++ bytes.data.toList.drop i := by
  fun_induction ByteArray.toList.loop bytes i done with
  | case1 i done hlt ih =>
    have hget : bytes.get! i = bytes.data.toList[i] := getElem!_pos bytes.data i hlt
    rw [ih, List.reverse_cons, hget, List.append_assoc, List.singleton_append,
      ← List.drop_eq_getElem_cons]
  | case2 i done hle =>
    have hlength : bytes.data.toList.length ≤ i := Nat.not_lt.mp hle
    rw [List.drop_eq_nil_of_le hlength, List.append_nil]

lemma toList_toUTF8 (s : String) : s.toUTF8.toList = s.toList.flatMap String.utf8EncodeChar := by
  have hbytes : s.toUTF8 = s.toList.utf8Encode := by
    rw [← String.toByteArray_ofList, String.ofList_toList, String.toUTF8_eq_toByteArray]
  rw [ByteArray.toList, toList_loop_byteArray, hbytes, List.utf8Encode, List.data_toByteArray]
  rfl

/-! ### Blanks -/

lemma allBlank_iff {cs : List Char} : allBlank cs = true ↔ ∀ c ∈ cs, isBlank c = true :=
  List.all_eq_true

lemma trimEnd_eq_nil_iff {cs : List Char} : trimEnd cs = [] ↔ allBlank cs = true := by
  rw [trimEnd, List.reverse_eq_nil_iff, List.dropWhile_eq_nil_iff, allBlank_iff]
  simp

lemma allBlank_trimStart {cs : List Char} : allBlank (trimStart cs) = allBlank cs := by
  induction cs with
  | nil => rfl
  | cons c cs ih =>
    unfold trimStart at *
    by_cases hc : isBlank c = true
    · rw [List.dropWhile_cons_of_pos hc, ih]
      simp [allBlank, hc]
    · rw [List.dropWhile_cons_of_neg hc]

lemma trim_eq_nil_iff {cs : List Char} : trim cs = [] ↔ allBlank cs = true := by
  rw [trim, trimEnd_eq_nil_iff, allBlank_trimStart]

lemma isEmpty_trim {cs : List Char} : (trim cs).isEmpty = allBlank cs := by
  rw [Bool.eq_iff_iff, List.isEmpty_iff, trim_eq_nil_iff]

lemma nonBlank?_eq_none_iff {s : String} : nonBlank? s = none ↔ allBlank s.toList = true := by
  rw [← trim_eq_nil_iff]
  unfold nonBlank?
  cases trim s.toList <;> simp

lemma nonBlank?_of_not_allBlank {s : String} (h : allBlank s.toList = false) :
    nonBlank? s = some (trimmed s) := by
  have hne : (trim s.toList).isEmpty = false := by
    rw [isEmpty_trim, h]
  rw [nonBlank?, trimmed]
  simp [hne]

lemma trim_append {front cs back : List Char} (hfront : allBlank front = true)
    (hback : allBlank back = true) (hfirst : ∀ c, cs.head? = some c → isBlank c = false)
    (hlast : ∀ c, cs.getLast? = some c → isBlank c = false) :
    trim (front ++ (cs ++ back)) = cs := by
  cases cs with
  | nil =>
    rw [allBlank] at hfront hback
    rw [List.nil_append, trim_eq_nil_iff, allBlank, List.all_append, hfront, hback]
    rfl
  | cons c cs =>
    have hc : isBlank c = false := hfirst c rfl
    have hstart : trimStart (front ++ (c :: cs ++ back)) = c :: cs ++ back := by
      rw [trimStart, List.dropWhile_append_of_pos (allBlank_iff.mp hfront), List.cons_append,
        List.dropWhile_cons_of_neg (by simp [hc])]
    have hend : ∀ b ∈ back.reverse, isBlank b = true :=
      fun b hb => allBlank_iff.mp hback b (List.mem_reverse.mp hb)
    rw [trim, hstart, trimEnd, List.reverse_append, List.dropWhile_append_of_pos hend]
    obtain ⟨b, bs, hbs⟩ :=
      List.exists_cons_of_ne_nil (List.reverse_ne_nil_iff.mpr (List.cons_ne_nil c cs))
    have hb : isBlank b = false := by
      refine hlast b ?_
      rw [← List.head?_reverse, hbs, List.head?_cons]
    rw [hbs, List.dropWhile_cons_of_neg (by simp [hb]), ← hbs, List.reverse_reverse]

lemma exists_eq_append_trim (cs : List Char) : ∃ front back,
    allBlank front = true ∧ allBlank back = true ∧ cs = front ++ (trim cs ++ back) := by
  have hblank : ∀ cs : List Char, allBlank (cs.takeWhile isBlank) = true :=
    fun cs => allBlank_iff.mpr fun _ hc => List.mem_takeWhile_imp hc
  let rest := trimStart cs
  refine ⟨cs.takeWhile isBlank, (rest.reverse.takeWhile isBlank).reverse, hblank cs, ?_, ?_⟩
  · have hback := hblank rest.reverse
    rwa [allBlank, List.all_reverse]
  · have hrest : trim cs ++ (rest.reverse.takeWhile isBlank).reverse = rest := by
      rw [trim, trimEnd, ← List.reverse_append, List.takeWhile_append_dropWhile,
        List.reverse_reverse]
    rw [hrest]
    exact List.takeWhile_append_dropWhile.symm

variable {front cs back : List Char} {c : Char}

lemma trim_blanks_append (h : allBlank front = true) : trim (front ++ cs) = trim cs := by
  rw [trim, trim, trimStart, List.dropWhile_append_of_pos (allBlank_iff.mp h), trimStart]

lemma trim_append_blanks (h : allBlank back = true) : trim (cs ++ back) = trim cs := by
  have hend : ∀ b ∈ back.reverse, isBlank b = true :=
    fun b hb => allBlank_iff.mp h b (List.mem_reverse.mp hb)
  rw [trim, trimStart, List.dropWhile_append]
  split
  · rename_i hnil
    have hcs : trimStart cs = [] := List.isEmpty_iff.mp hnil
    have hrest : back.dropWhile isBlank = [] :=
      List.dropWhile_eq_nil_iff.mpr (allBlank_iff.mp h)
    rw [hrest, trim, hcs]
  · rw [trim, trimStart, trimEnd, List.reverse_append, List.dropWhile_append_of_pos hend, trimEnd]

lemma trim_trimStart : trim (trimStart cs) = trim cs := by
  have hblank : allBlank (cs.takeWhile isBlank) = true :=
    allBlank_iff.mpr fun b hb => List.mem_takeWhile_imp hb
  have h : trim (cs.takeWhile isBlank ++ trimStart cs) = trim (trimStart cs) :=
    trim_blanks_append hblank
  rw [trimStart, List.takeWhile_append_dropWhile] at h
  exact h.symm

lemma trim_trimEnd : trim (trimEnd cs) = trim cs := by
  have hblank : allBlank (cs.reverse.takeWhile isBlank).reverse = true :=
    allBlank_iff.mpr fun b hb => List.mem_takeWhile_imp (List.mem_reverse.mp hb)
  have h : trim (trimEnd cs ++ (cs.reverse.takeWhile isBlank).reverse) = trim (trimEnd cs) :=
    trim_append_blanks hblank
  rw [trimEnd, ← List.reverse_append, List.takeWhile_append_dropWhile, List.reverse_reverse] at h
  exact h.symm

lemma trim_trim : trim (trim cs) = trim cs :=
  calc trim (trim cs) = trim (trimStart cs) := trim_trimEnd
    _ = trim cs := trim_trimStart

lemma mem_of_mem_trim (h : c ∈ trim cs) : c ∈ cs := by
  obtain ⟨front, back, -, -, hcs⟩ := exists_eq_append_trim cs
  rw [hcs]
  simp [h]

lemma trimStart_append_cons (h : isBlank c = false) :
    trimStart (front ++ c :: back) = trimStart front ++ c :: back := by
  have hkeep : (c :: back).dropWhile isBlank = c :: back :=
    List.dropWhile_cons_of_neg (by simp [h])
  rw [trimStart, List.dropWhile_append, hkeep, trimStart]
  split
  · rename_i hnil
    rw [List.isEmpty_iff.mp hnil, List.nil_append]
  · rfl

lemma trimEnd_append_cons (h : isBlank c = false) :
    trimEnd (front ++ c :: back) = front ++ c :: trimEnd back := by
  have hreverse : (front ++ c :: back).reverse = back.reverse ++ c :: front.reverse := by simp
  have hstart : trimStart (back.reverse ++ c :: front.reverse) =
      trimStart back.reverse ++ c :: front.reverse := trimStart_append_cons h
  rw [trimStart, trimStart] at hstart
  rw [trimEnd, trimEnd, hreverse, hstart]
  simp

lemma trim_append_cons (h : isBlank c = false) :
    trim (front ++ c :: back) = trimStart front ++ c :: trimEnd back := by
  rw [trim, trimStart_append_cons h, trimEnd_append_cons h]

/-! ### Pieces -/

variable {sep : Char} {p : List Char} {ps : List (List Char)}

lemma pieces_ne_nil (sep : Char) (cs : List Char) : pieces sep cs ≠ [] := by
  cases cs with
  | nil => simp [pieces]
  | cons c cs =>
    unfold pieces
    split
    · simp
    · split <;> simp

lemma pieces_cons_self : pieces sep (sep :: cs) = [] :: pieces sep cs := by
  rw [pieces, if_pos rfl]

lemma pieces_cons_of_ne {c : Char} (cs : List Char) (h : c ≠ sep) :
    ∃ p ps, pieces sep cs = p :: ps ∧ pieces sep (c :: cs) = (c :: p) :: ps := by
  obtain ⟨p, ps, hps⟩ := List.exists_cons_of_ne_nil (pieces_ne_nil sep cs)
  exact ⟨p, ps, hps, by rw [pieces, if_neg h, hps]⟩

lemma pieces_of_not_mem (h : sep ∉ cs) : pieces sep cs = [cs] := by
  induction cs with
  | nil => rfl
  | cons c cs ih =>
    have hc : c ≠ sep := fun hc => h (by simp [hc])
    have hcs : sep ∉ cs := fun hmem => h (by simp [hmem])
    rw [pieces, if_neg hc, ih hcs]

lemma pieces_append (h : sep ∉ front) :
    pieces sep (front ++ sep :: back) = front :: pieces sep back := by
  induction front with
  | nil => exact pieces_cons_self
  | cons c front ih =>
    have hc : c ≠ sep := fun hc => h (by simp [hc])
    have hfront : sep ∉ front := fun hmem => h (by simp [hmem])
    rw [List.cons_append, pieces, if_neg hc, ih hfront]

lemma pieces_join (hne : ps ≠ []) (h : ∀ p ∈ ps, sep ∉ p) : pieces sep (join sep ps) = ps := by
  induction ps with
  | nil => exact absurd rfl hne
  | cons p ps ih =>
    have hp : sep ∉ p := h p (by simp)
    cases ps with
    | nil => exact pieces_of_not_mem hp
    | cons q ps =>
      have hrest : pieces sep (join sep (q :: ps)) = q :: ps :=
        ih (by simp) fun r hr => h r (List.mem_cons_of_mem p hr)
      rw [join, pieces_append hp, hrest]

lemma not_mem_of_mem_pieces (h : p ∈ pieces sep cs) : sep ∉ p := by
  induction cs generalizing p with
  | nil => simp_all [pieces]
  | cons c cs ih =>
    by_cases hc : c = sep
    · subst hc
      rw [pieces_cons_self] at h
      rcases List.mem_cons.mp h with rfl | h
      · simp
      · exact ih h
    · obtain ⟨q, qs, hq, hcons⟩ := pieces_cons_of_ne cs hc
      rw [hcons] at h
      rw [hq] at ih
      rcases List.mem_cons.mp h with rfl | h
      · have hsep : sep ∉ q := ih (by simp)
        simp [hsep, Ne.symm hc]
      · exact ih (by simp [h])

lemma splitFirst?_eq_none_iff : splitFirst? sep cs = none ↔ sep ∉ cs := by
  induction cs with
  | nil => simp [splitFirst?]
  | cons c cs ih =>
    by_cases hc : c = sep
    · simp [splitFirst?, hc]
    · simp [splitFirst?, hc, ih, Ne.symm hc]

lemma splitFirst?_append (h : sep ∉ front) :
    splitFirst? sep (front ++ sep :: back) = some (front, back) := by
  induction front with
  | nil => simp [splitFirst?]
  | cons c front ih =>
    have hc : c ≠ sep := fun hc => h (by simp [hc])
    have hfront : sep ∉ front := fun hmem => h (by simp [hmem])
    rw [List.cons_append, splitFirst?, if_neg hc, ih hfront, Option.map_some]

lemma splitFirst?_eq_some_iff :
    splitFirst? sep cs = some (front, back) ↔ cs = front ++ sep :: back ∧ sep ∉ front := by
  constructor
  · intro h
    induction cs generalizing front with
    | nil => cases h
    | cons c cs ih =>
      rw [splitFirst?] at h
      split at h
      · rename_i hc
        cases h
        simp [hc]
      · rename_i hc
        obtain ⟨⟨first, rest⟩, hfirst, heq⟩ := Option.map_eq_some_iff.mp h
        cases heq
        obtain ⟨rfl, hnot⟩ := ih hfirst
        simp [hnot, Ne.symm hc]
  · rintro ⟨rfl, hfront⟩
    exact splitFirst?_append hfront

/-! ### Lists -/

variable {α ε : Type}

/-- The pieces of a text that are not blank. -/
def writtenPieces (sep : Char) (cs : List Char) : List (List Char) :=
  (pieces sep cs).filter fun p => !allBlank p

lemma filter_map_trim (sep : Char) (cs : List Char) :
    ((pieces sep cs).map trim).filter (fun p => !p.isEmpty) = (writtenPieces sep cs).map trim := by
  have hfilter : ((fun p : List Char => !p.isEmpty) ∘ trim) = fun p => !allBlank p := by
    funext p
    rw [Function.comp_apply, isEmpty_trim]
  rw [List.filter_map, hfilter, writtenPieces]

lemma writtenPieces_join (h : ∀ p ∈ ps, sep ∉ p ∧ allBlank p = false) :
    writtenPieces sep (join sep ps) = ps := by
  by_cases hnil : ps = []
  · subst hnil
    rfl
  · rw [writtenPieces, pieces_join hnil fun p hp => (h p hp).1]
    refine List.filter_eq_self.mpr fun p hp => ?_
    rw [(h p hp).2]
    rfl

lemma splitFirst?_trim (sep : Char) (hsep : isBlank sep = false) (cs : List Char) :
    splitFirst? sep (trim cs) =
      (splitFirst? sep cs).map fun (front, back) => (trimStart front, trimEnd back) := by
  cases h : splitFirst? sep cs with
  | none =>
    have hnot : sep ∉ cs := splitFirst?_eq_none_iff.mp h
    exact splitFirst?_eq_none_iff.mpr fun hmem => hnot (mem_of_mem_trim hmem)
  | some parts =>
    obtain ⟨front, back⟩ := parts
    obtain ⟨rfl, hfront⟩ := splitFirst?_eq_some_iff.mp h
    have hstart : sep ∉ trimStart front :=
      fun hmem => hfront ((List.dropWhile_suffix _).subset hmem)
    rw [trim_append_cons hsep, splitFirst?_append hstart, Option.map_some]

/-- How a reader of lists decides, given what a piece may write and what may be at fault with it. -/
structure ReadsList (sep : Char) (read : String → Except ε (List α))
    (Writes : List Char → α → Prop) (Faulty : List Char → ε → Prop) : Prop where
  /-- The elements are those that the pieces write, in order. -/
  accepts : ∀ s xs, read s = .ok xs ↔ List.Forall₂ Writes (writtenPieces sep s.toList) xs
  accepted : ∀ s, (∃ xs, read s = .ok xs) ↔ ∀ p ∈ writtenPieces sep s.toList, ∃ x, Writes p x
  /-- The first piece that writes no element is reported. -/
  rejects : ∀ s e, read s = .error e ↔
    ∃ good bad rest, writtenPieces sep s.toList = good ++ bad :: rest ∧
      (∀ p ∈ good, ∃ x, Writes p x) ∧ Faulty bad e

lemma readsList_of_piece {read : String → Except ε (List α)} {readPiece : List Char → Except ε α}
    {Writes : List Char → α → Prop} {Faulty : List Char → ε → Prop}
    (hread : ∀ s, read s =
      (((pieces sep s.toList).map trim).filter fun p => !p.isEmpty).mapM readPiece)
    (hok : ∀ p x, readPiece (trim p) = .ok x ↔ Writes p x)
    (herror : ∀ p e, readPiece (trim p) = .error e ↔ Faulty p e) :
    ReadsList sep read Writes Faulty := by
  have hmap : ∀ s, read s = (writtenPieces sep s.toList).mapM fun p => readPiece (trim p) := by
    intro s
    rw [hread, filter_map_trim, List.mapM_map]
    rfl
  refine ⟨fun s xs => ?_, fun s => ?_, fun s e => ?_⟩
  · rw [hmap, mapM_eq_ok_iff]
    simp only [hok]
  · simp only [hmap, exists_mapM_eq_ok_iff, hok]
  · rw [hmap, mapM_eq_error_iff]
    simp only [hok, herror]

end ReviewStream.Text
