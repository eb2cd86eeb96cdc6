import Mathlib.Tactic.SplitIfs
import ReviewStream.Json.Basic
import ReviewStream.Proofs.Json.Written

/-!
# Printed values

The text that is printed for a value is one of the texts of that value, so it is read back. Left out
are values that no text has and values nested too deep.
-/

namespace ReviewStream.Json

section Strings

variable {body cs : List Char}

lemma spells_escape (h : Spells body cs) (c : Char) : Spells (escape c ++ body) (c :: cs) := by
  have hcontrols : ∀ u < 32, hex4? '0' '0' (hexDigit (u / 16)) (hexDigit (u % 16)) = some u := by
    decide
  unfold escape
  split_ifs with hquote hslash _ _ _ _ _ hcontrol
  any_goals
    subst_vars
    exact .short rfl h
  · have hc : c.toNat < 32 := hcontrol
    have hhigh : isHighHalf c.toNat = false := by
      simp only [isHighHalf, Bool.and_eq_false_iff, decide_eq_false_iff_not]
      omega
    have hlow : isLowHalf c.toNat = false := by
      simp only [isLowHalf, Bool.and_eq_false_iff, decide_eq_false_iff_not]
      omega
    simpa using Spells.unit (hcontrols c.toNat hc) hhigh hlow h
  · exact .plain hquote hslash hcontrol h

lemma spells_flatMap_escape (cs : List Char) : Spells (cs.flatMap escape) cs := by
  induction cs with
  | nil => exact .nil
  | cons c cs ih => exact spells_escape ih c

end Strings

section Numbers

variable {n : Nat}

lemma isDigit_of_mem_toDigits : ∀ c ∈ Nat.toDigits 10 n, c.isDigit = true :=
  fun _ hc => Nat.isDigit_of_mem_toDigits (by decide) (by decide) hc

lemma ofDigits_toDigits (n : Nat) : ofDigits (leadingDigits (Nat.toDigits 10 n)) = n := by
  rw [leadingDigits, takeWhile_digits isDigit_of_mem_toDigits, ofDigits, List.foldl_map]
  simpa [Nat.ofDigitChars, Nat.mul_comm] using Nat.ofDigitChars_ten_toDigits (n := n)

lemma length_toDigits_of_zero (h : (Nat.toDigits 10 n).head? = some '0') :
    (Nat.toDigits 10 n).length = 1 := by
  have hpositive : ∀ n ≠ 0, (Nat.toDigits 10 n).head? ≠ some '0' := by
    intro n hn
    induction n using Nat.strongRecOn with
    | ind n ih =>
      rw [Nat.toDigits_eq_if (by decide)]
      split_ifs with hsmall
      · simpa [Nat.digitChar_eq_zero] using hn
      · have hne : Nat.toDigits 10 (n / 10) ≠ [] := Nat.toDigits_ne_nil
        obtain ⟨c, cs, hcs⟩ := List.exists_cons_of_ne_nil hne
        have hhead := ih (n / 10) (by omega) (by omega)
        rw [hcs] at hhead ⊢
        exact hhead
  have hn : n = 0 := Decidable.byContradiction fun hn => hpositive n hn h
  subst hn
  rfl

lemma digits_of_fraction {ds : List Nat} (h : ∀ d ∈ ds, d < 10) :
    (∀ c ∈ ds.map Nat.digitChar, c.isDigit = true) ∧ leadingDigits (ds.map Nat.digitChar) = ds := by
  have hdigit : ∀ d < 10, (Nat.digitChar d).isDigit = true ∧
      (Nat.digitChar d).toNat - '0'.toNat = d := by
    decide
  have hdigits : ∀ c ∈ ds.map Nat.digitChar, c.isDigit = true := by
    intro c hc
    obtain ⟨d, hd, rfl⟩ := List.mem_map.mp hc
    exact (hdigit d (h d hd)).1
  refine ⟨hdigits, ?_⟩
  rw [leadingDigits, takeWhile_digits hdigits, List.map_map]
  exact (List.map_congr_left fun d hd => (hdigit d (h d hd)).2).trans (List.map_id ds)

lemma toList_join_repr {ds : List Nat} (h : ∀ d ∈ ds, d < 10) :
    (String.join (ds.map Nat.repr)).toList = ds.map Nat.digitChar := by
  induction ds with
  | nil => rfl
  | cons d ds ih =>
    have hd : (Nat.repr d).toList = [Nat.digitChar d] := by
      rw [Nat.toList_repr, Nat.toDigits_of_lt_base (h d (by simp))]
    have hds := ih fun e he => h e (by simp [he])
    rw [List.map_cons, String.join_cons, String.toList_append, hd, hds]
    rfl

lemma exponentText_render (exponent : Option Int) : ExponentText exponent (match exponent with
    | none => ""
    | some e => "e" ++ (if e < 0 then "-" else "") ++ Nat.repr e.natAbs).toList := by
  cases exponent with
  | none => exact .absent
  | some e =>
    have hletter : 'e' = 'e' ∨ 'e' = 'E' := .inl rfl
    have hwhole := ofDigits_toDigits e.natAbs
    have hdigits := isDigit_of_mem_toDigits (n := e.natAbs)
    by_cases hneg : e < 0
    · have h := ExponentText.negative hletter Nat.toDigits_ne_nil hdigits
      rw [hwhole, show -(e.natAbs : Int) = e by omega] at h
      simpa [hneg] using h
    · have h := ExponentText.plain hletter Nat.toDigits_ne_nil hdigits
      rw [hwhole, show (e.natAbs : Int) = e by omega] at h
      simpa [hneg] using h

lemma fractionText_render {ds : List Nat} (h : ∀ d ∈ ds, d < 10) : FractionText ds
    (if ds.isEmpty then "" else "." ++ String.join (ds.map Nat.repr)).toList := by
  cases ds with
  | nil => exact .absent
  | cons d ds =>
    obtain ⟨hdigits, hlead⟩ := digits_of_fraction h
    have htext := FractionText.present (by simp) hdigits
    rw [hlead, ← toList_join_repr h] at htext
    rwa [if_neg (by simp), String.toList_append]

lemma literal_render {m : Number} (h : ∀ d ∈ m.fraction, d < 10) : Literal m m.render.toList := by
  obtain ⟨negative, whole, fraction, exponent⟩ := m
  have hf := fractionText_render h
  have he := exponentText_render exponent
  have hwhole := ofDigits_toDigits whole
  have hdigits := isDigit_of_mem_toDigits (n := whole)
  cases negative with
  | false =>
    have hl := Literal.positive Nat.toDigits_ne_nil hdigits length_toDigits_of_zero hf he
    rw [hwhole] at hl
    cases exponent <;> simpa [Number.render] using hl
  | true =>
    have hl := Literal.negative Nat.toDigits_ne_nil hdigits length_toDigits_of_zero hf he
    rw [hwhole] at hl
    cases exponent <;> simpa [Number.render] using hl

end Numbers

mutual

/-- Whether the value can be read from a text with containers nested at most so deep. -/
def readable : Nat → Json → Bool
  | _, .null | _, .bool _ | _, .string _ => true
  | _, .number n => n.inRange && n.fraction.all (· < 10)
  | n + 1, .array js => readableElements n js
  | n + 1, .object ms => ms.head?.map Prod.fst ≠ some embeddingName && readableMembers n ms
  | _, _ => false

def readableElements : Nat → List Json → Bool
  | _, [] => true
  | n, j :: js => readable n j && readableElements n js

def readableMembers : Nat → List (String × Json) → Bool
  | _, [] => true
  | n, (_, j) :: ms => readable n j && readableMembers n ms

end

lemma spaces_nil : Spaces [] := by simp [Spaces]

lemma nameText_render (key : String) : NameText key (renderText key ++ [':']) := by
  have h := NameText.mk (spells_flatMap_escape key.toList) spaces_nil spaces_nil
  simpa [renderText] using h

mutual

lemma written_renderChars {n : Nat} {j : Json} (h : readable n j = true) :
    Written n (.value j) (renderChars j) := by
  match n, j, h with
  | _, .null, _ => exact .null
  | _, .bool true, _ => exact .true
  | _, .bool false, _ => exact .false
  | _, .string s, _ => exact .string (spells_flatMap_escape s.toList)
  | _, .number m, h =>
    simp [readable] at h
    exact .number (literal_render h.2) h.1
  | n + 1, .array [], _ => exact .emptyArray spaces_nil
  | n + 1, .array (j :: js), h =>
    simp only [readable, readableElements, Bool.and_eq_true] at h
    exact .array spaces_nil (written_renderChars h.1) (written_renderElements h.2)
  | n + 1, .object [], _ => exact .emptyObject spaces_nil
  | n + 1, .object ((key, j) :: ms), h =>
    simp [readable, readableMembers] at h
    obtain ⟨hkey, hj, hms⟩ := h
    simpa [renderChars] using Written.object spaces_nil (nameText_render key) hkey
      (written_renderChars hj) (written_renderMembers hms)

lemma written_renderElements {n : Nat} {js : List Json} (h : readableElements n js = true) :
    Written n (.elements js) (renderElements js) := by
  match js, h with
  | [], _ => exact .lastElement spaces_nil
  | j :: js, h =>
    simp only [readableElements, Bool.and_eq_true] at h
    exact .nextElement spaces_nil spaces_nil (written_renderChars h.1) (written_renderElements h.2)

lemma written_renderMembers {n : Nat} {ms : Members} (h : readableMembers n ms = true) :
    Written n (.members ms) (renderMembers ms) := by
  match ms, h with
  | [], _ => exact .lastMember spaces_nil
  | (key, j) :: ms, h =>
    simp only [readableMembers, Bool.and_eq_true] at h
    simpa [renderMembers] using Written.nextMember spaces_nil spaces_nil (nameText_render key)
      (written_renderChars h.1) (written_renderMembers h.2)

end

lemma parseChars_render (d : Dialect) {j : Json} (h : readable depthLimit j = true) :
    parseChars d j.render.toList = .ok j := by
  rw [render, String.toList_ofList]
  exact parseChars_of_written d (written_renderChars h)

end ReviewStream.Json
