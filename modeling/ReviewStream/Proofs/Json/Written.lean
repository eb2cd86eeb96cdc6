import Mathlib.Tactic.Lemma
import ReviewStream.Json.Parser

/-!
# Written values

A value may be written in many ways: with blanks around its tokens and with any character of a
string escaped. `Written` is the grammar of these texts, with a bound on how deep containers are
nested. A reader gets from such a text the value it is a text of.
-/

namespace ReviewStream.Json

section Strings

/-- What a text between the quotes of a string spells. Quotes, backslashes and controls have to be
escaped, and any other character may be. -/
inductive Spells : List Char → List Char → Prop where
  | nil : Spells [] []
  | plain {c body cs} (hquote : c ≠ '"') (hslash : c ≠ '\\') (hcontrol : ¬ c < ' ')
      (h : Spells body cs) : Spells (c :: body) (c :: cs)
  | short {e c body cs} (he : simpleEscape? e = some c) (h : Spells body cs) :
      Spells ('\\' :: e :: body) (c :: cs)
  | unit {x₁ x₂ x₃ x₄ u body cs} (hu : hex4? x₁ x₂ x₃ x₄ = some u) (hhigh : isHighHalf u = false)
      (hlow : isLowHalf u = false) (h : Spells body cs) :
      Spells ('\\' :: 'u' :: x₁ :: x₂ :: x₃ :: x₄ :: body) (Char.ofNat u :: cs)
  | pair {x₁ x₂ x₃ x₄ y₁ y₂ y₃ y₄ high low body cs} (hu : hex4? x₁ x₂ x₃ x₄ = some high)
      (hhigh : isHighHalf high = true) (hv : hex4? y₁ y₂ y₃ y₄ = some low)
      (hlow : isLowHalf low = true) (h : Spells body cs) :
      Spells ('\\' :: 'u' :: x₁ :: x₂ :: x₃ :: x₄ :: '\\' :: 'u' :: y₁ :: y₂ :: y₃ :: y₄ :: body)
        (joinHalves high low :: cs)

variable {body cs : List Char}

lemma scanString_of_spells (strict : Bool) (h : Spells body cs) (acc rest : List Char) :
    scanString strict ⟨some acc, none⟩ (body ++ '"' :: rest) =
      .token (.string (some (String.ofList (acc.reverse ++ cs)))) rest := by
  induction h generalizing acc with
  | nil => simp [scanString, Draft.waits, Draft.close]
  | @plain c body cs hquote hslash hcontrol _ ih =>
    have hnext := ih (c :: acc)
    rw [List.cons_append, scanString]
    · simpa [Draft.waits, Draft.push, hquote, hcontrol] using hnext
    all_goals simp_all
  | @short e c body cs he _ ih =>
    have hnext := ih (c :: acc)
    have hu : e ≠ 'u' := by rintro rfl; cases he
    rw [List.cons_append, List.cons_append, scanString]
    · simpa [Draft.waits, Draft.push, he] using hnext
    all_goals simp_all
  | @unit x₁ x₂ x₃ x₄ u body cs hu hhigh hlow _ ih =>
    have hnext := ih (Char.ofNat u :: acc)
    simpa [scanString, hu, Draft.pushUnit, Draft.ofUnit, hhigh, hlow] using hnext
  | @pair x₁ x₂ x₃ x₄ y₁ y₂ y₃ y₄ high low body cs hu hhigh hv hlow _ ih =>
    have hnext := ih (joinHalves high low :: acc)
    simpa [scanString, hu, hv, Draft.pushUnit, Draft.ofUnit, hhigh, hlow] using hnext

end Strings

section Numbers

/-- The digits of an exponent behind its letter and its sign. -/
inductive ExponentText : Option Int → List Char → Prop where
  | absent : ExponentText none []
  | plain {letter ds} (hletter : letter = 'e' ∨ letter = 'E') (hne : ds ≠ [])
      (hds : ∀ c ∈ ds, c.isDigit = true) :
      ExponentText (some (ofDigits (leadingDigits ds))) (letter :: ds)
  | positive {letter ds} (hletter : letter = 'e' ∨ letter = 'E') (hne : ds ≠ [])
      (hds : ∀ c ∈ ds, c.isDigit = true) :
      ExponentText (some (ofDigits (leadingDigits ds))) (letter :: '+' :: ds)
  | negative {letter ds} (hletter : letter = 'e' ∨ letter = 'E') (hne : ds ≠ [])
      (hds : ∀ c ∈ ds, c.isDigit = true) :
      ExponentText (some (-ofDigits (leadingDigits ds))) (letter :: '-' :: ds)

/-- The point and the digits behind it, if there are any. -/
inductive FractionText : List Nat → List Char → Prop where
  | absent : FractionText [] []
  | present {ds} (hne : ds ≠ []) (hds : ∀ c ∈ ds, c.isDigit = true) :
      FractionText (leadingDigits ds) ('.' :: ds)

/-- The literals of a number. There is no zero in front of other digits. -/
inductive Literal : Number → List Char → Prop where
  | positive {ds fraction fs exponent es} (hne : ds ≠ []) (hds : ∀ c ∈ ds, c.isDigit = true)
      (hzero : ds.head? = some '0' → ds.length = 1) (hf : FractionText fraction fs)
      (he : ExponentText exponent es) :
      Literal ⟨false, ofDigits (leadingDigits ds), fraction, exponent⟩ (ds ++ (fs ++ es))
  | negative {ds fraction fs exponent es} (hne : ds ≠ []) (hds : ∀ c ∈ ds, c.isDigit = true)
      (hzero : ds.head? = some '0' → ds.length = 1) (hf : FractionText fraction fs)
      (he : ExponentText exponent es) :
      Literal ⟨true, ofDigits (leadingDigits ds), fraction, exponent⟩ ('-' :: (ds ++ (fs ++ es)))

variable {ds fs es rest : List Char} {n : Number}

/-- No number goes on with what follows. -/
def Delimited (rest : List Char) : Prop :=
  ∀ c, rest.head? = some c → c.isDigit = false ∧ c ≠ '.' ∧ c ≠ 'e' ∧ c ≠ 'E'

lemma takeWhile_digits (hds : ∀ c ∈ ds, c.isDigit = true) : ds.takeWhile Char.isDigit = ds := by
  have h : (ds ++ []).takeWhile Char.isDigit = ds ++ [].takeWhile Char.isDigit :=
    List.takeWhile_append_of_pos hds
  simpa using h

lemma digits_append (hds : ∀ c ∈ ds, c.isDigit = true)
    (hrest : ∀ c, rest.head? = some c → c.isDigit = false) :
    leadingDigits (ds ++ rest) = leadingDigits ds ∧ pastDigits (ds ++ rest) = rest := by
  have hstop : rest.takeWhile Char.isDigit = [] ∧ rest.dropWhile Char.isDigit = rest := by
    cases rest with
    | nil => exact ⟨rfl, rfl⟩
    | cons c rest => simp [hrest c rfl]
  unfold leadingDigits pastDigits
  rw [List.takeWhile_append_of_pos hds, List.dropWhile_append_of_pos hds, hstop.1, hstop.2,
    List.append_nil, takeWhile_digits hds]
  exact ⟨rfl, rfl⟩

lemma leadingDigits_ne_nil (hne : ds ≠ []) (hds : ∀ c ∈ ds, c.isDigit = true) :
    leadingDigits ds ≠ [] := by
  unfold leadingDigits
  rw [takeWhile_digits hds]
  simpa using hne

lemma scanExponentDigits_of_digits (negative : Bool) (hne : ds ≠ [])
    (hds : ∀ c ∈ ds, c.isDigit = true) (hrest : Delimited rest) :
    scanExponentDigits n negative (ds ++ rest) = .token (.number { n with
      exponent := some (if negative then -ofDigits (leadingDigits ds)
        else ofDigits (leadingDigits ds)) }) rest := by
  obtain ⟨hlead, hpast⟩ := digits_append hds fun c hc => (hrest c hc).1
  unfold scanExponentDigits
  rw [hlead, hpast]
  split
  · rename_i h
    exact absurd h (leadingDigits_ne_nil hne hds)
  · rename_i h
    rw [h]

lemma isDigit_ne {c : Char} (h : c.isDigit = true) :
    c ≠ '-' ∧ c ≠ '+' ∧ c ≠ '.' ∧ c ≠ 'e' ∧ c ≠ 'E' := by
  refine ⟨?_, ?_, ?_, ?_, ?_⟩ <;> rintro rfl <;> exact absurd h (by decide)

lemma scanExponent_of_text {exponent : Option Int} (he : ExponentText exponent es)
    (hn : n.exponent = none) (hrest : Delimited rest) :
    scanExponent n (es ++ rest) = .token (.number { n with exponent }) rest := by
  cases he with
  | absent =>
    rw [List.nil_append]
    unfold scanExponent
    split
    case h_7 => simp [← hn]
    all_goals
      have := hrest _ rfl
      simp_all
  | @plain letter ds hletter hne hds =>
    have hscan := scanExponentDigits_of_digits (n := n) false hne hds hrest
    obtain ⟨d, ds, rfl⟩ := List.exists_cons_of_ne_nil hne
    have hd := isDigit_ne (hds d (by simp))
    obtain rfl | rfl := hletter <;>
      · rw [List.cons_append, List.cons_append, scanExponent]
        · simpa using hscan
        all_goals simp_all
  | @positive letter ds hletter hne hds =>
    have hscan := scanExponentDigits_of_digits (n := n) false hne hds hrest
    obtain rfl | rfl := hletter <;> simpa [scanExponent] using hscan
  | @negative letter ds hletter hne hds =>
    have hscan := scanExponentDigits_of_digits (n := n) true hne hds hrest
    obtain rfl | rfl := hletter <;> simpa [scanExponent] using hscan

lemma head?_exponent {exponent : Option Int} (he : ExponentText exponent es)
    (hrest : Delimited rest) :
    ∀ c, (es ++ rest).head? = some c → c.isDigit = false ∧ c ≠ '.' := by
  intro c hc
  cases he with
  | absent => exact ⟨(hrest c hc).1, (hrest c hc).2.1⟩
  | plain hletter | positive hletter | negative hletter =>
    simp only [List.cons_append, List.head?_cons, Option.some.injEq] at hc
    obtain rfl | rfl := hletter <;> subst hc <;> decide

lemma scanFraction_of_text {fraction : List Nat} {exponent : Option Int}
    (hf : FractionText fraction fs) (he : ExponentText exponent es) (hn : n.exponent = none)
    (hnf : n.fraction = []) (hrest : Delimited rest) :
    scanFraction n (fs ++ (es ++ rest)) = .token (.number { n with fraction, exponent }) rest := by
  have hend := head?_exponent he hrest
  cases hf with
  | absent =>
    rw [List.nil_append]
    unfold scanFraction
    split
    · rename_i hes
      exact absurd rfl (hend '.' (by rw [hes]; rfl)).2
    · rw [scanExponent_of_text he hn hrest, ← hnf]
  | @present ds hne hds =>
    obtain ⟨hlead, hpast⟩ := digits_append hds fun c hc => (hend c hc).1
    rw [List.cons_append, scanFraction, hlead, hpast]
    split
    · rename_i h
      exact absurd h (leadingDigits_ne_nil hne hds)
    · rename_i h
      rw [← h]
      exact scanExponent_of_text (n := { n with fraction := leadingDigits ds }) he hn hrest

lemma no_leading_zero {d : Nat} {more : List Nat} (hds : ∀ c ∈ ds, c.isDigit = true)
    (hzero : ds.head? = some '0' → ds.length = 1) : leadingDigits ds ≠ 0 :: d :: more := by
  intro h
  rw [leadingDigits, takeWhile_digits hds] at h
  obtain _ | ⟨c₁, _ | ⟨c₂, cs⟩⟩ := ds
  · simp at h
  · simp at h
  · have hc : c₁.toNat - 48 = 0 := by simpa using congrArg List.head? h
    have hdigit : 48 ≤ c₁.toNat := by
      have := hds c₁ (by simp)
      simp only [Char.isDigit, Bool.and_eq_true, decide_eq_true_eq] at this
      exact UInt32.le_iff_toNat_le.mp this.1
    have hchar : c₁ = '0' := Char.toNat_inj.mp (show c₁.toNat = 48 by omega)
    simp [hchar] at hzero

lemma scanNumber_of_texts (negative : Bool) {fraction : List Nat} {exponent : Option Int}
    (hne : ds ≠ []) (hds : ∀ c ∈ ds, c.isDigit = true)
    (hzero : ds.head? = some '0' → ds.length = 1) (hf : FractionText fraction fs)
    (he : ExponentText exponent es) (hrest : Delimited rest) :
    scanNumber negative (ds ++ (fs ++ (es ++ rest))) = .token (.number
      ⟨negative, ofDigits (leadingDigits ds), fraction, exponent⟩) rest := by
  have hend : ∀ c, (fs ++ (es ++ rest)).head? = some c → c.isDigit = false := by
    intro c hc
    cases hf with
    | absent => exact (head?_exponent he hrest c hc).1
    | present =>
      obtain rfl : '.' = c := by simpa using hc
      rfl
  obtain ⟨hlead, hpast⟩ := digits_append hds hend
  unfold scanNumber
  rw [hlead, hpast]
  split
  · rename_i h
    exact absurd h (leadingDigits_ne_nil hne hds)
  · rename_i h
    exact absurd h (no_leading_zero hds hzero)
  · exact scanFraction_of_text hf he rfl rfl hrest

lemma scanToken_digit (strict : Bool) {c : Char} (hc : c.isDigit = true) (cs : List Char) :
    scanToken strict c cs = scanNumber false (c :: cs) := by
  unfold scanToken
  split
  case h_12 => rw [if_pos hc]
  all_goals exact absurd hc (by decide)

lemma scanToken_of_literal (strict : Bool) {c : Char} {cs : List Char} (h : Literal n (c :: cs))
    (hrest : Delimited rest) : scanToken strict c (cs ++ rest) = .token (.number n) rest := by
  generalize hl : c :: cs = literal at h
  cases h with
  | @positive ds fraction fs exponent es hne hds hzero hf he =>
    have hscan := scanNumber_of_texts false hne hds hzero hf he hrest
    obtain ⟨d, ds, rfl⟩ := List.exists_cons_of_ne_nil hne
    obtain ⟨rfl, rfl⟩ := by simpa using hl
    rw [scanToken_digit strict (hds c (by simp))]
    simpa using hscan
  | @negative ds fraction fs exponent es hne hds hzero hf he =>
    obtain ⟨rfl, rfl⟩ := by simpa using hl
    simpa [scanToken] using scanNumber_of_texts true hne hds hzero hf he hrest

lemma Literal.exists_cons {literal : List Char} (h : Literal n literal) :
    ∃ c cs, literal = c :: cs ∧ isSpace c = false := by
  cases h with
  | @positive ds _ _ _ _ hne hds =>
    obtain ⟨c, ds, rfl⟩ := List.exists_cons_of_ne_nil hne
    refine ⟨c, _, List.cons_append, ?_⟩
    have hc := hds c (by simp)
    refine Bool.eq_false_iff.mpr fun hspace => ?_
    simp only [isSpace, Bool.or_eq_true, decide_eq_true_eq] at hspace
    obtain ((rfl | rfl) | rfl) | rfl := hspace <;> exact absurd hc (by decide)
  | negative => exact ⟨'-', _, rfl, rfl⟩

end Numbers

section Tokens

variable {d : Dialect} {r r' : Reading} {t : Token} {c : Char} {ws cs rest : List Char}

/-- Blanks between tokens. -/
def Spaces (ws : List Char) : Prop := ∀ c ∈ ws, isSpace c = true

/-- Reads a text on from some point. -/
def readFrom (d : Dialect) (r : Reading) (cs : List Char) : Except Stop Json :=
  r.run d (tokens d.strict cs).2 (tokens d.strict cs).1

lemma tokens_of_scan {strict : Bool} {cs' : List Char} (hs : skipSpaces cs = c :: cs')
    (h : scanToken strict c cs' = .token t rest) :
    tokens strict cs = (⟨t, c :: cs', rest⟩ :: (tokens strict rest).1, (tokens strict rest).2) := by
  rw [tokens]
  split
  · rename_i hnil
    cases hs.symm.trans hnil
  · rename_i hcons
    cases hs.symm.trans hcons
    split
    · rename_i hflaw
      cases h.symm.trans hflaw
    · rename_i htoken
      cases h.symm.trans htoken
      rfl

lemma tokens_of_flaw {strict inString : Bool} {flaw : Flaw} {cs' : List Char}
    (hs : skipSpaces cs = c :: cs') (h : scanToken strict c cs' = .flawed inString flaw) :
    tokens strict cs = ([], .broken inString (c :: cs') flaw) := by
  rw [tokens]
  split
  · rename_i hnil
    cases hs.symm.trans hnil
  · rename_i hcons
    cases hs.symm.trans hcons
    split
    · rename_i hflaw
      cases h.symm.trans hflaw
      rfl
    · rename_i htoken
      cases h.symm.trans htoken

lemma tokens_congr (strict : Bool) {cs' : List Char} (h : skipSpaces cs = skipSpaces cs') :
    tokens strict cs = tokens strict cs' := by
  cases hs : skipSpaces cs with
  | nil =>
    rw [tokens, tokens]
    split <;> split <;> simp_all
  | cons c rest =>
    have hs' := h ▸ hs
    cases ht : scanToken strict c rest with
    | token t rest' => rw [tokens_of_scan hs ht, tokens_of_scan hs' ht]
    | flawed inString flaw => rw [tokens_of_flaw hs ht, tokens_of_flaw hs' ht]

lemma readFrom_spaces (hw : Spaces ws) (cs : List Char) :
    readFrom d r (ws ++ cs) = readFrom d r cs := by
  have hskip : skipSpaces (ws ++ cs) = skipSpaces cs := List.dropWhile_append_of_pos hw
  rw [readFrom, readFrom, tokens_congr d.strict hskip]

lemma readFrom_token (hc : isSpace c = false) (h : scanToken d.strict c cs = .token t rest)
    (hstep : r.step d ⟨t, c :: cs, rest⟩ = .ok r') :
    readFrom d r (c :: cs) = readFrom d r' rest := by
  have hskip : skipSpaces (c :: cs) = c :: cs := by simp [skipSpaces, hc]
  rw [readFrom, tokens_of_scan hskip h, Reading.run, hstep]
  rfl

end Tokens

section Grammar

/-- A value, or what follows an element of an array or a member of an object: the further ones and
the bracket that closes it. -/
inductive Part where
  | value (j : Json)
  | elements (js : List Json)
  | members (ms : Members)

/-- The name of a member with its colon and the blanks around that. -/
inductive NameText (key : String) : List Char → Prop where
  | mk {body ws ws'} (h : Spells body key.toList) (hw : Spaces ws) (hw' : Spaces ws') :
      NameText key ('"' :: (body ++ '"' :: (ws ++ ':' :: ws')))

/-- The texts of a part, with containers nested at most `depth` deep. The name that announces an
embedded text is not the first of an object. -/
inductive Written : (depth : Nat) → Part → List Char → Prop where
  | null {n} : Written n (.value .null) ['n', 'u', 'l', 'l']
  | true {n} : Written n (.value (.bool true)) ['t', 'r', 'u', 'e']
  | false {n} : Written n (.value (.bool false)) ['f', 'a', 'l', 's', 'e']
  | number {n m cs} (h : Literal m cs) (hm : m.inRange = true) : Written n (.value (.number m)) cs
  | string {n s body} (h : Spells body s.toList) :
      Written n (.value (.string s)) ('"' :: (body ++ ['"']))
  | emptyArray {n ws} (hw : Spaces ws) : Written (n + 1) (.value (.array [])) ('[' :: (ws ++ [']']))
  | array {n ws j js cs cs'} (hw : Spaces ws) (hj : Written n (.value j) cs)
      (hjs : Written n (.elements js) cs') :
      Written (n + 1) (.value (.array (j :: js))) ('[' :: (ws ++ (cs ++ cs')))
  | lastElement {n ws} (hw : Spaces ws) : Written n (.elements []) (ws ++ [']'])
  | nextElement {n ws ws' j js cs cs'} (hw : Spaces ws) (hw' : Spaces ws')
      (hj : Written n (.value j) cs) (hjs : Written n (.elements js) cs') :
      Written n (.elements (j :: js)) (ws ++ ',' :: (ws' ++ (cs ++ cs')))
  | emptyObject {n ws} (hw : Spaces ws) :
      Written (n + 1) (.value (.object [])) ('{' :: (ws ++ ['}']))
  | object {n ws key j ms name cs cs'} (hw : Spaces ws) (hname : NameText key name)
      (hkey : key ≠ embeddingName) (hj : Written n (.value j) cs)
      (hms : Written n (.members ms) cs') :
      Written (n + 1) (.value (.object ((key, j) :: ms))) ('{' :: (ws ++ (name ++ (cs ++ cs'))))
  | lastMember {n ws} (hw : Spaces ws) : Written n (.members []) (ws ++ ['}'])
  | nextMember {n ws ws' key j ms name cs cs'} (hw : Spaces ws) (hw' : Spaces ws')
      (hname : NameText key name) (hj : Written n (.value j) cs)
      (hms : Written n (.members ms) cs') :
      Written n (.members ((key, j) :: ms)) (ws ++ ',' :: (ws' ++ (name ++ (cs ++ cs'))))

/-- The reader waits for a value, maybe right after the bracket that opens an array. -/
inductive Awaits : Reading → List Frame → Prop where
  | value (stack) : Awaits (.value stack) stack
  | arrayStart (stack) : Awaits (.arrayStart stack) (.array [] :: stack)

variable {d : Dialect} {r : Reading} {stack : List Frame} {n : Nat} {cs rest : List Char}

lemma step_of_awaits (h : Awaits r stack) {t : Placed} (ht : t.token ≠ .closeArray) :
    r.step d t = Reading.beginValue d.strict stack t := by
  cases h with
  | value stack =>
    unfold Reading.step
    split <;> simp_all
  | arrayStart stack =>
    unfold Reading.step
    split <;> simp_all

lemma readFrom_string {s : String} {body : List Char}
    (h : Spells body s.toList) {r' : Reading}
    (hstep : ∀ start rest, r.step d ⟨.string (some s), start, rest⟩ = .ok r') (rest : List Char) :
    readFrom d r ('"' :: (body ++ '"' :: rest)) = readFrom d r' rest := by
  refine readFrom_token (t := .string (some s)) rfl ?_ (hstep _ _)
  have hscan := scanString_of_spells d.strict h [] rest
  rw [List.reverse_nil, List.nil_append, String.ofList_toList] at hscan
  exact hscan

lemma readFrom_name {key : String} {name : List Char}
    (h : NameText key name) {done : List (Option String × Json)}
    (hstep : ∀ start rest, r.step d ⟨.string (some key), start, rest⟩ =
      .ok (.colon done (some key) stack)) (rest : List Char) :
    readFrom d r (name ++ rest) = readFrom d (.value (.object done (some key) :: stack)) rest := by
  cases h with
  | @mk body ws ws' hbody hw hw' =>
    have hsplit : '"' :: (body ++ '"' :: (ws ++ ':' :: ws')) ++ rest =
        '"' :: (body ++ '"' :: (ws ++ ':' :: (ws' ++ rest))) := by simp
    rw [hsplit, readFrom_string hbody hstep, readFrom_spaces hw,
      readFrom_token (t := .colon) rfl rfl rfl, readFrom_spaces hw']

lemma delimited_of_spaces {ws : List Char} (hw : Spaces ws) {c : Char}
    (hc : c.isDigit = false ∧ c ≠ '.' ∧ c ≠ 'e' ∧ c ≠ 'E') : Delimited (ws ++ c :: rest) := by
  intro b hb
  cases ws with
  | nil =>
    obtain rfl : c = b := by simpa using hb
    exact hc
  | cons a ws =>
    obtain rfl : a = b := by simpa using hb
    have ha := hw a (by simp)
    simp only [isSpace, Bool.or_eq_true, decide_eq_true_eq] at ha
    obtain ((rfl | rfl) | rfl) | rfl := ha <;> decide

/-- A member that was read. -/
def named (m : String × Json) : Option String × Json := (some m.1, m.2)

lemma closeObject_named (done : Members) : closeObject (done.map named) = .object done.reverse := by
  have h : ∀ ms : Members, namedMembers? (ms.map named) = some ms := by
    intro ms
    induction ms with
    | nil => rfl
    | cons m ms ih => simp [namedMembers?, named, ih]
  rw [closeObject, ← List.map_reverse, h]

/-- Where the reader is behind a text of a part, if it came to the text at a place for such a part
with room for the containers in it. -/
def Continues (d : Dialect) (n : Nat) (part : Part) (cs : List Char) : Prop :=
  match part with
  | .value j => ∀ r stack rest, Awaits r stack → stack.length + n ≤ depthLimit → Delimited rest →
    readFrom d r (cs ++ rest) = readFrom d (.put j stack) rest
  | .elements js => ∀ done stack rest, stack.length + 1 + n ≤ depthLimit →
    readFrom d (.elements done stack) (cs ++ rest) =
      readFrom d (.put (.array (done.reverse ++ js)) stack) rest
  | .members ms => ∀ (done : Members) stack rest, stack.length + 1 + n ≤ depthLimit →
    readFrom d (.members (done.map named) stack) (cs ++ rest) =
      readFrom d (.put (.object (done.reverse ++ ms)) stack) rest

lemma Written.delimited {part : Part} (h : Written n part cs) (hp : ∀ j, part ≠ .value j)
    (rest : List Char) : Delimited (cs ++ rest) := by
  cases h with
  | lastElement hw | lastMember hw | nextElement hw | nextMember hw =>
    rw [List.append_assoc]
    exact delimited_of_spaces hw (by decide)
  | _ => exact absurd rfl (hp _)

lemma readFrom_first (h : Awaits r stack) {c : Char} {t : Token} {r' : Reading}
    (hc : isSpace c = false) (hscan : scanToken d.strict c cs = .token t rest)
    (ht : t ≠ .closeArray)
    (hbegin : ∀ start, Reading.beginValue d.strict stack ⟨t, start, rest⟩ = .ok r') :
    readFrom d r (c :: cs) = readFrom d r' rest := by
  refine readFrom_token hc hscan ?_
  rw [step_of_awaits h ht]
  exact hbegin _

lemma readFrom_open (h : Awaits r stack) (hroom : stack.length < depthLimit)
    (cs : List Char) :
    readFrom d r ('[' :: cs) = readFrom d (.arrayStart stack) cs ∧
      readFrom d r ('{' :: cs) = readFrom d (.objectStart stack) cs := by
  have hopen : mayOpen d.strict stack = true := by simp [mayOpen, hroom]
  constructor
  · refine readFrom_first h (t := .openArray) rfl rfl nofun fun start => ?_
    simp [Reading.beginValue, hopen]
  · refine readFrom_first h (t := .openObject) rfl rfl nofun fun start => ?_
    simp [Reading.beginValue, hopen]

/-- By induction on the text, reading goes on behind each part of it. -/
lemma continues_of_written (d : Dialect) {part : Part} (h : Written n part cs) :
    Continues d n part cs := by
  induction h with
  | null => exact fun r stack rest h _ _ => readFrom_first h rfl rfl nofun fun _ => rfl
  | true => exact fun r stack rest h _ _ => readFrom_first h rfl rfl nofun fun _ => rfl
  | false => exact fun r stack rest h _ _ => readFrom_first h rfl rfl nofun fun _ => rfl
  | @number n m cs hliteral hm =>
    intro r stack rest h _ hrest
    obtain ⟨c, cs, rfl, hc⟩ := hliteral.exists_cons
    refine readFrom_first h hc (scanToken_of_literal d.strict hliteral hrest) nofun fun start => ?_
    simp [Reading.beginValue, Placed.scalar, hm, Except.map]
  | @string n s body hbody =>
    intro r stack rest h _ _
    rw [List.cons_append, List.append_assoc]
    refine readFrom_string hbody (fun start rest => ?_) rest
    exact step_of_awaits (t := ⟨.string (some s), start, rest⟩) h nofun
  | @emptyArray n ws hw =>
    intro r stack rest h hroom _
    rw [List.cons_append, (readFrom_open h (by omega) _).1, List.append_assoc,
      readFrom_spaces hw]
    exact readFrom_token (t := .closeArray) rfl rfl rfl
  | @array n ws j js cs cs' hw _ hjs ihj ihjs =>
    intro r stack rest h hroom _
    rw [List.cons_append, (readFrom_open h (by omega) _).1, List.append_assoc,
      readFrom_spaces hw, List.append_assoc,
      ihj _ _ _ (.arrayStart stack) (by simp; omega) (hjs.delimited nofun rest)]
    exact ihjs [j] stack rest (by omega)
  | @lastElement n ws hw =>
    intro done stack rest _
    rw [List.append_assoc, readFrom_spaces hw, List.append_nil]
    exact readFrom_token (t := .closeArray) rfl rfl rfl
  | @nextElement n ws ws' j js cs cs' hw hw' _ hjs ihj ihjs =>
    intro done stack rest hroom
    have hcomma : ∀ cs, readFrom d (.elements done stack) (',' :: cs) =
        readFrom d (.value (.array done :: stack)) cs :=
      fun cs => readFrom_token (t := .comma) rfl rfl rfl
    rw [List.append_assoc, readFrom_spaces hw, List.cons_append, hcomma, List.append_assoc,
      readFrom_spaces hw', List.append_assoc,
      ihj _ _ _ (.value _) (by simp; omega) (hjs.delimited nofun rest)]
    exact (ihjs (j :: done) stack rest hroom).trans (by simp)
  | @emptyObject n ws hw =>
    intro r stack rest h hroom _
    rw [List.cons_append, (readFrom_open h (by omega) _).2, List.append_assoc,
      readFrom_spaces hw]
    exact readFrom_token (t := .closeObject) rfl rfl rfl
  | @object n ws key j ms name cs cs' hw hname hkey _ hms ihj ihms =>
    intro r stack rest h hroom _
    have hstep : ∀ start rest, (Reading.objectStart stack).step d
        ⟨.string (some key), start, rest⟩ = .ok (.colon [] (some key) stack) :=
      fun _ _ => by simp [Reading.step, hkey]
    rw [List.cons_append, (readFrom_open h (by omega) _).2, List.append_assoc,
      readFrom_spaces hw, List.append_assoc, readFrom_name hname hstep, List.append_assoc,
      ihj _ _ _ (.value _) (by simp; omega) (hms.delimited nofun rest)]
    exact ihms [(key, j)] stack rest (by omega)
  | @lastMember n ws hw =>
    intro done stack rest _
    rw [List.append_assoc, readFrom_spaces hw, List.append_nil, ← closeObject_named]
    exact readFrom_token (t := .closeObject) rfl rfl rfl
  | @nextMember n ws ws' key j ms name cs cs' hw hw' hname _ hms ihj ihms =>
    intro done stack rest hroom
    have hcomma : ∀ cs, readFrom d (.members (done.map named) stack) (',' :: cs) =
        readFrom d (.name (done.map named) stack) cs :=
      fun cs => readFrom_token (t := .comma) rfl rfl rfl
    rw [List.append_assoc, readFrom_spaces hw, List.cons_append, hcomma, List.append_assoc,
      readFrom_spaces hw', List.append_assoc, readFrom_name hname (fun _ _ => rfl),
      List.append_assoc, ihj _ _ _ (.value _) (by simp; omega) (hms.delimited nofun rest)]
    exact (ihms ((key, j) :: done) stack rest hroom).trans (by simp)

/-- A reader gets from a written value that value, whether or not it reads embedded texts. -/
lemma parseChars_of_written (d : Dialect) {j : Json} (h : Written depthLimit (.value j) cs) :
    parseChars d cs = .ok j := by
  have hcontinues := continues_of_written d h _ [] [] (.value []) (by simp) nofun
  rw [List.append_nil] at hcontinues
  have hend : readFrom d (.put j []) [] = .ok j := by
    rw [readFrom, tokens]
    rfl
  calc parseChars d cs = (readFrom d (.value []) cs).mapError (Stop.fault cs) := rfl
    _ = .ok j := by rw [hcontinues, hend]; rfl

lemma parseNested_of_written {j : Json} (h : Written depthLimit (.value j) cs) (depth : Nat) :
    parseNested depth (String.ofList cs) = .ok j := by
  cases depth with
  | zero => rw [parseNested, parse, String.toList_ofList, parseChars_of_written _ h]
  | succ depth => rw [parseNested, String.toList_ofList, parseChars_of_written _ h]

lemma parseEmbedding_of_written {j : Json} (h : Written depthLimit (.value j) cs) :
    parseEmbedding (String.ofList cs) = .ok j := parseNested_of_written h _

end Grammar

end ReviewStream.Json
