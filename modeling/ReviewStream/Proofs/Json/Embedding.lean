import Mathlib.Data.List.Forall2
import ReviewStream.Proofs.Json.Moves
import ReviewStream.Proofs.Json.Printed

/-!
# Embedded texts

A reader that takes embedded texts accepts no other texts than one that does not, and gets the same
value wherever no object has the name of an embedded text in front.
-/

namespace ReviewStream.Json

section Marks

mutual

/-- Whether some object in a value has the name of an embedded text in front. -/
def embeds : Json → Bool
  | .array js => embedsElements js
  | .object ms => ms.head?.map Prod.fst = some embeddingName || embedsMembers ms
  | _ => false

def embedsElements : List Json → Bool
  | [] => false
  | j :: js => embeds j || embedsElements js

def embedsMembers : List (String × Json) → Bool
  | [] => false
  | (_, j) :: ms => embeds j || embedsMembers ms

end

lemma embedsElements_eq (js : List Json) : embedsElements js = js.any embeds := by
  induction js with
  | nil => rfl
  | cons j js ih => rw [embedsElements, ih, List.any_cons]

lemma embedsMembers_eq (ms : Members) : embedsMembers ms = ms.any fun m => embeds m.2 := by
  induction ms with
  | nil => rfl
  | cons m ms ih => rw [embedsMembers, ih, List.any_cons]

/-- The same of the members that an unfinished object has so far, the latest first. -/
def embedsDone (done : List (Option String × Json)) : Bool :=
  done.getLast?.map Prod.fst = some (some embeddingName) || done.any fun m => embeds m.2

def Frame.embeds : Frame → Bool
  | .array done => done.any Json.embeds
  | .object done key => embedsDone ((key, .null) :: done)

/-- Whether what was read so far has such an object in it. -/
def Reading.embeds : Reading → Bool
  | .value stack | .arrayStart stack | .objectStart stack | .embeddingColon stack
  | .embeddedText stack | .embeddingEnd _ stack => stack.any Frame.embeds
  | .name done stack | .members done stack => embedsDone done || stack.any Frame.embeds
  | .colon done key stack => embedsDone ((key, .null) :: done) || stack.any Frame.embeds
  | .elements done stack => done.any Json.embeds || stack.any Frame.embeds
  | .finished j => j.embeds

def Frame.named : Frame → Bool
  | .array _ => true
  | .object done key => key.isSome && done.all (·.1.isSome)

/-- Whether all names that were read so far have a text, and no embedded text is being read. -/
def Reading.named : Reading → Bool
  | .value stack | .arrayStart stack | .objectStart stack | .elements _ stack =>
    stack.all Frame.named
  | .name done stack | .members done stack => done.all (·.1.isSome) && stack.all Frame.named
  | .colon done key stack => key.isSome && done.all (·.1.isSome) && stack.all Frame.named
  | .finished _ => true
  | .embeddingColon _ | .embeddedText _ | .embeddingEnd _ _ => false

variable {d : Dialect} {r r' : Reading} {t : Placed} {j : Json} {stack : List Frame}
  {done : List (Option String × Json)} {key : Option String}

lemma embedsDone_cons : embedsDone ((key, j) :: done) =
    (j.embeds || embedsDone ((key, .null) :: done)) := by
  have hlast : (((key, j) :: done).getLast?.map Prod.fst) =
      ((key, .null) :: done).getLast?.map Prod.fst := by
    cases done <;> simp [List.getLast?_cons]
  have hnull : Json.null.embeds = false := by simp [embeds]
  rw [embedsDone, embedsDone, hlast, List.any_cons, List.any_cons, hnull]
  cases j.embeds <;> simp

lemma embedsDone_cons_of (h : embedsDone done = true) :
    embedsDone ((key, j) :: done) = true := by
  rw [embedsDone, Bool.or_eq_true] at h ⊢
  obtain h | h := h
  · left
    cases done with
    | nil => simp at h
    | cons => simpa [List.getLast?_cons] using h
  · right
    rw [List.any_cons, h, Bool.or_true]

lemma embeds_put : (Reading.put j stack).embeds = (j.embeds || stack.any Frame.embeds) := by
  match stack with
  | [] => simp [Reading.put, Reading.embeds]
  | .array done :: stack => simp [Reading.put, Reading.embeds, Frame.embeds, Bool.or_assoc]
  | .object done key :: stack =>
    rw [Reading.put, Reading.embeds, embedsDone_cons, List.any_cons, Frame.embeds, Bool.or_assoc]

lemma named_put : (Reading.put j stack).named = stack.all Frame.named := by
  match stack with
  | [] => rfl
  | .array done :: stack => simp [Reading.put, Reading.named, Frame.named]
  | .object done key :: stack => simp [Reading.put, Reading.named, Frame.named]

lemma namedMembers?_eq_some (h : done.all (·.1.isSome) = true) : ∃ ms : Members,
    namedMembers? done = some ms ∧ done = ms.map fun m => (some m.1, m.2) := by
  induction done with
  | nil => exact ⟨[], rfl, rfl⟩
  | cons m done ih =>
    obtain ⟨_ | key, j⟩ := m
    · simp at h
    · obtain ⟨ms, hms, rfl⟩ := ih (by simpa using h)
      refine ⟨(key, j) :: ms, ?_, rfl⟩
      rw [namedMembers?, hms]
      rfl

lemma embeds_closeObject (h : done.all (·.1.isSome) = true) :
    (closeObject done).embeds = embedsDone done := by
  have hnamed : done.reverse.all (·.1.isSome) = true := by rwa [List.all_reverse]
  obtain ⟨ms, hms, hdone⟩ := namedMembers?_eq_some hnamed
  have hdone : done = (ms.map fun m => (some m.1, m.2)).reverse := by
    rw [← hdone, List.reverse_reverse]
  rw [closeObject, hms]
  rw [embeds, embedsMembers_eq, embedsDone, hdone, List.getLast?_reverse, List.any_reverse]
  cases ms <;> simp [Function.comp_def]

lemma embeds_of_awaits (h : Awaits r stack) : r.embeds = stack.any Frame.embeds := by
  cases h with
  | value => rfl
  | arrayStart => simp [Reading.embeds, Frame.embeds]

lemma named_of_awaits (h : Awaits r stack) : r.named = stack.all Frame.named := by
  cases h with
  | value => rfl
  | arrayStart => simp [Reading.named, Frame.named]

lemma named_of_moves (h : Moves d r t r') (hd : d.embedded? = none) (ht : t.token ≠ .string none)
    (hn : r.named = true) : r'.named = true := by
  cases h with
  | scalar ha hj => rwa [named_put, ← named_of_awaits ha]
  | openArray _ ha | openObject _ ha => rwa [Reading.named, ← named_of_awaits ha]
  | emptyArray | emptyObject | lastElement => rwa [named_put]
  | lastMember =>
    simp only [Reading.named, Bool.and_eq_true] at hn
    rw [named_put, hn.2]
  | @firstName _ _ key htoken | @name _ _ _ key htoken =>
    cases key with
    | none => exact absurd htoken ht
    | some key => simpa [Reading.named] using hn
  | embeddingName _ h => simp [hd] at h
  | colon => simpa [Reading.named, Frame.named] using hn
  | nextElement => simpa [Reading.named, Frame.named] using hn
  | nextMember => exact hn
  | embeddingColon | embeddedText | embeddingEnd => cases hn

lemma embeds_of_moves (h : Moves d r t r') (hd : d.embedded? = none) (hn : r.named = true)
    (he : r.embeds = true) : r'.embeds = true := by
  cases h with
  | scalar ha hj => rw [embeds_put, ← embeds_of_awaits ha, he, Bool.or_true]
  | openArray _ ha | openObject _ ha => rwa [Reading.embeds, ← embeds_of_awaits ha]
  | emptyArray | emptyObject =>
    rw [Reading.embeds] at he
    rw [embeds_put, he, Bool.or_true]
  | lastElement =>
    rw [Reading.embeds] at he
    rw [embeds_put, embeds, embedsElements_eq, List.any_reverse, he]
  | lastMember =>
    simp only [Reading.named, Bool.and_eq_true] at hn
    rw [Reading.embeds] at he
    rw [embeds_put, embeds_closeObject hn.1, he]
  | firstName =>
    rw [Reading.embeds] at he
    rw [Reading.embeds, he, Bool.or_true]
  | name =>
    simp only [Reading.embeds, Bool.or_eq_true] at he ⊢
    exact he.imp_left embedsDone_cons_of
  | embeddingName _ h => simp [hd] at h
  | colon => simpa [Reading.embeds, Frame.embeds] using he
  | nextElement => simpa [Reading.embeds, Frame.embeds] using he
  | nextMember => exact he
  | embeddingColon | embeddedText | embeddingEnd => cases hn

end Marks

section Runs

variable {ending : Ending} {ts : List Placed} {r r' : Reading} {t : Placed} {j : Json}

lemma embeds_of_run {d : Dialect} (hd : d.embedded? = none)
    (hts : ∀ t ∈ ts, t.token ≠ .string none) (hn : r.named = true) (he : r.embeds = true)
    (h : r.run d ending ts = .ok j) : j.embeds = true := by
  induction ts generalizing r with
  | nil =>
    obtain ⟨rfl, -⟩ := close_eq_ok_iff.mp h
    exact he
  | cons t ts ih =>
    obtain ⟨r', hm, hrun⟩ := run_cons_eq_ok_iff.mp h
    have ht := hts t (by simp)
    exact ih (fun u hu => hts u (by simp [hu])) (named_of_moves hm hd ht hn)
      (embeds_of_moves hm hd hn he) hrun

/-- A reader that takes embedded texts makes the same move, unless a name announces such a text. -/
lemma moves_of_plain {strict : Bool} (read : String → Except Fault Json)
    (h : Moves ⟨strict, none⟩ r t r') (hn : r.named = true) :
    r'.embeds = true ∨ Moves ⟨strict, some read⟩ r t r' := by
  cases h with
  | @firstName stack _ key ht =>
    by_cases hkey : key = some embeddingName
    · subst hkey
      exact .inl (by simp [Reading.embeds, embedsDone])
    · exact .inr (.firstName ht (by simp [hkey]))
  | embeddingName _ h => cases h
  | embeddingColon | embeddedText | embeddingEnd => cases hn
  | scalar ha hj => exact .inr (.scalar ha hj)
  | openArray ht ha hopen => exact .inr (.openArray ht ha hopen)
  | openObject ht ha hopen => exact .inr (.openObject ht ha hopen)
  | emptyArray ht => exact .inr (.emptyArray ht)
  | emptyObject ht => exact .inr (.emptyObject ht)
  | name ht => exact .inr (.name ht)
  | colon ht => exact .inr (.colon ht)
  | nextElement ht => exact .inr (.nextElement ht)
  | lastElement ht => exact .inr (.lastElement ht)
  | nextMember ht => exact .inr (.nextMember ht)
  | lastMember ht => exact .inr (.lastMember ht)

lemma run_of_plain {strict : Bool} (read : String → Except Fault Json)
    (hts : ∀ t ∈ ts, t.token ≠ .string none) (hn : r.named = true)
    (h : r.run ⟨strict, none⟩ ending ts = .ok j) :
    j.embeds = true ∨ r.run ⟨strict, some read⟩ ending ts = .ok j := by
  induction ts generalizing r with
  | nil => exact .inr h
  | cons t ts ih =>
    obtain ⟨r', hm, hrun⟩ := run_cons_eq_ok_iff.mp h
    have hts' : ∀ u ∈ ts, u.token ≠ .string none := fun u hu => hts u (by simp [hu])
    have hn' : r'.named = true := named_of_moves hm rfl (hts t (by simp)) hn
    obtain he | hm' := moves_of_plain read hm hn
    · exact .inl (embeds_of_run rfl hts' hn' he hrun)
    · exact (ih hts' hn' hrun).imp_right fun hrun' => run_cons_eq_ok_iff.mpr ⟨r', hm', hrun'⟩

end Runs

section Shapes

/-- Containers that differ at most in the values read so far. -/
inductive Frame.Alike : Frame → Frame → Prop where
  | array (done done') : Alike (.array done) (.array done')
  | object {done done'} (h : done.map Prod.fst = done'.map Prod.fst) (key) :
      Alike (.object done key) (.object done' key)

abbrev StacksAlike (stack stack' : List Frame) : Prop := List.Forall₂ Frame.Alike stack stack'

/-- A value is an object if another one is. -/
def ObjectIf (j j' : Json) : Prop := ∀ ms', j' = .object ms' → ∃ ms, j = .object ms

lemma objectIf_array (js js' : List Json) : ObjectIf (.array js) (.array js') := nofun

/-- What a reader without embedded texts has read where one with them stands. It takes the name and
the text of an embedding for a member. -/
inductive Reading.Alike : Reading → Reading → Prop where
  | value {stack stack'} (hs : StacksAlike stack stack') : Alike (.value stack) (.value stack')
  | arrayStart {stack stack'} (hs : StacksAlike stack stack') :
      Alike (.arrayStart stack) (.arrayStart stack')
  | objectStart {stack stack'} (hs : StacksAlike stack stack') :
      Alike (.objectStart stack) (.objectStart stack')
  | name {done done' stack stack'} (h : done.map Prod.fst = done'.map Prod.fst)
      (hs : StacksAlike stack stack') : Alike (.name done stack) (.name done' stack')
  | colon {done done' key stack stack'} (h : done.map Prod.fst = done'.map Prod.fst)
      (hs : StacksAlike stack stack') : Alike (.colon done key stack) (.colon done' key stack')
  | elements {done done' stack stack'} (hs : StacksAlike stack stack') :
      Alike (.elements done stack) (.elements done' stack')
  | members {done done' stack stack'} (h : done.map Prod.fst = done'.map Prod.fst)
      (hs : StacksAlike stack stack') : Alike (.members done stack) (.members done' stack')
  | embeddingColon {stack stack'} (hs : StacksAlike stack stack') :
      Alike (.colon [] (some embeddingName) stack) (.embeddingColon stack')
  | embeddedText {stack stack'} (hs : StacksAlike stack stack') :
      Alike (.value (.object [] (some embeddingName) :: stack)) (.embeddedText stack')
  | embeddingEnd {j j' stack stack'} (hs : StacksAlike stack stack') :
      Alike (.members [(some embeddingName, j)] stack) (.embeddingEnd j' stack')
  | finished {j j'} (h : ObjectIf j j') : Alike (.finished j) (.finished j')

variable {r r' r₁' : Reading} {t : Placed} {j j' : Json} {stack stack' : List Frame}
  {done done' : List (Option String × Json)} {strict : Bool}
  {read : String → Except Fault Json} {ending : Ending} {ts : List Placed}

lemma alike_put (hs : StacksAlike stack stack') (h : ObjectIf j j') :
    (Reading.put j stack).Alike (.put j' stack') := by
  cases hs with
  | nil => exact .finished h
  | cons hf hs =>
    cases hf with
    | array => exact .elements hs
    | object hkeys key => exact .members (by simp [hkeys]) hs

lemma awaits_of_alike (h : r.Alike r') (ha : Awaits r' stack') :
    ∃ stack, Awaits r stack ∧ StacksAlike stack stack' := by
  cases ha with
  | value =>
    cases h with
    | value hs => exact ⟨_, .value _, hs⟩
  | arrayStart =>
    cases h with
    | arrayStart hs => exact ⟨_, .arrayStart _, .cons (.array _ _) hs⟩

lemma mayOpen_of_alike (hs : StacksAlike stack stack') :
    mayOpen strict stack = mayOpen strict stack' := by
  rw [mayOpen, mayOpen, hs.length_eq]

lemma namedMembers?_isSome (h : done.map Prod.fst = done'.map Prod.fst) :
    (namedMembers? done).isSome = (namedMembers? done').isSome := by
  induction done generalizing done' with
  | nil =>
    cases done' with
    | nil => rfl
    | cons => simp at h
  | cons m done ih =>
    cases done' with
    | nil => simp at h
    | cons m' done' =>
      simp only [List.map_cons, List.cons.injEq] at h
      have hrest := ih h.2
      obtain ⟨key, j⟩ := m
      obtain ⟨_, j'⟩ := m'
      obtain rfl : key = _ := h.1
      cases key <;> cases hd : namedMembers? done <;> cases hd' : namedMembers? done' <;>
        simp_all [namedMembers?]

lemma objectIf_closeObject (h : done.map Prod.fst = done'.map Prod.fst) :
    ObjectIf (closeObject done) (closeObject done') := by
  intro ms' hms'
  have hsome : (namedMembers? done.reverse).isSome = (namedMembers? done'.reverse).isSome :=
    namedMembers?_isSome (by simp [h])
  unfold closeObject at hms' ⊢
  cases hd : namedMembers? done'.reverse with
  | none => simp [hd] at hms'
  | some _ =>
    rw [hd, Option.isSome_some] at hsome
    obtain ⟨ms, hms⟩ := Option.isSome_iff_exists.mp hsome
    exact ⟨ms, by rw [hms]⟩

lemma moves_of_alike (ha : r.Alike r') (h : Moves ⟨strict, some read⟩ r' t r₁') :
    ∃ r₁, Moves ⟨strict, none⟩ r t r₁ ∧ r₁.Alike r₁' := by
  cases h with
  | scalar hw hj =>
    obtain ⟨stack, hw, hs⟩ := awaits_of_alike ha hw
    exact ⟨_, .scalar hw hj, alike_put hs fun ms h => ⟨ms, h⟩⟩
  | openArray ht hw hopen =>
    obtain ⟨stack, hw, hs⟩ := awaits_of_alike ha hw
    exact ⟨_, .openArray ht hw ((mayOpen_of_alike hs).trans hopen), .arrayStart hs⟩
  | openObject ht hw hopen =>
    obtain ⟨stack, hw, hs⟩ := awaits_of_alike ha hw
    exact ⟨_, .openObject ht hw ((mayOpen_of_alike hs).trans hopen), .objectStart hs⟩
  | emptyArray ht =>
    cases ha with
    | arrayStart hs => exact ⟨_, .emptyArray ht, alike_put hs fun ms h => ⟨ms, h⟩⟩
  | emptyObject ht =>
    cases ha with
    | objectStart hs => exact ⟨_, .emptyObject ht, alike_put hs fun ms h => ⟨ms, h⟩⟩
  | firstName ht =>
    cases ha with
    | objectStart hs => exact ⟨_, .firstName ht rfl, .colon rfl hs⟩
  | embeddingName ht =>
    cases ha with
    | objectStart hs => exact ⟨_, .firstName ht rfl, .embeddingColon hs⟩
  | name ht =>
    cases ha with
    | name hkeys hs => exact ⟨_, .name ht, .colon hkeys hs⟩
  | colon ht =>
    cases ha with
    | colon hkeys hs => exact ⟨_, .colon ht, .value (.cons (.object hkeys _) hs)⟩
  | embeddingColon ht =>
    cases ha with
    | embeddingColon hs => exact ⟨_, .colon ht, .embeddedText hs⟩
  | @embeddedText _ _ s _ _ ht =>
    cases ha with
    | embeddedText hs =>
      have hscalar : t.scalar strict = .ok (.string s) := by simp [Placed.scalar, ht]
      exact ⟨_, .scalar (.value _) hscalar, .embeddingEnd hs⟩
  | embeddingEnd ht =>
    cases ha with
    | embeddingEnd hs => exact ⟨_, .lastMember ht, alike_put hs fun _ _ => ⟨_, rfl⟩⟩
  | nextElement ht =>
    cases ha with
    | elements hs => exact ⟨_, .nextElement ht, .value (.cons (.array _ _) hs)⟩
  | lastElement ht =>
    cases ha with
    | elements hs => exact ⟨_, .lastElement ht, alike_put hs (objectIf_array _ _)⟩
  | nextMember ht =>
    cases ha with
    | members hkeys hs => exact ⟨_, .nextMember ht, .name hkeys hs⟩
  | lastMember ht =>
    cases ha with
    | members hkeys hs => exact ⟨_, .lastMember ht, alike_put hs (objectIf_closeObject hkeys)⟩

lemma run_of_alike (ha : r.Alike r') (h : r'.run ⟨strict, some read⟩ ending ts = .ok j') :
    ∃ j, r.run ⟨strict, none⟩ ending ts = .ok j ∧ ObjectIf j j' := by
  induction ts generalizing r r' with
  | nil =>
    obtain ⟨rfl, rfl⟩ := close_eq_ok_iff.mp h
    cases ha with
    | finished hj => exact ⟨_, rfl, hj⟩
  | cons t ts ih =>
    obtain ⟨r₁', hm', hrun'⟩ := run_cons_eq_ok_iff.mp h
    obtain ⟨r₁, hm, ha⟩ := moves_of_alike ha hm'
    obtain ⟨j, hrun, hj⟩ := ih ha hrun'
    exact ⟨j, run_cons_eq_ok_iff.mpr ⟨r₁, hm, hrun⟩, hj⟩

end Shapes

section Texts

variable {cs : List Char}

/-- Whether a token, if it is a string, has a text. -/
def Lexeme.hasText : Lexeme → Bool
  | .token (.string none) _ => false
  | _ => true

lemma hasText_scanString {draft : Draft} (hd : draft.text?.isSome = true) :
    (scanString true draft cs).hasText = true := by
  have hpush : ∀ (draft : Draft) (c : Char), ¬ draft.waits true = true →
      draft.text?.isSome = true → (draft.push c).text?.isSome = true := by
    rintro ⟨text?, _ | half⟩ c hwaits hd
    · simpa [Draft.push] using hd
    · exact absurd rfl hwaits
  fun_induction scanString true draft cs with
  | case4 _ _ _ _ _ _ _ _ _ htext ih =>
    refine ih ?_
    simpa [Option.isSome_iff_ne_none] using htext
  | case8 draft _ _ _ _ hwaits e _ ih => exact ih (hpush draft e hwaits hd)
  | case13 draft c _ _ _ _ _ hwaits _ _ ih => exact ih (hpush draft c hwaits hd)
  | case11 draft _ hwaits =>
    obtain ⟨_ | text, _ | half⟩ := draft
    · cases hd
    · cases hd
    · rfl
    · exact absurd rfl hwaits
  | _ => rfl

lemma hasText_scanNumber (negative : Bool) : (scanNumber negative cs).hasText = true := by
  have hdigits : ∀ n negative cs, (scanExponentDigits n negative cs).hasText = true := by
    intro n negative cs
    unfold scanExponentDigits
    split <;> rfl
  have hexponent : ∀ n cs, (scanExponent n cs).hasText = true := by
    intro n cs
    unfold scanExponent
    split
    all_goals first | exact hdigits _ _ _ | rfl
  have hfraction : ∀ n cs, (scanFraction n cs).hasText = true := by
    intro n cs
    unfold scanFraction
    split
    · split
      · rfl
      · exact hexponent _ _
    · exact hexponent _ _
  unfold scanNumber
  split
  · rfl
  · rfl
  · exact hfraction _ _

lemma hasText_scanKeyword {t : Token} (ht : t ≠ .string none) (ks : List Char) :
    (scanKeyword t ks cs).hasText = true := by
  fun_induction scanKeyword t ks cs with
  | case1 =>
    unfold Lexeme.hasText
    split <;> simp_all
  | case3 _ _ _ ih => exact ih
  | _ => rfl

lemma hasText_scanToken (c : Char) : (scanToken true c cs).hasText = true := by
  unfold scanToken
  split
  case h_7 => exact hasText_scanString rfl
  case h_8 | h_9 | h_10 => exact hasText_scanKeyword (by simp) _
  case h_11 => exact hasText_scanNumber true
  case h_12 =>
    split
    · exact hasText_scanNumber false
    · rfl
  all_goals rfl

lemma ne_of_mem_tokens : ∀ t ∈ (tokens true cs).1, t.token ≠ .string none := by
  fun_induction tokens true cs with
  | case1 | case2 => simp
  | case3 cs c rest _ t rest' hscan _ ts ending htokens ih =>
    have ht : (scanToken true c rest).hasText = true := hasText_scanToken c
    rw [hscan] at ht
    refine List.forall_mem_cons.mpr ⟨?_, by simpa [htokens] using ih⟩
    rintro rfl
    cases ht

end Texts

section Readers

variable {s : String} {j : Json}

/-- What is read with embedded texts is read without them as well. -/
theorem parse_of_parseEmbedding (h : parseEmbedding s = .ok j) :
    ∃ j₀, parse s = .ok j₀ ∧ ObjectIf j₀ j := by
  unfold parseEmbedding at h
  cases hlen : s.length with
  | zero =>
    rw [hlen] at h
    exact ⟨j, h, fun ms hms => ⟨ms, hms⟩⟩
  | succ depth =>
    rw [hlen] at h
    obtain ⟨j₀, hrun, hj₀⟩ := run_of_alike (.value .nil) (parseChars_eq_ok_iff.mp h)
    exact ⟨j₀, parseChars_eq_ok_iff.mpr hrun, hj₀⟩

/-- Without objects that have the name of an embedded text in front both readings are the same. -/
theorem parseEmbedding_of_parse (h : parse s = .ok j) (hj : j.embeds = false) :
    parseEmbedding s = .ok j := by
  unfold parseEmbedding
  cases s.length with
  | zero => exact h
  | succ depth =>
    obtain hembeds | hrun :=
      run_of_plain (parseNested depth) ne_of_mem_tokens rfl (parseChars_eq_ok_iff.mp h)
    · rw [hj] at hembeds
      cases hembeds
    · exact parseChars_eq_ok_iff.mpr hrun

end Readers

section Embedded

/-- The object that embeds a text. -/
def embedding (s : String) : Json := .object [(embeddingName, .string s)]

variable {d : Dialect} {s : String} {r : Reading} {j : Json}

lemma renderChars_embedding (s : String) : renderChars (embedding s) =
    '{' :: (renderText embeddingName ++ ':' :: (renderText s ++ ['}'])) := by
  simp [embedding, renderChars, renderMembers]

lemma readFrom_renderText (r' : Reading) {key : String}
    (hstep : ∀ start rest, r.step d ⟨.string (some key), start, rest⟩ = .ok r') (cs : List Char) :
    readFrom d r (renderText key ++ cs) = readFrom d r' cs := by
  have hread := readFrom_string (spells_flatMap_escape key.toList) hstep cs
  simpa [renderText] using hread

lemma parseChars_of_readFrom {cs : List Char}
    (h : readFrom d (.value []) cs = readFrom d (.finished j) []) : parseChars d cs = .ok j := by
  refine parseChars_eq_ok_iff.mpr (h.trans ?_)
  rw [readFrom, tokens]
  rfl

lemma parse_embedding (s : String) : parse (embedding s).render = .ok (embedding s) := by
  rw [parse, render, String.toList_ofList, renderChars_embedding]
  refine parseChars_of_readFrom ?_
  rw [(readFrom_open (.value []) (by decide) _).2,
    readFrom_renderText (.colon [] (some embeddingName) []) fun _ _ => rfl,
    readFrom_token (t := .colon) rfl rfl rfl,
    readFrom_renderText (.members [(some embeddingName, .string s)] []) fun _ _ => rfl]
  exact readFrom_token (t := .closeObject) rfl rfl rfl

lemma parseEmbedding_embedding (h : ∀ depth, parseNested depth s = .ok j) :
    parseEmbedding (embedding s).render = .ok j := by
  have hlength : (embedding s).render.length ≠ 0 := by
    rw [render, ← String.length_toList, String.toList_ofList, renderChars_embedding]
    simp
  obtain ⟨depth, hdepth⟩ := Nat.exists_eq_succ_of_ne_zero hlength
  rw [parseEmbedding, hdepth, parseNested, render, String.toList_ofList, renderChars_embedding]
  refine parseChars_of_readFrom ?_
  rw [(readFrom_open (.value []) (by decide) _).2,
    readFrom_renderText (.embeddingColon []) fun _ _ => rfl,
    readFrom_token (t := .colon) rfl rfl rfl,
    readFrom_renderText (.embeddingEnd j []) fun _ _ => by
      simp [Reading.step, Reading.embed, h]]
  exact readFrom_token (t := .closeObject) rfl rfl rfl

end Embedded

end ReviewStream.Json
