import Mathlib.Tactic.Lemma
import ReviewStream.Proofs.Connection.Step
import ReviewStream.Proofs.Text.Basic

/-!
# Lines of a session

The reader of a session takes its stream line by line. What it posts are the pieces between newlines
that are text and not blank, in their order and each once: all of them if the session goes on to the
end of the stream, and the first ones of them if it is cut before.
-/

namespace ReviewStream.Connection

section Cutting

variable {bytes line rest : List UInt8}

lemma newline_notMem_takeWhile (bytes : List UInt8) :
    newline ∉ bytes.takeWhile (· ≠ newline) := by
  intro h
  simpa using List.mem_takeWhile_imp h

lemma cutLine?_eq_none_iff : cutLine? bytes = none ↔ newline ∉ bytes := by
  unfold cutLine?
  constructor
  · intro h hmem
    split at h
    · rename_i hd
      simpa using List.dropWhile_eq_nil_iff.mp hd newline hmem
    · cases h
  · intro h
    have hd : bytes.dropWhile (· ≠ newline) = [] := by
      refine List.dropWhile_eq_nil_iff.mpr fun b hb => ?_
      simpa using fun he : b = newline => h (he ▸ hb)
    rw [hd]

lemma cutLine?_eq_some_iff :
    cutLine? bytes = some (line, rest) ↔ bytes = line ++ newline :: rest ∧ newline ∉ line := by
  unfold cutLine?
  constructor
  · intro h
    split at h
    · cases h
    · rename_i b rest' hd
      simp only [Option.some.injEq, Prod.mk.injEq] at h
      obtain ⟨rfl, rfl⟩ := h
      have hne : bytes.dropWhile (· ≠ newline) ≠ [] := hd ▸ List.cons_ne_nil b rest'
      have hb := List.head_dropWhile_not (fun b => decide (b ≠ newline)) hne
      simp only [hd, List.head_cons, decide_eq_false_iff_not, not_not] at hb
      refine ⟨?_, newline_notMem_takeWhile bytes⟩
      calc bytes = bytes.takeWhile (· ≠ newline) ++ bytes.dropWhile (· ≠ newline) :=
            List.takeWhile_append_dropWhile.symm
        _ = bytes.takeWhile (· ≠ newline) ++ newline :: rest' := by rw [hd, hb]
  · rintro ⟨rfl, h⟩
    have hline : ∀ b ∈ line, decide (b ≠ newline) = true := by
      intro b hb
      simpa using fun he : b = newline => h (he ▸ hb)
    rw [List.dropWhile_append_of_pos hline, List.takeWhile_append_of_pos hline]
    simp

lemma splitOn_of_cutLine? (h : cutLine? bytes = some (line, rest)) :
    bytes.splitOn newline = line :: rest.splitOn newline := by
  obtain ⟨rfl, hline⟩ := cutLine?_eq_some_iff.mp h
  refine List.splitOnP_append_cons_of_forall_mem (fun b hb => ?_) newline (by simp) rest
  simpa using fun he : b = newline => hline (he ▸ hb)

lemma splitOn_of_cutLine?_eq_none (h : cutLine? bytes = none) :
    bytes.splitOn newline = [bytes] := by
  refine List.splitOnP_eq_singleton fun b hb => ?_
  simpa using fun he : b = newline => cutLine?_eq_none_iff.mp h (he ▸ hb)

lemma cutLines_of_cutLine? (h : cutLine? bytes = some (line, rest)) :
    cutLines bytes = (line :: (cutLines rest).1, (cutLines rest).2) := by
  rw [cutLines]
  split
  · rename_i hnone
    cases h.symm.trans hnone
  · rename_i hsome
    cases h.symm.trans hsome
    rfl

lemma cutLines_of_cutLine?_eq_none (h : cutLine? bytes = none) : cutLines bytes = ([], bytes) := by
  rw [cutLines]
  split
  · rfl
  · rename_i hsome
    cases h.symm.trans hsome

lemma streamLines_of_cutLine? (h : cutLine? bytes = some (line, rest)) :
    streamLines bytes = line :: streamLines rest := by
  unfold streamLines
  rw [cutLines_of_cutLine? h]
  obtain ⟨lines, left⟩ := cutLines rest
  cases left <;> rfl

lemma streamLines_of_cutLine?_eq_none (h : cutLine? bytes = none) :
    streamLines bytes = if bytes.isEmpty then [] else [bytes] := by
  unfold streamLines
  rw [cutLines_of_cutLine?_eq_none h]
  rfl

lemma filterMap_streamLines (bytes : List UInt8) :
    (streamLines bytes).filterMap lineText? = (bytes.splitOn newline).filterMap lineText? := by
  fun_induction cutLines bytes with
  | case1 bytes h =>
    rw [streamLines_of_cutLine?_eq_none h, splitOn_of_cutLine?_eq_none h]
    cases bytes with
    | nil => rfl
    | cons b bytes => rfl
  | case2 bytes line rest h _ _ _ _ ih =>
    rw [streamLines_of_cutLine? h, splitOn_of_cutLine? h, List.filterMap_cons, List.filterMap_cons,
      ih]

end Cutting

section Texts

variable {piece : List UInt8} {text : String} {cs : List Char}

/-- The text of a piece of a stream: the piece is the text in UTF-8 with some returns behind it,
none of which belongs to the text, and not all of the text is blank. -/
structure Spells (piece : List UInt8) (text : String) : Prop where
  encodes : ∃ n, (⟨piece.toArray⟩ : ByteArray) =
    (String.ofList (text.toList ++ List.replicate n '\r')).toUTF8
  no_return : text.toList.getLast? ≠ some '\r'
  not_blank : ∃ c ∈ text.toList, Text.isBlank c = false

lemma withoutReturns_append_return (cs : List Char) :
    withoutReturns (cs ++ ['\r']) = withoutReturns cs := by
  simp [withoutReturns]

lemma withoutReturns_of_getLast? (h : cs.getLast? ≠ some '\r') : withoutReturns cs = cs := by
  induction cs using List.reverseRecOn with
  | nil => rfl
  | append_singleton cs c _ =>
    have hc : c ≠ '\r' := by simpa using h
    simp [withoutReturns, hc]

lemma withoutReturns_append_replicate (h : cs.getLast? ≠ some '\r') (n : Nat) :
    withoutReturns (cs ++ List.replicate n '\r') = cs := by
  induction n with
  | zero => rw [List.replicate_zero, List.append_nil, withoutReturns_of_getLast? h]
  | succ n ih => rw [List.replicate_succ', ← List.append_assoc, withoutReturns_append_return, ih]

lemma exists_eq_withoutReturns_append (cs : List Char) :
    (withoutReturns cs).getLast? ≠ some '\r' ∧
      ∃ n, cs = withoutReturns cs ++ List.replicate n '\r' := by
  induction cs using List.reverseRecOn with
  | nil => exact ⟨nofun, 0, rfl⟩
  | append_singleton cs c ih =>
    by_cases hc : c = '\r'
    · obtain ⟨hlast, n, hn⟩ := ih
      subst hc
      rw [withoutReturns_append_return]
      refine ⟨hlast, n + 1, ?_⟩
      rw [List.replicate_succ', ← List.append_assoc, ← hn]
    · have hlast : (cs ++ [c]).getLast? ≠ some '\r' := by simpa using hc
      rw [withoutReturns_of_getLast? hlast]
      exact ⟨hlast, 0, by simp⟩

lemma lineText?_eq_some_iff : lineText? piece = some text ↔ Spells piece text := by
  have hblank : ∀ cs : List Char, Text.allBlank cs = true ↔ ¬ ∃ c ∈ cs, Text.isBlank c = false := by
    intro cs
    simp [Text.allBlank_iff]
  simp only [lineText?, Option.bind_eq_some_iff, Text.fromUTF8?_eq_some_iff,
    Option.ite_none_left_eq_some, Option.some.injEq, hblank, not_not]
  constructor
  · rintro ⟨s, hs, hne, rfl⟩
    obtain ⟨hlast, n, hn⟩ := exists_eq_withoutReturns_append s.toList
    refine ⟨⟨n, ?_⟩, ?_, ?_⟩
    · rw [String.toList_ofList, ← hn, String.ofList_toList, hs]
    · rwa [String.toList_ofList]
    · rwa [String.toList_ofList]
  · rintro ⟨⟨n, hn⟩, hlast, hne⟩
    refine ⟨_, hn, ?_⟩
    rw [String.toList_ofList, withoutReturns_append_replicate hlast]
    exact ⟨hne, String.ofList_toList⟩

lemma lineText?_of_not_isValidUTF8 (h : ¬ (⟨piece.toArray⟩ : ByteArray).IsValidUTF8) :
    lineText? piece = none := by
  rw [lineText?, String.fromUTF8?, dif_neg h]
  rfl

lemma Spells.nonBlank?_ne_none (h : Spells piece text) : Text.nonBlank? text ≠ none := by
  rw [Ne, Text.nonBlank?_eq_none_iff, Text.allBlank_iff]
  obtain ⟨c, hc, hb⟩ := h.not_blank
  exact fun hall => by simp [hall c hc] at hb

end Texts

section Reading

/-- The next line of a stream, which goes to a newline or to the end of the stream, and what comes
after it. There is none at the end. -/
def nextLine? (bytes : List UInt8) : Option (List UInt8 × List UInt8) :=
  if bytes = [] then none else some ((cutLine? bytes).getD (bytes, []))

/-- The steps read the stream from `bytes` on line by line, and `left` is what they do not come to.
The stream may break anywhere. -/
inductive Reads : List UInt8 → List Step → List UInt8 → Prop where
  | nil (bytes) : Reads bytes [] bytes
  | received {bytes line rest left xs} (h : nextLine? bytes = some (line, rest))
      (hr : Reads rest xs left) : Reads bytes (.received line :: xs) left
  | other {bytes left s xs} (h : ∀ line, s ≠ .received line) (hr : Reads bytes xs left) :
      Reads bytes (s :: xs) left

/-- The line that a step reads. -/
def Step.line? : Step → Option (List UInt8)
  | .received line => some line
  | _ => none

/-- The line that an act posts, and the server it is said to come from. -/
def Act.post? : Act → Option (String × Provider)
  | .post text provider => some (text, provider)
  | _ => none

/-- What acts post, in order. -/
def posts (acts : List Act) : List (String × Provider) := acts.filterMap Act.post?

/-- The texts of the lines that steps read, in order. -/
def textsRead (xs : List Step) : List String := (xs.filterMap Step.line?).filterMap lineText?

/-- What is to be posted of a stream: each piece between newlines that has a text, with the server
of the connection. -/
def items (S : Setup) (bytes : List UInt8) : List (String × Provider) :=
  ((bytes.splitOn newline).filterMap lineText?).map (·, S.provider)

variable {S : Setup} {c c' : Connection} {xs ys : List Step} {acts : List Act}
  {bytes line rest left : List UInt8}

lemma streamLines_of_nextLine? (h : nextLine? bytes = some (line, rest)) :
    streamLines bytes = line :: streamLines rest := by
  simp only [nextLine?, Option.ite_none_left_eq_some, Option.some.injEq] at h
  obtain ⟨hne, h⟩ := h
  cases hc : cutLine? bytes with
  | some cut =>
    rw [hc, Option.getD_some] at h
    exact streamLines_of_cutLine? (hc.trans (congrArg some h))
  | none =>
    rw [hc, Option.getD_none, Prod.mk.injEq] at h
    obtain ⟨rfl, rfl⟩ := h
    rw [streamLines_of_cutLine?_eq_none hc, if_neg (by simpa using hne), streamLines, cutLines]
    rfl

lemma length_lt_of_nextLine? (h : nextLine? bytes = some (line, rest)) :
    rest.length < bytes.length := by
  simp only [nextLine?, Option.ite_none_left_eq_some, Option.some.injEq] at h
  obtain ⟨hne, h⟩ := h
  cases hc : cutLine? bytes with
  | some cut =>
    rw [hc, Option.getD_some] at h
    exact length_lt_of_cutLine? (hc.trans (congrArg some h))
  | none =>
    rw [hc, Option.getD_none, Prod.mk.injEq] at h
    simpa [← h.2] using List.length_pos_iff.mpr hne

lemma Reads.streamLines_eq (h : Reads bytes xs left) :
    streamLines bytes = xs.filterMap Step.line? ++ streamLines left := by
  induction h with
  | nil => rfl
  | received hl _ ih => rw [streamLines_of_nextLine? hl, ih]; rfl
  | @other bytes left s xs hs _ ih =>
    have hnone : s.line? = none := by
      cases s with
      | received line => exact absurd rfl (hs line)
      | _ => rfl
    rw [ih, List.filterMap_cons_none hnone]

lemma Reads.items_eq (h : Reads bytes xs left) :
    items S bytes = (textsRead xs).map (·, S.provider) ++ items S left := by
  unfold items textsRead
  rw [← filterMap_streamLines, ← filterMap_streamLines, h.streamLines_eq, List.filterMap_append,
    List.map_append]

/-- Where the posts of a session stand: `lost` are the texts that were read and not posted. While
the session lasts that is the text that waits to be posted, and after the end of the stream nothing
is lost. -/
structure Posting (S : Setup) (xs : List Step) (c : Connection) (acts : List Act)
    (lost : List String) : Prop where
  texts : (textsRead xs).map (·, S.provider) = posts acts ++ lost.map (·, S.provider)
  reading : c.phase = .reading → lost = []
  posting : ∀ text, c.phase = .posting text → lost = [text]
  unended : c.inSession = true → .ended ∉ xs
  ended : .ended ∈ xs → lost = []

lemma textsRead_append_singleton (xs : List Step) (s : Step) :
    textsRead (xs ++ [s]) = textsRead xs ++ (s.line?.bind lineText?).toList := by
  cases h : s.line? with
  | none => simp [textsRead, h]
  | some line => cases ht : lineText? line <;> simp [textsRead, h, ht]

lemma posts_append (acts new : List Act) : posts (acts ++ new) = posts acts ++ posts new :=
  List.filterMap_append

lemma Posting.quiet {s : Step} {new : List Act} {lost : List String} (h : Posting S xs c acts lost)
    (hl : s.line? = none) (hs : s ≠ .ended) (hn : posts new = [])
    (hc : c'.phase = c.phase ∨ c'.inSession = false) :
    Posting S (xs ++ [s]) c' (acts ++ new) lost := by
  have hmem : .ended ∈ xs ++ [s] ↔ .ended ∈ xs := by simp [hs.symm]
  have htexts : (textsRead (xs ++ [s])).map (·, S.provider) =
      posts (acts ++ new) ++ lost.map (·, S.provider) := by
    rw [textsRead_append_singleton, hl, posts_append, hn, List.append_nil]
    simpa using h.texts
  obtain hc | hc := hc
  · refine ⟨htexts, hc ▸ h.reading, hc ▸ h.posting, fun hin => ?_, fun he => h.ended (hmem.mp he)⟩
    exact fun he => h.unended (inSession_congr hc ▸ hin) (hmem.mp he)
  · have hreading : c'.phase ≠ .reading := fun hp => by simp [inSession, hp] at hc
    have hposting : ∀ text, c'.phase ≠ .posting text := fun text hp => by simp [inSession, hp] at hc
    exact ⟨htexts, fun hp => absurd hp hreading, fun text hp => absurd hp (hposting text),
      by simp [hc], fun he => h.ended (hmem.mp he)⟩

/-- The account of a session is kept from its opening on, as long as the queue is open. -/
lemma exists_posting_of_run (hc : c.phase = .reading) (h : run? S c xs = some (c', acts))
    (ho : .opened ∉ xs) (hd : .dropped ∉ xs) : ∃ lost, Posting S xs c' acts lost := by
  refine run_induction
    (P := fun xs c acts => .opened ∉ xs → .dropped ∉ xs → ∃ lost, Posting S xs c acts lost)
    (fun _ _ => ⟨[], rfl, fun _ => rfl, by simp [hc], by simp, by simp⟩) ?_ h ho hd
  intro xs c acts s c' new ih hm ho hd
  simp only [List.mem_append, List.mem_singleton, not_or] at ho hd
  obtain ⟨lost, hp⟩ := ih ho.1 hd.1
  have htexts := hp.texts
  cases hm with
  | start | failed | failedForGood | closed | closedForGood | resumed | stopped =>
    exact ⟨lost, hp.quiet rfl nofun rfl (.inr rfl)⟩
  | startInVain | shutdown => exact ⟨lost, hp.quiet rfl nofun rfl (.inl rfl)⟩
  | reconnect => exact ⟨lost, hp.quiet rfl nofun rfl (.inl (phase_reconnect c))⟩
  | opened => exact absurd rfl ho.2
  | dropped => exact absurd rfl hd.2
  | received hr _ line text ht =>
    have hun : .ended ∉ xs ++ [.received line] := by
      simpa using hp.unended (by simp [inSession, hr])
    obtain rfl := hp.reading hr
    refine ⟨[text], ?_, nofun, fun t h => ?_, fun _ => hun, fun h => absurd h hun⟩
    · rw [textsRead_append_singleton, List.append_nil]
      simpa [Step.line?, ht] using htexts
    · simpa using h
  | passedOver hr _ line ht =>
    have hun : .ended ∉ xs ++ [.received line] := by
      simpa using hp.unended (by simp [inSession, hr])
    refine ⟨lost, ?_, hp.reading, hp.posting, fun _ => hun, fun h => absurd h hun⟩
    rw [textsRead_append_singleton, List.append_nil]
    simpa [Step.line?, ht] using htexts
  | ended hr =>
    obtain rfl := hp.reading hr
    refine ⟨[], ?_, fun _ => rfl, nofun, nofun, fun _ => rfl⟩
    have hquiet : posts [.down, .pause S.backoff.initial] = [] := rfl
    rw [textsRead_append_singleton, posts_append, hquiet]
    simpa [Step.line?] using htexts
  | posted text hpo =>
    have hun : .ended ∉ xs ++ [.posted] := by simpa using hp.unended (by simp [inSession, hpo])
    obtain rfl := hp.posting text hpo
    refine ⟨[], ?_, fun _ => rfl, nofun, fun _ => hun, fun _ => rfl⟩
    rw [textsRead_append_singleton, posts_append]
    simpa [Step.line?, posts, Act.post?] using htexts

lemma exists_run_to_end (hp : c.phase = .reading) (hc : c.isCut = false) (bytes : List UInt8) :
    ∃ xs c' acts, run? S c xs = some (c', acts) ∧ .opened ∉ xs ∧ .dropped ∉ xs ∧
      Reads bytes xs [] ∧ .ended ∈ xs := by
  induction h : bytes.length using Nat.strong_induction_on generalizing bytes c with
  | _ n ih =>
  subst h
  cases hl : nextLine? bytes with
  | none =>
    have hend : bytes = [] := by simpa [nextLine?] using hl
    subst hend
    have hended : c.step? S .ended = some (c.closeSession S) := by simp [step?, hp, hc]
    exact ⟨[.ended], _, _, run?_cons_eq_some_iff.mpr ⟨_, _, [], hended, run?_nil S _, rfl⟩,
      by simp, by simp, .other (by simp) (.nil []), by simp⟩
  | some cut =>
    obtain ⟨line, rest⟩ := cut
    have hlt : rest.length < bytes.length := length_lt_of_nextLine? hl
    cases ht : lineText? line with
    | none =>
      obtain ⟨xs, c', acts, hr, ho, hd, hreads, he⟩ := ih _ hlt hp hc rest rfl
      refine ⟨.received line :: xs, c', acts,
        run?_cons_eq_some_iff.mpr ⟨c, [], acts, ?_, hr, rfl⟩, by simp [ho], by simp [hd],
        .received hl hreads, by simp [he]⟩
      simp [step?, hp, hc, ht]
    | some text =>
      let c₁ : Connection := { c with phase := .posting text }
      let c₂ : Connection := { c with phase := .reading }
      obtain ⟨xs, c', acts, hr, ho, hd, hreads, he⟩ := ih (c := c₂) _ hlt rfl hc rest rfl
      have hreceived : c.step? S (.received line) = some (c₁, []) := by
        simp [step?, hp, hc, ht, c₁]
      have hposted : c₁.step? S .posted = some (c₂, [.post text S.provider]) := by
        have : c₁.isCut = false := hc
        simp [step?, c₁, c₂, this]
      refine ⟨.received line :: .posted :: xs, c', .post text S.provider :: acts,
        run?_cons_eq_some_iff.mpr ⟨c₁, [], _, hreceived,
          run?_cons_eq_some_iff.mpr ⟨c₂, _, acts, hposted, hr, rfl⟩, rfl⟩,
        by simp [ho], by simp [hd], .received hl (.other (by simp) hreads), by simp [he]⟩

lemma items_intercalate {pieces : List (List UInt8)} (h : ∀ p ∈ pieces, newline ∉ p)
    (hne : pieces ≠ []) :
    items S ([newline].intercalate pieces) =
      (pieces.filterMap lineText?).map (·, S.provider) := by
  rw [items, List.splitOn_intercalate newline h hne]

end Reading

/-- What a session posts of a stream. Whatever interferes, that is a first part of the items of the
stream, and all of them if the stream is read to its end, which nothing but a cut prevents. An item
is the text of a piece between newlines with the server of the connection, and no item is blank. A
piece that is replaced by bytes that are no text takes its own item with it and no other. -/
theorem posts_of_session (S : Setup) (bytes : List UInt8) :
    (∀ c xs c' acts left, c.phase = .reading → run? S c xs = some (c', acts) → .opened ∉ xs →
      .dropped ∉ xs → Reads bytes xs left →
        posts acts <+: items S bytes ∧ (.ended ∈ xs → left = [] → posts acts = items S bytes)) ∧
    (∀ c, c.phase = .reading → c.isCut = false → ∃ xs c' acts, run? S c xs = some (c', acts) ∧
      .opened ∉ xs ∧ .dropped ∉ xs ∧ Reads bytes xs [] ∧ .ended ∈ xs) ∧
    (∀ piece text, lineText? piece = some text ↔ Spells piece text) ∧
    (∀ text provider, (text, provider) ∈ items S bytes →
      provider = S.provider ∧ Text.nonBlank? text ≠ none) ∧
    (∀ before line junk after, (∀ p ∈ before ++ line :: junk :: after, newline ∉ p) →
      ¬ (⟨junk.toArray⟩ : ByteArray).IsValidUTF8 →
        let item := fun p => (lineText? p).map (·, S.provider)
        items S ([newline].intercalate (before ++ line :: after)) =
          before.filterMap item ++ (item line).toList ++ after.filterMap item ∧
        items S ([newline].intercalate (before ++ junk :: after)) =
          before.filterMap item ++ after.filterMap item) := by
  refine ⟨fun c xs c' acts left hp hr ho hd hreads => ?_,
    fun c hp hc => exists_run_to_end hp hc bytes, fun piece text => lineText?_eq_some_iff,
    fun text provider hmem => ?_, fun before line junk after hlines hjunk => ?_⟩
  · obtain ⟨lost, hposting⟩ := exists_posting_of_run hp hr ho hd
    have hitems : items S bytes = posts acts ++ (lost.map (·, S.provider) ++ items S left) := by
      rw [hreads.items_eq, hposting.texts, List.append_assoc]
    refine ⟨⟨_, hitems.symm⟩, fun he hleft => ?_⟩
    have hnone : items S [] = [] := rfl
    rw [hitems, hposting.ended he, hleft, hnone]
    simp
  · obtain ⟨t, hmem, heq⟩ := List.mem_map.mp hmem
    obtain ⟨piece, -, ht⟩ := List.mem_filterMap.mp hmem
    obtain ⟨rfl, rfl⟩ := Prod.mk.injEq .. ▸ heq
    exact ⟨rfl, (lineText?_eq_some_iff.mp ht).nonBlank?_ne_none⟩
  · have hitems : ∀ p, newline ∉ p → items S ([newline].intercalate (before ++ p :: after)) =
        (((before ++ p :: after).filterMap lineText?).map (·, S.provider)) := by
      intro p hp
      refine items_intercalate (fun q hq => ?_) (by simp)
      obtain hq | rfl | hq := by simpa using hq
      · exact hlines q (by simp [hq])
      · exact hp
      · exact hlines q (by simp [hq])
    rw [hitems line (hlines line (by simp)), hitems junk (hlines junk (by simp))]
    have hnone := lineText?_of_not_isValidUTF8 hjunk
    cases ht : lineText? line <;> simp [List.map_filterMap, hnone, ht]

/-- The stream of `hi` with a return, a piece that is no text, and `yo` without a newline. -/
theorem posts_of_stream_with_broken_piece :
    let S : Setup := ⟨⟨"review", "localhost", 29418, "ssh", none⟩, .standard⟩
    let xs : List Step := [.received [104, 105, 13], .posted, .received [255], .received [121, 111],
      .posted, .ended]
    ∃ c acts, run? S { phase := .reading } xs = some (c, acts) ∧
      posts acts = items S [104, 105, 13, 10, 255, 10, 121, 111] ∧
      posts acts = [("hi", S.provider), ("yo", S.provider)] := by
  intro S xs
  have hreads : Reads [104, 105, 13, 10, 255, 10, 121, 111] xs [] :=
    .received rfl (.other nofun (.received rfl (.received rfl (.other nofun (.other nofun
      (.nil []))))))
  obtain ⟨hsession, -⟩ := posts_of_session S [104, 105, 13, 10, 255, 10, 121, 111]
  have hposts := (hsession { phase := .reading } xs _ _ [] rfl rfl (by decide) (by decide) hreads).2
    (by decide) rfl
  exact ⟨_, _, rfl, hposts, rfl⟩

end ReviewStream.Connection
