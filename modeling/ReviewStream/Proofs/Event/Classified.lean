import ReviewStream.Proofs.Event.RoundTrip
import ReviewStream.Proofs.Event.Sources
import ReviewStream.Proofs.Json.Embedding

/-!
# What lines are taken for

A line is taken for an event only if it is an object whose type names the kind of the event, and
then all of the event comes from its members. Other objects are no events. The four kinds of events
about patch sets are read alike.

All this is said of the members that are left once embedded texts are replaced by their values. In
most lines there are none, and the members are those of the line itself.
-/

namespace ReviewStream.Event

open Payload

/-- The type of an object, the last one if there are several, names a kind in any case. -/
def NamesKind (ms : Json.Members) (kind : EventKind) : Prop :=
  ∃ s, ms.last? "type" = some (.string s) ∧ sameIgnoringCase kind.name s = true

/-- A line is an object that has no texts embedded in it. -/
def IsObject (line : String) (ms : Json.Members) : Prop :=
  ∃ text, Text.nonBlank? line = some text ∧ Json.parse text = .ok (.object ms) ∧
    Json.embeds (.object ms) = false

/-- Two readings end in the same error, or in events of the given kinds that are about the same
patch set and of the same time if there is one in the members. -/
def Agree (ms : Json.Members) (kind kind' : EventKind)
    (result result' : Except ParseError (Option Event)) : Prop :=
  (∃ err, result = .error err ∧ result' = .error err) ∨
    ∃ e e' f f', result = .ok (some e) ∧ result' = .ok (some e') ∧ e.kind = kind ∧
      e'.kind = kind' ∧ e.facts? = some f ∧ e'.facts? = some f' ∧ f.change = f'.change ∧
      f.patchSet = f'.patchSet ∧ f.provider = f'.provider ∧
      ∀ t, NamesInstant ms t → f.createdOn = t ∧ f'.createdOn = t

variable {now now' : Calendar.Timestamp} {provider : Option Provider} {kind kind' : EventKind}
  {ms ms' : Json.Members} {e : Event} {line : String} {j : Json}

lemma kindOf?_eq_some_iff : kindOf? ms = some kind ↔ NamesKind ms kind := by
  constructor
  · intro h
    unfold kindOf? at h
    split at h
    · rename_i s hs
      exact ⟨s, hs, by simpa using List.find?_some h⟩
    · cases h
  · rintro ⟨s, hs, hname⟩
    rw [kindOf?, hs]
    exact find?_of_sameIgnoringCase hname

lemma source_of_ofJson (h : ofJson now provider j = .ok (some e)) :
    ∃ ms, j = .object ms ∧ NamesKind ms e.kind ∧ Source now provider ms e := by
  unfold ofJson at h
  split at h
  · rename_i ms
    split at h
    · rename_i kind hkind
      obtain ⟨e', he', heq⟩ := map_eq_ok_iff.mp h
      cases heq
      obtain ⟨rfl, hsource⟩ := source_of_ofMembers he'
      exact ⟨ms, rfl, kindOf?_eq_some_iff.mp hkind, hsource⟩
    · cases h
  · cases h

lemma parse_of_isObject (h : IsObject line ms) (now : Calendar.Timestamp)
    (provider : Option Provider) : parse now provider line = ofJson now provider (.object ms) := by
  obtain ⟨text, htext, hparse, hembeds⟩ := h
  simp only [parse, htext, Json.parseEmbedding_of_parse hparse hembeds]
  rfl

section Kinds

lemma last?_cons_of_ne {key name : String} (h : key ≠ name) :
    Json.Members.last? ((key, j) :: ms) name = ms.last? name := by
  have hlast : [(key, j)].find? (fun m => m.1 = name) = none := by simp [h]
  rw [Json.Members.last?, Json.Members.last?, List.reverse_cons, List.find?_append, hlast,
    Option.or_none]

lemma instant_unique {t t' : Calendar.Timestamp} (h : InstantSource now t' ms)
    (ht : NamesInstant ms t) : t' = t := by
  obtain ⟨s', hs', ht'⟩ | ⟨hnone, -⟩ := h
  · obtain ⟨s, hs, ht⟩ := ht
    rw [hs'] at hs
    obtain rfl := ofInt_injective (by simpa using hs)
    rw [ht'] at ht
    exact Option.some.inj ht
  · exact absurd ht (hnone t)

lemma review_congr (h : ∀ name ≠ "type", ms.last? name = ms'.last? name) :
    review ms = review ms' := by
  simp only [review, Payload.optional, member, h "abandoner" (by decide),
    h "approvals" (by decide), h "author" (by decide), h "change" (by decide),
    h "comment" (by decide), h "eventCreatedOn" (by decide), h "patchSet" (by decide),
    h "patchset" (by decide), h "reason" (by decide), h "submitter" (by decide),
    h "uploader" (by decide)]

lemma facts_agree (p : ReviewFields) (now now' : Calendar.Timestamp) (provider : Option Provider) :
    (∃ err, p.facts now provider = .error err ∧ p.facts now' provider = .error err) ∨
      ∃ f f', p.facts now provider = .ok f ∧ p.facts now' provider = .ok f' ∧
        f.change = f'.change ∧ f.patchSet = f'.patchSet ∧ f.provider = f'.provider := by
  unfold ReviewFields.facts
  cases p.change.number.read "change.number" with
  | error err => exact .inl ⟨err, rfl, rfl⟩
  | ok n =>
    cases p.patchSet.number.read "patchSet.number" with
    | error err => exact .inl ⟨err, rfl, rfl⟩
    | ok m => exact .inr ⟨_, _, rfl, rfl, rfl, rfl, rfl⟩

lemma ofMembers_eq_review (h : kind ≠ .refUpdated) : ∃ make : ReviewFields → ReviewFacts → Event,
    (∀ p f, (make p f).kind = kind ∧ (make p f).facts? = some f) ∧
      ∀ now provider ms, ofMembers now provider kind ms = (do
        let p ← (review ms).mapError ParseError.misfit
        let f ← p.facts now provider
        return make p f) := by
  cases kind with
  | patchSetCreated =>
    exact ⟨fun _ f => .patchSetCreated f, fun _ _ => ⟨rfl, rfl⟩, fun _ _ _ => rfl⟩
  | changeAbandoned =>
    exact ⟨fun p f => .changeAbandoned f p.abandoner p.reason, fun _ _ => ⟨rfl, rfl⟩,
      fun _ _ _ => rfl⟩
  | changeMerged =>
    exact ⟨fun p f => .changeMerged f p.submitter, fun _ _ => ⟨rfl, rfl⟩, fun _ _ _ => rfl⟩
  | commentAdded =>
    exact ⟨fun p f => .commentAdded f p.author p.comment p.approvals, fun _ _ => ⟨rfl, rfl⟩,
      fun _ _ _ => rfl⟩
  | refUpdated => exact absurd rfl h

lemma agree_of_members (hms : ∀ name ≠ "type", ms.last? name = ms'.last? name)
    (hkind : NamesKind ms kind) (hkind' : NamesKind ms' kind') (h : kind ≠ .refUpdated)
    (h' : kind' ≠ .refUpdated) (now now' : Calendar.Timestamp) (provider : Option Provider) :
    Agree ms kind kind' (ofJson now provider (.object ms))
      (ofJson now' provider (.object ms')) := by
  obtain ⟨make, hmake, hread⟩ := ofMembers_eq_review h
  obtain ⟨make', hmake', hread'⟩ := ofMembers_eq_review h'
  simp only [ofJson, kindOf?_eq_some_iff.mpr hkind, kindOf?_eq_some_iff.mpr hkind', hread, hread',
    ← review_congr hms]
  cases hp : review ms with
  | error m => exact .inl ⟨.misfit m, rfl, rfl⟩
  | ok p =>
    obtain ⟨err, hf, hf'⟩ | ⟨f, f', hf, hf', hchange, hpatchSet, hprovider⟩ :=
      facts_agree p now now' provider
    · exact .inl ⟨err, by simp [hf, Except.mapError, bind, Except.bind, Except.map],
        by simp [hf', Except.mapError, bind, Except.bind, Except.map]⟩
    · have hinstant := ((reviewSource hp).facts now provider f hf).createdOn
      have hinstant' := ((reviewSource hp).facts now' provider f' hf').createdOn
      refine .inr ⟨make p f, make' p f', f, f', ?_, ?_, (hmake p f).1, (hmake' p f').1,
        (hmake p f).2, (hmake' p f').2, hchange, hpatchSet, hprovider,
        fun t ht => ⟨instant_unique hinstant ht, instant_unique hinstant' ht⟩⟩
      · simp [hf, Except.mapError, bind, Except.bind, Except.map, pure, Except.pure]
      · simp [hf', Except.mapError, bind, Except.bind, Except.map, pure, Except.pure]

end Kinds

section Rendered

lemma nonBlank?_of_braces {cs : List Char} (hhead : cs.head? = some '{')
    (hlast : cs.getLast? = some '}') :
    Text.nonBlank? (String.ofList cs) = some (String.ofList cs) := by
  have htrim : Text.trim cs = cs := by
    have hfirst : ∀ c, cs.head? = some c → Text.isBlank c = false := by
      intro c hc
      obtain rfl : '{' = c := by simpa [hhead] using hc
      rfl
    have hend : ∀ c, cs.getLast? = some c → Text.isBlank c = false := by
      intro c hc
      obtain rfl : '}' = c := by simpa [hlast] using hc
      rfl
    have hblank : Text.trim ([] ++ (cs ++ [])) = cs := Text.trim_append rfl rfl hfirst hend
    rwa [List.nil_append, List.append_nil] at hblank
  have hne : cs.isEmpty = false := by cases cs <;> simp_all
  rw [Text.nonBlank?, String.toList_ofList, htrim, hne]
  rfl

lemma isObject_render (h : Json.readable Json.depthLimit (.object ms) = true)
    (hembeds : Json.embeds (.object ms) = false) : IsObject (Json.object ms).render ms := by
  obtain ⟨hhead, hlast⟩ := ends_of_written_object (Json.written_renderChars h)
  exact ⟨_, nonBlank?_of_braces hhead hlast, Json.parseChars_render _ h, hembeds⟩

lemma nonBlank?_render_embedding (s : String) :
    Text.nonBlank? (Json.embedding s).render = some (Json.embedding s).render := by
  refine nonBlank?_of_braces ?_ ?_
  · simp [Json.renderChars_embedding]
  · simp [Json.renderChars_embedding, List.getLast?_cons, List.getLast?_append]

lemma parse_embedding (h : Json.readable Json.depthLimit j = true) (now : Calendar.Timestamp)
    (provider : Option Provider) :
    parse now provider (Json.embedding j.render).render = ofJson now provider j := by
  have hread : Json.parseEmbedding (Json.embedding j.render).render = .ok j :=
    Json.parseEmbedding_embedding (Json.parseNested_of_written (Json.written_renderChars h))
  simp only [parse, nonBlank?_render_embedding, hread]
  rfl

end Rendered

/-- Only an object is read as an event. Its type names the kind, and every field of the event comes
from its members, where an object that embeds a text counts as the value of that text. An object
whose type names no kind is no event, whatever else is in it. Of objects that differ in the type
alone, the kinds that are about a patch set read the same. -/
theorem parse_sound (now : Calendar.Timestamp) (provider : Option Provider) (line : String) :
    (∀ e, parse now provider line = .ok (some e) → ∃ text ms, Text.nonBlank? line = some text ∧
      Json.parseEmbedding text = .ok (.object ms) ∧ NamesKind ms e.kind ∧
      Source now provider ms e ∧ ∃ ms₀, Json.parse text = .ok (.object ms₀) ∧
        (Json.embeds (.object ms₀) = false → ms₀ = ms)) ∧
    (∀ ms, IsObject line ms → (∀ kind, ¬ NamesKind ms kind) →
      parse now provider line = .ok none) ∧
    (∀ ms kind, IsObject line ms → NamesKind ms kind → kind ≠ .refUpdated →
      ∀ now' line' ms' kind', IsObject line' ms' → NamesKind ms' kind' → kind' ≠ .refUpdated →
        (∀ name ≠ "type", ms.last? name = ms'.last? name) →
          Agree ms kind kind' (parse now provider line) (parse now' provider line')) := by
  refine ⟨fun e h => ?_, fun ms hline hkind => ?_, ?_⟩
  · unfold parse at h
    split at h
    · cases h
    · rename_i text htext
      obtain ⟨j, hj, he⟩ := bind_eq_ok_iff.mp h
      rw [mapError_eq_ok_iff] at hj
      obtain ⟨ms, rfl, hkind, hsource⟩ := source_of_ofJson he
      obtain ⟨j₀, hj₀, hobject⟩ := Json.parse_of_parseEmbedding hj
      obtain ⟨ms₀, rfl⟩ := hobject ms rfl
      refine ⟨text, ms, htext, hj, hkind, hsource, ms₀, hj₀, fun hembeds => ?_⟩
      have hsame := (Json.parseEmbedding_of_parse hj₀ hembeds).symm.trans hj
      simpa using hsame
  · have hnone : kindOf? ms = none :=
      Option.eq_none_iff_forall_ne_some.mpr fun kind h => hkind kind (kindOf?_eq_some_iff.mp h)
    rw [parse_of_isObject hline, ofJson, hnone]
  · intro ms kind hline hkind h now' line' ms' kind' hline' hkind' h' hms
    rw [parse_of_isObject hline, parse_of_isObject hline']
    exact agree_of_members hms hkind hkind' h h' now now' provider

/-- Of a change and a patch set given as arrays, with the number of the change as a text, a merge
and a creation are read that agree, and of a type that is no text nothing. -/
theorem parse_sound_of_arrays :
    let change : Json := .array [.string "p", .string "b", .string "i", .string " +07", .string "",
      .null, .null]
    let patchSet : Json := .array [.ofNat 2, .string "r", .string "f", .null]
    let members (kind : String) : Json.Members := [("type", .string kind), ("change", change),
      ("patchset", patchSet), ("eventCreatedOn", .ofNat 60)]
    let line (kind : String) : String := (Json.object (members kind)).render
    (∃ e, parse .epoch none (line "Change-MERGED") = .ok (some e) ∧
      Source .epoch none (members "Change-MERGED") e) ∧
    Agree (members "Change-MERGED") .changeMerged .patchSetCreated
      (parse .epoch none (line "Change-MERGED")) (parse .epoch none (line "patchset-created")) ∧
    parse .epoch none (Json.object [("type", .ofNat 1)]).render = .ok none := by
  intro change patchSet members line
  have hmerged : IsObject (line "Change-MERGED") (members "Change-MERGED") :=
    isObject_render (by decide +kernel) (by decide +kernel)
  have hcreated : IsObject (line "patchset-created") (members "patchset-created") :=
    isObject_render (by decide +kernel) (by decide +kernel)
  have hnumber : IsObject (Json.object [("type", .ofNat 1)]).render [("type", .ofNat 1)] :=
    isObject_render (by decide +kernel) (by decide +kernel)
  obtain ⟨hsound, -, hagree⟩ := parse_sound .epoch none (line "Change-MERGED")
  refine ⟨?_, ?_, ?_⟩
  · obtain ⟨e, he⟩ : ∃ e, parse .epoch none (line "Change-MERGED") = .ok (some e) :=
      ⟨_, (parse_of_isObject hmerged .epoch none).trans rfl⟩
    obtain ⟨text, ms, htext, -, -, hsource, ms₀, hms₀, hsame⟩ := hsound e he
    obtain ⟨text', htext', hparse, hembeds⟩ := hmerged
    obtain rfl : text = text' := Option.some.inj (htext.symm.trans htext')
    obtain rfl : ms₀ = members "Change-MERGED" := by simpa [hparse] using hms₀.symm
    exact ⟨e, he, hsame hembeds ▸ hsource⟩
  · refine hagree _ _ hmerged ⟨_, rfl, by decide⟩ (by decide) .epoch _ _ _ hcreated
      ⟨_, rfl, by decide⟩ (by decide) fun name hname => ?_
    rw [last?_cons_of_ne hname.symm, last?_cons_of_ne hname.symm]
  · refine (parse_sound .epoch none _).2.1 _ hnumber ?_
    rintro kind ⟨s, hs, -⟩
    cases hs

/-- An object without a type, which embeds the text of an event. -/
theorem parse_of_embedded_event :
    let update : Json := .array [.string "p", .string "r", .string "0", .string "1"]
    let event : Json := .object [("type", .string "ref-updated"), ("refUpdate", update),
      ("eventCreatedOn", .ofNat 0)]
    let ms : Json.Members := [("$serde_json::private::RawValue", .string event.render)]
    let line : String := (Json.object ms).render
    Text.nonBlank? line = some line ∧ Json.parse line = .ok (.object ms) ∧ ms.last? "type" = none ∧
      parse .epoch none line = .ok (some (.refUpdated ⟨"p", "r", "0", "1"⟩ none .epoch)) := by
  intro update event ms line
  have hevent : Json.readable Json.depthLimit event = true := by decide +kernel
  exact ⟨nonBlank?_render_embedding _, Json.parse_embedding _, rfl,
    (parse_embedding hevent .epoch none).trans rfl⟩

end ReviewStream.Event
