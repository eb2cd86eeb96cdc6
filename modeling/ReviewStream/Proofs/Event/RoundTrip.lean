import ReviewStream.Proofs.Event.Forms
import ReviewStream.Proofs.Json.Printed

/-!
# Events read back

An event may be given as many JSON values, and each of them may be written as many lines. From every
such line the event is read.
-/

namespace ReviewStream.Event

open Payload

/-- The event for a line from some server, which an event about a reference takes no notice of. -/
def attach (provider : Option Provider) : Event → Event
  | .patchSetCreated f => .patchSetCreated { f with provider }
  | .changeAbandoned f abandoner reason => .changeAbandoned { f with provider } abandoner reason
  | .changeMerged f submitter => .changeMerged { f with provider } submitter
  | .commentAdded f author comment approvals =>
    .commentAdded { f with provider } author comment approvals
  | .refUpdated update submitter createdOn => .refUpdated update submitter createdOn

/-- The name of a kind in letters of any case. -/
inductive KindForm : Form EventKind where
  | string {kind s} (h : sameIgnoringCase kind.name s = true) : KindForm kind (.string s)

/-- The JSON values that an event may be given as, but for the server. Fields of other kinds of
events about patch sets may be there. -/
inductive Given : Form Event where
  | patchSetCreated {ms facts abandoner submitter author reason comment approvals}
      (htype : Gives KindForm ms "type" .patchSetCreated)
      (h : ReviewForm ms facts abandoner submitter author reason comment approvals) :
      Given (.patchSetCreated facts) (.object ms)
  | changeAbandoned {ms facts abandoner submitter author reason comment approvals}
      (htype : Gives KindForm ms "type" .changeAbandoned)
      (h : ReviewForm ms facts abandoner submitter author reason comment approvals) :
      Given (.changeAbandoned facts abandoner reason) (.object ms)
  | changeMerged {ms facts abandoner submitter author reason comment approvals}
      (htype : Gives KindForm ms "type" .changeMerged)
      (h : ReviewForm ms facts abandoner submitter author reason comment approvals) :
      Given (.changeMerged facts submitter) (.object ms)
  | commentAdded {ms facts abandoner submitter author reason comment approvals}
      (htype : Gives KindForm ms "type" .commentAdded)
      (h : ReviewForm ms facts abandoner submitter author reason comment approvals) :
      Given (.commentAdded facts author comment approvals) (.object ms)
  | refUpdated {ms update submitter createdOn} (htype : Gives KindForm ms "type" .refUpdated)
      (hupdate : Gives RefUpdateForm ms "refUpdate" update)
      (hsubmitter : MayGive AccountForm ms "submitter" submitter)
      (hcreatedOn : Gives InstantForm ms "eventCreatedOn" createdOn) :
      Given (.refUpdated update submitter createdOn) (.object ms)

section Values

variable {ms : Json.Members} {now : Calendar.Timestamp} {provider : Option Provider}

lemma find?_of_sameIgnoringCase {kind : EventKind} {s : String}
    (h : sameIgnoringCase kind.name s = true) : EventKind.find? s = some kind := by
  have hs : Calendar.lowerAscii kind.name = Calendar.lowerAscii s := by
    simpa [sameIgnoringCase] using h
  unfold EventKind.find? sameIgnoringCase
  rw [← hs]
  cases kind <;> rfl

lemma kindOf?_of_gives {kind : EventKind} (h : Gives KindForm ms "type" kind) :
    kindOf? ms = some kind := by
  obtain ⟨j, hj, ⟨hs⟩⟩ := h
  rw [kindOf?, last?_eq_getLast?_values, hj]
  exact find?_of_sameIgnoringCase hs

lemma ofJson_of_gives {kind : EventKind} {e : Event} (htype : Gives KindForm ms "type" kind)
    (h : ofMembers now provider kind ms = .ok e) :
    ofJson now provider (.object ms) = .ok (some e) := by
  rw [ofJson, kindOf?_of_gives htype]
  simp only [h]
  rfl

lemma ofMembers_of_form {facts : ReviewFacts} {abandoner submitter author : Option Account}
    {reason comment : Option String} {approvals : List Approval}
    (h : ReviewForm ms facts abandoner submitter author reason comment approvals)
    (now : Calendar.Timestamp) (provider : Option Provider) :
    let facts := { facts with provider }
    ofMembers now provider .patchSetCreated ms = .ok (.patchSetCreated facts) ∧
      ofMembers now provider .changeAbandoned ms = .ok (.changeAbandoned facts abandoner reason) ∧
      ofMembers now provider .changeMerged ms = .ok (.changeMerged facts submitter) ∧
      ofMembers now provider .commentAdded ms =
        .ok (.commentAdded facts author comment approvals) := by
  obtain ⟨p, hp, hfacts, rfl, rfl, rfl, rfl, rfl, rfl⟩ := review_of_form h now provider
  simp [ofMembers, hp, hfacts, bind, Except.bind, pure, Except.pure, Except.mapError]

lemma ofJson_of_given {e : Event} {j : Json} (h : Given e j) (now : Calendar.Timestamp)
    (provider : Option Provider) : ofJson now provider j = .ok (some (e.attach provider)) := by
  cases h with
  | patchSetCreated htype h => exact ofJson_of_gives htype (ofMembers_of_form h now provider).1
  | changeAbandoned htype h => exact ofJson_of_gives htype (ofMembers_of_form h now provider).2.1
  | changeMerged htype h => exact ofJson_of_gives htype (ofMembers_of_form h now provider).2.2.1
  | commentAdded htype h => exact ofJson_of_gives htype (ofMembers_of_form h now provider).2.2.2
  | @refUpdated ms update submitter createdOn htype hupdate hsubmitter hcreatedOn =>
    have hinstant := optional_of_gives reads_instant hcreatedOn
    obtain ⟨j, -, ⟨hnanos⟩⟩ := hcreatedOn
    refine ofJson_of_gives htype ?_
    simp [ofMembers, reference, hinstant, member_of_gives reads_refUpdate hupdate,
      optional_of_mayGive reads_account hsubmitter, required, instant_of_form hnanos, bind,
      Except.bind, pure, Except.pure, Except.mapError, attach]

end Values

section Lines

variable {cs : List Char} {n : Nat}

lemma getLast?_of_written_members {ms : Json.Members} (h : Json.Written n (.members ms) cs) :
    cs.getLast? = some '}' := by
  generalize hp : Json.Part.members ms = part at h
  induction h generalizing ms with
  | lastMember => simp
  | nextMember _ _ _ _ _ _ ih => simp [List.getLast?_append, List.getLast?_cons, ih rfl]
  | _ => cases hp

lemma ends_of_written_object {ms : Json.Members} (h : Json.Written n (.value (.object ms)) cs) :
    cs.head? = some '{' ∧ cs.getLast? = some '}' := by
  cases h with
  | emptyObject => simp [List.getLast?_cons]
  | object _ _ _ _ hms =>
    simp [List.getLast?_append, List.getLast?_cons, getLast?_of_written_members hms]

/-- An event is read from every line whose text has one of the values that the event may be given
as, in particular from every way to write such a value, with any blanks around it. It carries the
given server unless it is about a reference, and keeps its instant. -/
theorem parse_of_given {e : Event} {j : Json} (h : Given e j) (now : Calendar.Timestamp)
    (provider : Option Provider) :
    (∀ line text, Text.nonBlank? line = some text → Json.parseEmbedding text = .ok j →
      parse now provider line = .ok (some (e.attach provider))) ∧
    (∀ front cs back, Text.allBlank front = true → Text.allBlank back = true →
      Json.Written Json.depthLimit (.value j) cs →
        parse now provider (String.ofList (front ++ (cs ++ back))) =
          .ok (some (e.attach provider))) ∧
    (e.attach provider).provider? = (if e.kind = .refUpdated then none else provider) ∧
    (e.attach provider).createdOn = e.createdOn := by
  have hread : ∀ line text, Text.nonBlank? line = some text → Json.parseEmbedding text = .ok j →
      parse now provider line = .ok (some (e.attach provider)) := by
    intro line text htext hj
    simp only [parse, htext, hj]
    exact ofJson_of_given h now provider
  refine ⟨hread, fun front cs back hfront hback hwritten => ?_, ?_, ?_⟩
  · refine hread _ (String.ofList cs) ?_ (Json.parseEmbedding_of_written hwritten)
    obtain ⟨ms, rfl⟩ : ∃ ms, j = .object ms := by cases h <;> exact ⟨_, rfl⟩
    obtain ⟨hhead, hlast⟩ := ends_of_written_object hwritten
    have htrim : Text.trim (front ++ (cs ++ back)) = cs := by
      refine Text.trim_append hfront hback (fun c hc => ?_) (fun c hc => ?_)
      · obtain rfl : '{' = c := by simpa [hhead] using hc
        rfl
      · obtain rfl : '}' = c := by simpa [hlast] using hc
        rfl
    have hne : cs.isEmpty = false := by cases cs <;> simp_all
    rw [Text.nonBlank?, String.toList_ofList, htrim, hne]
    rfl
  · cases h <;> rfl
  · cases h <;> rfl

/-- The patch set under its lower name, its number as a text, the uploader beside it, an instant
before the epoch, and a member that means nothing. -/
theorem parse_of_given_with_uploader_beside_patch_set :
    let facts : ReviewFacts := {
      change := ⟨"p", "b", "i", 7, "", none, none⟩
      patchSet := ⟨2, "r", "f", some ⟨some "n", none⟩⟩
      provider := none
      createdOn := ⟨-1, 0, by decide, by decide⟩ }
    let line : String := "\u00a0\x7b\"note\":[\x7b\x7d],\"type\":\"Patchset-CREATED\"," ++
      "\"eventCreatedOn\":-1,\"uploader\":\x7b\"name\":\"n\"\x7d,\"patchset\":\x7b\"number\":" ++
      "\" +02\",\"revision\":\"r\",\"ref\":\"f\"\x7d,\"change\":\x7b\"id\":\"i\",\"number\":7," ++
      "\"branch\":\"b\",\"project\":\"p\"\x7d\x7d\n"
    parse .epoch none line = .ok (some (.patchSetCreated facts)) := by
  intro facts line
  let uploader : Json := .object [("name", .string "n")]
  let patchSet : Json :=
    .object [("number", .string " +02"), ("revision", .string "r"), ("ref", .string "f")]
  let change : Json := .object [("id", .string "i"), ("number", .number (.ofNat 7)),
    ("branch", .string "b"), ("project", .string "p")]
  let ms : Json.Members := [("note", .array [.object []]), ("type", .string "Patchset-CREATED"),
    ("eventCreatedOn", .number (.ofInt (-1))), ("uploader", uploader), ("patchset", patchSet),
    ("change", change)]
  have hnumber : NumberForm 2 (.string " +02") :=
    @NumberForm.text 2 [' '] _ [] (.plus 1) rfl rfl
  have hform : ReviewForm ms facts none none none none none [] := {
    change := ⟨change, rfl, .object ⟨_, rfl, .string _⟩ ⟨_, rfl, .string _⟩ ⟨_, rfl, .string _⟩
      ⟨_, rfl, .integer 7⟩ (.inr ⟨rfl, rfl⟩) (.inl rfl) (.inl rfl)⟩
    patchSet := ⟨none, some ⟨some "n", none⟩, rfl,
      ⟨uploader, rfl, .object ⟨_, rfl, .string _⟩ (.inl rfl)⟩,
      .inr ⟨rfl, patchSet, rfl, .object ⟨_, rfl, hnumber⟩ ⟨_, rfl, .string _⟩ ⟨_, rfl, .string _⟩
        (.inl rfl)⟩⟩
    abandoner := .inl rfl
    submitter := .inl rfl
    author := .inl rfl
    reason := .inl rfl
    comment := .inl rfl
    approvals := .inl ⟨rfl, rfl⟩
    createdOn := ⟨_, rfl, .seconds rfl⟩ }
  have hgiven : Given (.patchSetCreated facts) (.object ms) :=
    .patchSetCreated ⟨_, rfl, .string (by decide)⟩ hform
  have hwritten : Json.Written Json.depthLimit (.value (.object ms)) _ :=
    Json.written_renderChars (by decide +kernel)
  have hline : String.ofList (['\u00a0'] ++ (Json.renderChars (.object ms) ++ ['\n'])) = line := by
    decide +kernel
  rw [← hline]
  exact (parse_of_given hgiven .epoch none).2.1 ['\u00a0'] _ ['\n'] rfl rfl hwritten

end Lines

end ReviewStream.Event
