import ReviewStream.Proofs.Event.Forms
import ReviewStream.Proofs.Except

/-!
# Sources of events

Where the parts of an accepted event come from. A field of a record comes from the last member of
its name, or from the element at its place where the record is an array. Each reader that accepts a
value has got all of its answer from there.
-/

namespace ReviewStream.Payload

/-- The value of a field of a record. -/
def fieldOf (j : Json) (name : String) (index : Nat) : Option Json :=
  match j with
  | .object ms => Json.Members.last? ms name
  | .array xs => xs[index]?
  | _ => none

/-- An object, or an array of all the fields of a record. -/
inductive IsRecord (size : Nat) : Json → Prop where
  | object (ms) : IsRecord size (.object ms)
  | array {xs} (h : xs.length = size) : IsRecord size (.array xs)

/-- A thing comes from a value that is there. -/
def From {α : Type} (F : Form α) (j? : Option Json) (a : α) : Prop := ∃ j, j? = some j ∧ F a j

/-- A thing that may be missing comes from a value that may be missing or null. -/
def MayFrom {α : Type} (F : Form α) (j? : Option Json) : Option α → Prop
  | some a => From F j? a
  | none => j? = none ∨ j? = some .null

structure AccountSource (a : Account) (j : Json) : Prop where
  record : IsRecord 2 j
  name : MayFrom TextForm (fieldOf j "name" 0) a.name
  email : MayFrom TextForm (fieldOf j "email" 1) a.email

structure ApprovalSource (a : Approval) (j : Json) : Prop where
  record : IsRecord 2 j
  category : From TextForm (fieldOf j "type" 0) a.category
  value : From TextForm (fieldOf j "value" 1) a.value

/-- Only a subject that is left out is read as an empty one. -/
structure ChangeSource (c : Change) (j : Json) : Prop where
  record : IsRecord 7 j
  project : From TextForm (fieldOf j "project" 0) c.project
  branch : From TextForm (fieldOf j "branch" 1) c.branch
  id : From TextForm (fieldOf j "id" 2) c.id
  number : From NumberForm (fieldOf j "number" 3) c.number
  subject : From TextForm (fieldOf j "subject" 4) c.subject ∨
    fieldOf j "subject" 4 = none ∧ c.subject = ""
  owner : MayFrom AccountSource (fieldOf j "owner" 5) c.owner
  url : MayFrom TextForm (fieldOf j "url" 6) c.url

/-- The source of a patch set, with an uploader or without one in it. -/
structure PatchSetSource (uploader : Option Account) (p : PatchSet) (j : Json) : Prop where
  record : IsRecord 4 j
  number : From NumberForm (fieldOf j "number" 0) p.number
  revision : From TextForm (fieldOf j "revision" 1) p.revision
  reference : From TextForm (fieldOf j "ref" 2) p.reference
  uploader : MayFrom AccountSource (fieldOf j "uploader" 3) uploader

structure RefUpdateSource (u : RefUpdate) (j : Json) : Prop where
  record : IsRecord 4 j
  project : From TextForm (fieldOf j "project" 0) u.project
  refName : From TextForm (fieldOf j "refName" 1) u.refName
  oldRev : From TextForm (fieldOf j "oldRev" 2) u.oldRev
  newRev : From TextForm (fieldOf j "newRev" 3) u.newRev

/-- The members name an instant, in seconds that can be represented. -/
def NamesInstant (ms : Json.Members) (t : Calendar.Timestamp) : Prop :=
  ∃ s, ms.last? "eventCreatedOn" = some (.number (.ofInt s)) ∧
    Calendar.Timestamp.ofSeconds? s = some t

/-- An instant that the members name, or the present where they name none. -/
def InstantSource (now t : Calendar.Timestamp) (ms : Json.Members) : Prop :=
  NamesInstant ms t ∨ (∀ t', ¬ NamesInstant ms t') ∧ t = now

/-- The members that all events about a patch set come from. The patch set has two names, of which
one may be used, and the uploader is the one in the patch set before the one beside it. -/
structure FactsSource (now : Calendar.Timestamp) (provider : Option Provider) (f : ReviewFacts)
    (ms : Json.Members) : Prop where
  change : From ChangeSource (ms.last? "change") f.change
  patchSet : ∃ inner outer : Option Account, f.patchSet.uploader = (inner <|> outer) ∧
    MayFrom AccountSource (ms.last? "uploader") outer ∧
    (From (PatchSetSource inner) (ms.last? "patchSet") f.patchSet ∧ ms.last? "patchset" = none ∨
      ms.last? "patchSet" = none ∧ From (PatchSetSource inner) (ms.last? "patchset") f.patchSet)
  provider : f.provider = provider
  createdOn : InstantSource now f.createdOn ms

/-- Votes come from an array of them. Without one there are none. -/
def ApprovalsSource (votes : List Approval) (ms : Json.Members) : Prop :=
  From (fun vs j => ∃ js, j = .array js ∧ List.Forall₂ ApprovalSource vs js)
      (ms.last? "approvals") votes ∨ ms.last? "approvals" = none ∧ votes = []

section Members

variable {α : Type} {F : Form α} {read : Reader α} {ms : Json.Members} {name : String}
  {xs : List Json} {shape : Shape} {index : Nat}

/-- The reader accepts a value only for what it is the source of. -/
def Traces (F : Form α) (read : Reader α) : Prop := ∀ j a, read j = .ok a → F a j

lemma nullable_eq_ok {a? : Option α} {j : Json} (hr : Traces F read)
    (h : nullable read j = .ok a?) : MayFrom F (some j) a? := by
  unfold nullable at h
  split at h
  · cases h
    exact .inr rfl
  · obtain ⟨a, ha, rfl⟩ := map_eq_ok_iff.mp h
    exact ⟨j, rfl, hr j a ha⟩

lemma member_eq_ok {a? : Option α} (hr : Traces F read) (h : member ms name read = .ok a?) :
    (∃ a, a? = some a ∧ From F (ms.last? name) a) ∨ a? = none ∧ ms.last? name = none := by
  unfold member at h
  split at h
  · rename_i j hj
    obtain ⟨a, ha, rfl⟩ := map_eq_ok_iff.mp h
    exact .inl ⟨a, rfl, j, hj, hr j a ha⟩
  · cases h
    exact .inr ⟨rfl, ‹_›⟩

lemma from_of_required {a? : Option α} {a : α} {label : String} (hr : Traces F read)
    (hm : member ms name read = .ok a?) (h : required label a? = .ok a) :
    From F (ms.last? name) a := by
  obtain ⟨b, rfl, hb⟩ | ⟨rfl, -⟩ := member_eq_ok hr hm
  · cases h
    exact hb
  · cases h

lemma mayFrom_of_optional {a? : Option α} (hr : Traces F read)
    (h : optional ms name read = .ok a?) : MayFrom F (ms.last? name) a? := by
  obtain ⟨b?, hm, rfl⟩ := map_eq_ok_iff.mp h
  obtain ⟨a?, rfl, j, hj, ha⟩ | ⟨rfl, hnone⟩ :=
    member_eq_ok (F := fun a? j => MayFrom F (some j) a?) (fun _ _ => nullable_eq_ok hr) hm
  · rwa [hj]
  · exact .inl hnone

lemma element_eq_ok {a : α} (h : shape.element xs index read = .ok a) :
    ∃ j, xs[index]? = some j ∧ read j = .ok a := by
  unfold Shape.element at h
  split at h
  · exact ⟨_, ‹_›, h⟩
  · cases h

lemma from_of_element {a : α} (hr : Traces F read) (h : shape.element xs index read = .ok a) :
    From F xs[index]? a := by
  obtain ⟨j, hj, ha⟩ := element_eq_ok h
  exact ⟨j, hj, hr j a ha⟩

lemma mayFrom_of_element {a? : Option α} (hr : Traces F read)
    (h : shape.element xs index (nullable read) = .ok a?) : MayFrom F xs[index]? a? := by
  obtain ⟨j, hj, ha⟩ := element_eq_ok h
  rw [hj]
  exact nullable_eq_ok hr ha

lemma record_eq_ok {ofMembers : Json.Members → Except Misfit α}
    {ofElements : List Json → Except Misfit α} {j : Json} {a : α}
    (h : shape.record ofMembers ofElements j = .ok a) :
    (∃ ms : Json.Members, j = .object ms ∧ ofMembers ms = .ok a) ∨
      ∃ xs, j = .array xs ∧ ofElements xs = .ok a ∧ xs.length ≤ shape.size := by
  unfold Shape.record at h
  split at h
  · exact .inl ⟨_, rfl, h⟩
  · rename_i xs
    simp only [bind_eq_ok_iff] at h
    obtain ⟨b, hb, u, hmore, hret⟩ := h
    cases hret
    unfold Shape.noMore at hmore
    split at hmore
    · cases hmore
    · exact .inr ⟨xs, rfl, hb, by omega⟩
  · cases h

lemma isRecord_of_element {a : α} (h : shape.element xs index read = .ok a)
    (hlast : index + 1 = shape.size) (hsize : xs.length ≤ shape.size) :
    IsRecord shape.size (.array xs) := by
  obtain ⟨j, hj, -⟩ := element_eq_ok h
  obtain ⟨hindex, -⟩ := List.getElem?_eq_some_iff.mp hj
  exact .array (by omega)

end Members

section Records

lemma traces_text : Traces TextForm text := by
  intro j s h
  unfold text at h
  split at h
  · cases h
    exact .string _
  · cases h

lemma traces_account : Traces AccountSource account := by
  intro j a haccount
  obtain ⟨ms, rfl, h⟩ | ⟨xs, rfl, h, hsize⟩ := record_eq_ok haccount
  · simp only [bind_eq_ok_iff] at h
    obtain ⟨email, hemail, name, hname, hret⟩ := h
    cases hret
    exact ⟨.object ms, mayFrom_of_optional traces_text hname,
      mayFrom_of_optional traces_text hemail⟩
  · simp only [bind_eq_ok_iff] at h
    obtain ⟨name, hname, email, hemail, hret⟩ := h
    cases hret
    exact ⟨isRecord_of_element hemail rfl hsize, mayFrom_of_element traces_text hname,
      mayFrom_of_element traces_text hemail⟩

lemma traces_approval : Traces ApprovalSource approval := by
  intro j a happroval
  obtain ⟨ms, rfl, h⟩ | ⟨xs, rfl, h, hsize⟩ := record_eq_ok happroval
  · simp only [bind_eq_ok_iff] at h
    obtain ⟨category?, hcategory?, value?, hvalue?, category, hcategory, value, hvalue, hret⟩ := h
    cases hret
    exact ⟨.object ms, from_of_required traces_text hcategory? hcategory,
      from_of_required traces_text hvalue? hvalue⟩
  · simp only [bind_eq_ok_iff] at h
    obtain ⟨category, hcategory, value, hvalue, hret⟩ := h
    cases hret
    exact ⟨isRecord_of_element hvalue rfl hsize, from_of_element traces_text hcategory,
      from_of_element traces_text hvalue⟩

lemma traces_refUpdate : Traces RefUpdateSource refUpdate := by
  intro j u hupdate
  obtain ⟨ms, rfl, h⟩ | ⟨xs, rfl, h, hsize⟩ := record_eq_ok hupdate
  · simp only [bind_eq_ok_iff] at h
    obtain ⟨newRev?, hnewRev?, oldRev?, holdRev?, project?, hproject?, refName?, hrefName?,
      project, hproject, refName, hrefName, oldRev, holdRev, newRev, hnewRev, hret⟩ := h
    cases hret
    exact ⟨.object ms, from_of_required traces_text hproject? hproject,
      from_of_required traces_text hrefName? hrefName,
      from_of_required traces_text holdRev? holdRev,
      from_of_required traces_text hnewRev? hnewRev⟩
  · simp only [bind_eq_ok_iff] at h
    obtain ⟨project, hproject, refName, hrefName, oldRev, holdRev, newRev, hnewRev, hret⟩ := h
    cases hret
    exact ⟨isRecord_of_element hnewRev rfl hsize, from_of_element traces_text hproject,
      from_of_element traces_text hrefName, from_of_element traces_text holdRev,
      from_of_element traces_text hnewRev⟩

/-- What an integer or a text is the source of once the number in it is read. -/
def NumberTextSource (t : NumberText) (j : Json) : Prop :=
  ∀ field n, t.read field = .ok n → NumberForm n j

lemma number_of_nat? {m : Json.Number} {k : Nat} (h : m.nat? = some k) :
    m = .ofNat k ∧ k < UInt64.size := by
  unfold Json.Number.nat? at h
  split at h
  · obtain ⟨negative, whole, fraction, exponent⟩ := m
    simp_all [Json.Number.isPlain, Json.Number.ofNat]
  · cases h

lemma number_of_negative? {m : Json.Number} {k : Nat} (h : m.negative? = some k) :
    m = .ofInt (-k) := by
  unfold Json.Number.negative? at h
  split at h
  · obtain ⟨negative, whole, fraction, exponent⟩ := m
    simp_all [Json.Number.isPlain, Json.Number.ofInt]
  · cases h

lemma traces_numberText : Traces NumberTextSource numberText := by
  intro j t h field n hn
  unfold numberText at h
  split at h
  · rename_i m
    split at h
    · rename_i k hk
      obtain ⟨rfl, hsize⟩ := number_of_nat? hk
      cases h
      cases hn
      have hform := NumberForm.integer (UInt64.ofNat k)
      rwa [UInt64.toNat_ofNat_of_lt' hsize] at hform
    · cases h
  · rename_i s
    cases h
    unfold NumberText.read at hn
    dsimp only at hn
    split at hn
    · rename_i k hk
      cases hn
      obtain ⟨hsize, front, digits, back, hdigits, hfront, hback, hs⟩ :=
        Text.numeral_of_unsignedBelow?_trim hk
      rw [← UInt64.toNat_ofNat_of_lt' hsize] at hdigits
      rw [← String.ofList_toList (s := s), hs]
      exact .text hdigits hfront hback
    · cases hn
  · cases h

def ChangeFieldsSource (c : ChangeFields) (j : Json) : Prop :=
  ∀ field n, c.number.read field = .ok n →
    ChangeSource ⟨c.project, c.branch, c.id, n, c.subject, c.owner, c.url⟩ j

lemma traces_change : Traces ChangeFieldsSource change := by
  intro j c hchange field n hn
  obtain ⟨ms, rfl, h⟩ | ⟨xs, rfl, h, hsize⟩ := record_eq_ok hchange
  · simp only [bind_eq_ok_iff] at h
    obtain ⟨branch?, hbranch?, id?, hid?, number?, hnumber?, owner, howner, project?, hproject?,
      subject?, hsubject?, url, hurl, project, hproject, branch, hbranch, id, hid, number, hnumber,
      hret⟩ := h
    cases hret
    obtain ⟨m, hm, hnumber⟩ := from_of_required traces_numberText hnumber? hnumber
    have hsubject : From TextForm (ms.last? "subject") (subject?.getD "") ∨
        ms.last? "subject" = none ∧ subject?.getD "" = "" := by
      obtain ⟨subject, rfl, hsubject⟩ | ⟨rfl, hnone⟩ := member_eq_ok traces_text hsubject?
      · exact .inl hsubject
      · exact .inr ⟨hnone, rfl⟩
    exact {
      record := .object ms
      project := from_of_required traces_text hproject? hproject
      branch := from_of_required traces_text hbranch? hbranch
      id := from_of_required traces_text hid? hid
      number := ⟨m, hm, hnumber field n hn⟩
      subject := hsubject
      owner := mayFrom_of_optional traces_account howner
      url := mayFrom_of_optional traces_text hurl }
  · simp only [bind_eq_ok_iff] at h
    obtain ⟨project, hproject, branch, hbranch, id, hid, number, hnumber, h⟩ := h
    split at h
    · rename_i subject hsubject
      simp only [bind_eq_ok_iff] at h
      obtain ⟨s, hs, owner, howner, url, hurl, hret⟩ := h
      cases hret
      obtain ⟨m, hm, hnumber⟩ := from_of_element traces_numberText hnumber
      exact {
        record := isRecord_of_element hurl rfl hsize
        project := from_of_element traces_text hproject
        branch := from_of_element traces_text hbranch
        id := from_of_element traces_text hid
        number := ⟨m, hm, hnumber field n hn⟩
        subject := .inl ⟨subject, hsubject, traces_text subject s hs⟩
        owner := mayFrom_of_element traces_account howner
        url := mayFrom_of_element traces_text hurl }
    · -- Without a fifth element there is no sixth one.
      rename_i hnone
      simp only [bind_eq_ok_iff] at h
      obtain ⟨-, -, owner, howner, -⟩ := h
      obtain ⟨j, hj, -⟩ := element_eq_ok howner
      obtain ⟨hindex, -⟩ := List.getElem?_eq_some_iff.mp hj
      have hlength := List.getElem?_eq_none_iff.mp hnone
      omega

def PatchSetFieldsSource (p : PatchSetFields) (j : Json) : Prop :=
  ∀ field n uploader, p.number.read field = .ok n →
    PatchSetSource p.uploader ⟨n, p.revision, p.reference, uploader⟩ j

lemma traces_patchSet : Traces PatchSetFieldsSource patchSet := by
  intro j p hpatchSet field n _ hn
  obtain ⟨ms, rfl, h⟩ | ⟨xs, rfl, h, hsize⟩ := record_eq_ok hpatchSet
  · simp only [bind_eq_ok_iff] at h
    obtain ⟨number?, hnumber?, reference?, hreference?, revision?, hrevision?, uploader, huploader,
      number, hnumber, revision, hrevision, reference, hreference, hret⟩ := h
    cases hret
    obtain ⟨m, hm, hnumber⟩ := from_of_required traces_numberText hnumber? hnumber
    exact {
      record := .object ms
      number := ⟨m, hm, hnumber field n hn⟩
      revision := from_of_required traces_text hrevision? hrevision
      reference := from_of_required traces_text hreference? hreference
      uploader := mayFrom_of_optional traces_account huploader }
  · simp only [bind_eq_ok_iff] at h
    obtain ⟨number, hnumber, revision, hrevision, reference, hreference, uploader, huploader,
      hret⟩ := h
    cases hret
    obtain ⟨m, hm, hnumber⟩ := from_of_element traces_numberText hnumber
    exact {
      record := isRecord_of_element huploader rfl hsize
      number := ⟨m, hm, hnumber field n hn⟩
      revision := from_of_element traces_text hrevision
      reference := from_of_element traces_text hreference
      uploader := mayFrom_of_element traces_account huploader }

lemma mapM_eq_ok {xs : List Json} {vs : List Approval} (h : xs.mapM approval = .ok vs) :
    List.Forall₂ ApprovalSource vs xs := by
  induction xs generalizing vs with
  | nil =>
    cases h
    exact .nil
  | cons j xs ih =>
    rw [List.mapM_cons] at h
    simp only [bind_eq_ok_iff] at h
    obtain ⟨v, hv, vs, hvs, hret⟩ := h
    cases hret
    exact .cons (traces_approval j v hv) (ih hvs)

lemma approvalsSource {ms : Json.Members} {vs? : Option (List Approval)}
    (h : member ms "approvals" (list approval) = .ok vs?) : ApprovalsSource (vs?.getD []) ms := by
  have htraces : Traces (fun vs j => ∃ js, j = .array js ∧ List.Forall₂ ApprovalSource vs js)
      (list approval) := by
    intro j vs h
    unfold list at h
    split at h
    · exact ⟨_, rfl, mapM_eq_ok h⟩
    · cases h
  obtain ⟨vs, rfl, hvs⟩ | ⟨rfl, hnone⟩ := member_eq_ok htraces h
  · exact .inl hvs
  · exact .inr ⟨hnone, rfl⟩

lemma traces_seconds : Traces (fun s j => j = .number (.ofInt s)) seconds := by
  intro j s h
  unfold seconds at h
  split at h
  · split at h
    · rename_i k hk
      obtain ⟨rfl, -⟩ := number_of_nat? hk
      split at h
      · cases h
        simp [Json.Number.ofInt, Json.Number.ofNat]
      · cases h
    · rename_i hk
      cases h
      rw [number_of_negative? hk]
    · cases h
  · cases h

lemma ofInt_injective {s s' : Int} (h : Json.Number.ofInt s = .ofInt s') : s = s' := by
  simp only [Json.Number.ofInt, Json.Number.mk.injEq, decide_eq_decide] at h
  omega

lemma instantSource {ms : Json.Members} {s? : Option Int}
    (h : optional ms "eventCreatedOn" seconds = .ok s?) (now : Calendar.Timestamp) :
    InstantSource now (instant now s?) ms := by
  have hs := mayFrom_of_optional traces_seconds h
  cases s? with
  | none =>
    refine .inr ⟨?_, rfl⟩
    rintro t ⟨s, hlast, -⟩
    obtain hnone | hnull := hs
    · rw [hlast] at hnone
      cases hnone
    · rw [hlast] at hnull
      cases hnull
  | some s =>
    obtain ⟨_, hlast, rfl⟩ := hs
    cases ht : Calendar.Timestamp.ofSeconds? s with
    | some t => exact .inl ⟨s, hlast, by simp [instant, ht]⟩
    | none =>
      refine .inr ⟨?_, by simp [instant, ht]⟩
      rintro t ⟨s', hlast', ht'⟩
      rw [hlast] at hlast'
      obtain rfl := ofInt_injective (by simpa using hlast')
      rw [ht] at ht'
      cases ht'

/-- What the fields of a line about a patch set come from. -/
structure ReviewSource (p : ReviewFields) (ms : Json.Members) : Prop where
  facts : ∀ now provider f, p.facts now provider = .ok f → FactsSource now provider f ms
  abandoner : MayFrom AccountSource (ms.last? "abandoner") p.abandoner
  submitter : MayFrom AccountSource (ms.last? "submitter") p.submitter
  author : MayFrom AccountSource (ms.last? "author") p.author
  reason : MayFrom TextForm (ms.last? "reason") p.reason
  comment : MayFrom TextForm (ms.last? "comment") p.comment
  approvals : ApprovalsSource p.approvals ms

/-- The patch set comes from one of its two names, under the other of which there is none. -/
def EitherName (p : PatchSetFields) (ms : Json.Members) : Prop :=
  From PatchSetFieldsSource (ms.last? "patchSet") p ∧ ms.last? "patchset" = none ∨
    ms.last? "patchSet" = none ∧ From PatchSetFieldsSource (ms.last? "patchset") p

lemma eitherName_of_match {α : Type} {ms : Json.Members} {upper : Option PatchSetFields} {a : α}
    {rest : Option PatchSetFields → Except Misfit α}
    (hupper : member ms "patchSet" patchSet = .ok upper)
    (h : (match upper, ms.last? "patchset" with
      | some _, some _ =>
        (throw (Misfit.duplicate "patchSet") : Except Misfit (Option PatchSetFields)) >>= rest
      | some p, none => pure (some p) >>= rest
      | none, _ => member ms "patchset" patchSet >>= rest) = .ok a) :
    ∃ p?, (∀ p, required "patchSet" p? = .ok p → EitherName p ms) ∧ rest p? = .ok a := by
  have hfound := member_eq_ok traces_patchSet hupper
  split at h
  · cases h
  · rename_i p hlower
    refine ⟨some p, fun q hq => ?_, h⟩
    cases hq
    obtain ⟨q, hsome, hq⟩ | ⟨hnone, -⟩ := hfound
    · cases hsome
      exact .inl ⟨hq, hlower⟩
    · cases hnone
  · obtain ⟨p?, hp?, h⟩ := bind_eq_ok_iff.mp h
    refine ⟨p?, fun p hp => ?_, h⟩
    obtain ⟨_, hsome, -⟩ | ⟨-, hnone⟩ := hfound
    · cases hsome
    · exact .inr ⟨hnone, from_of_required traces_patchSet hp? hp⟩

lemma reviewSource {ms : Json.Members} {p : ReviewFields} (h : review ms = .ok p) :
    ReviewSource p ms := by
  unfold review at h
  simp only [bind_eq_ok_iff] at h
  obtain ⟨abandoner, habandoner, approvals?, happrovals, author, hauthor, change?, hchange?,
    comment, hcomment, createdOn, hcreatedOn, upper, hupper, h⟩ := h
  obtain ⟨patchSet?, hpatchSet?, h⟩ := eitherName_of_match hupper h
  simp only [bind_eq_ok_iff] at h
  obtain ⟨reason, hreason, submitter, hsubmitter, uploader, huploader, change, hchange, patchSet,
    hpatchSet, hret⟩ := h
  cases hret
  obtain ⟨j, hj, hchange⟩ := from_of_required traces_change hchange? hchange
  refine {
    facts := fun now provider f hf => ?_
    abandoner := mayFrom_of_optional traces_account habandoner
    submitter := mayFrom_of_optional traces_account hsubmitter
    author := mayFrom_of_optional traces_account hauthor
    reason := mayFrom_of_optional traces_text hreason
    comment := mayFrom_of_optional traces_text hcomment
    approvals := approvalsSource happrovals }
  unfold ReviewFields.facts at hf
  simp only [bind_eq_ok_iff] at hf
  obtain ⟨changeNumber, hchangeNumber, patchSetNumber, hpatchSetNumber, hret⟩ := hf
  cases hret
  refine {
    change := ⟨j, hj, hchange _ _ hchangeNumber⟩
    patchSet := ⟨patchSet.uploader, uploader, rfl, mayFrom_of_optional traces_account huploader, ?_⟩
    provider := rfl
    createdOn := instantSource hcreatedOn now }
  obtain ⟨⟨j, hj, hp⟩, hnone⟩ | ⟨hnone, j, hj, hp⟩ := hpatchSet? patchSet hpatchSet
  · exact .inl ⟨⟨j, hj, hp _ _ _ hpatchSetNumber⟩, hnone⟩
  · exact .inr ⟨hnone, j, hj, hp _ _ _ hpatchSetNumber⟩

end Records

end ReviewStream.Payload

namespace ReviewStream.Event

open Payload

/-- The members that an event comes from. -/
inductive Source (now : Calendar.Timestamp) (provider : Option Provider) (ms : Json.Members) :
    Event → Prop where
  | patchSetCreated {f} (hfacts : FactsSource now provider f ms) :
      Source now provider ms (.patchSetCreated f)
  | changeAbandoned {f abandoner reason} (hfacts : FactsSource now provider f ms)
      (habandoner : MayFrom AccountSource (ms.last? "abandoner") abandoner)
      (hreason : MayFrom TextForm (ms.last? "reason") reason) :
      Source now provider ms (.changeAbandoned f abandoner reason)
  | changeMerged {f submitter} (hfacts : FactsSource now provider f ms)
      (hsubmitter : MayFrom AccountSource (ms.last? "submitter") submitter) :
      Source now provider ms (.changeMerged f submitter)
  | commentAdded {f author comment votes} (hfacts : FactsSource now provider f ms)
      (hauthor : MayFrom AccountSource (ms.last? "author") author)
      (hcomment : MayFrom TextForm (ms.last? "comment") comment)
      (hvotes : ApprovalsSource votes ms) :
      Source now provider ms (.commentAdded f author comment votes)
  | refUpdated {update submitter createdOn}
      (hupdate : From RefUpdateSource (ms.last? "refUpdate") update)
      (hsubmitter : MayFrom AccountSource (ms.last? "submitter") submitter)
      (hcreatedOn : InstantSource now createdOn ms) :
      Source now provider ms (.refUpdated update submitter createdOn)

variable {now : Calendar.Timestamp} {provider : Option Provider} {kind : EventKind}
  {ms : Json.Members} {e : Event}

lemma source_of_ofMembers (h : ofMembers now provider kind ms = .ok e) :
    e.kind = kind ∧ Source now provider ms e := by
  unfold ofMembers at h
  split at h
  · simp only [bind_eq_ok_iff, mapError_eq_ok_iff] at h
    obtain ⟨p, hp, hret⟩ := h
    cases hret
    unfold reference at hp
    simp only [bind_eq_ok_iff] at hp
    obtain ⟨createdOn, hcreatedOn, update?, hupdate?, submitter, hsubmitter, update, hupdate,
      hret⟩ := hp
    cases hret
    exact ⟨rfl, .refUpdated (from_of_required traces_refUpdate hupdate? hupdate)
      (mayFrom_of_optional traces_account hsubmitter) (instantSource hcreatedOn now)⟩
  · simp only [bind_eq_ok_iff, mapError_eq_ok_iff] at h
    obtain ⟨p, hp, f, hf, hret⟩ := h
    have hsource := reviewSource hp
    have hfacts := hsource.facts now provider f hf
    cases kind with
    | patchSetCreated =>
      cases hret
      exact ⟨rfl, .patchSetCreated hfacts⟩
    | changeAbandoned =>
      cases hret
      exact ⟨rfl, .changeAbandoned hfacts hsource.abandoner hsource.reason⟩
    | changeMerged =>
      cases hret
      exact ⟨rfl, .changeMerged hfacts hsource.submitter⟩
    | commentAdded =>
      cases hret
      exact ⟨rfl, .commentAdded hfacts hsource.author hsource.comment hsource.approvals⟩
    | refUpdated => exact absurd rfl ‹_›

end ReviewStream.Event
