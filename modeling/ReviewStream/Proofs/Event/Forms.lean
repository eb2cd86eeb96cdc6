import Mathlib.Data.List.Forall2
import Mathlib.Tactic.Lemma
import ReviewStream.Event.Parser
import ReviewStream.Proofs.Text.Numeral

/-!
# Forms of payloads

The JSON values that a record may be given as. A form speaks of the values that an object has under
the names of its fields, so its members may stand in any order and others may stand between them.
Each reader gets from a form of a record that record.
-/

namespace ReviewStream

/-- An integer as a number literal. -/
def Json.Number.ofInt (i : Int) : Json.Number := { negative := decide (i < 0), whole := i.natAbs }

namespace Payload

/-- The values under a name, in order. -/
def values (ms : Json.Members) (name : String) : List Json :=
  (ms.filter (·.1 = name)).map Prod.snd

/-- The values that a thing may be given as. -/
abbrev Form (α : Type) := α → Json → Prop

/-- The members give a thing under a name, once. -/
def Gives {α : Type} (F : Form α) (ms : Json.Members) (name : String) (a : α) : Prop :=
  ∃ j, values ms name = [j] ∧ F a j

/-- The members give a thing under a name if there is one to give; otherwise they have none or null
under the name. -/
def MayGive {α : Type} (F : Form α) (ms : Json.Members) (name : String) : Option α → Prop
  | some a => Gives F ms name a
  | none => values ms name = [] ∨ values ms name = [.null]

inductive TextForm : Form String where
  | string (s) : TextForm s (.string s)

/-- A number is given as an integer or as a text of its digits with blanks around them. -/
inductive NumberForm : Form UInt64 where
  | integer (n) : NumberForm n (.number (.ofNat n.toNat))
  | text {n front digits back} (h : Text.Numeral n.toNat digits)
      (hfront : Text.allBlank front = true) (hback : Text.allBlank back = true) :
      NumberForm n (.string (String.ofList (front ++ (digits ++ back))))

inductive AccountForm : Form Account where
  | object {a ms} (hname : MayGive TextForm ms "name" a.name)
      (hemail : MayGive TextForm ms "email" a.email) : AccountForm a (.object ms)

inductive ApprovalForm : Form Approval where
  | object {a ms} (hcategory : Gives TextForm ms "type" a.category)
      (hvalue : Gives TextForm ms "value" a.value) : ApprovalForm a (.object ms)

/-- An empty subject may be left out. -/
inductive ChangeForm : Form Change where
  | object {c ms} (hproject : Gives TextForm ms "project" c.project)
      (hbranch : Gives TextForm ms "branch" c.branch) (hid : Gives TextForm ms "id" c.id)
      (hnumber : Gives NumberForm ms "number" c.number)
      (hsubject : Gives TextForm ms "subject" c.subject ∨ c.subject = "" ∧ values ms "subject" = [])
      (howner : MayGive AccountForm ms "owner" c.owner) (hurl : MayGive TextForm ms "url" c.url) :
      ChangeForm c (.object ms)

/-- A patch set, with an uploader or without one. -/
inductive PatchSetForm (uploader : Option Account) : Form PatchSet where
  | object {p ms} (hnumber : Gives NumberForm ms "number" p.number)
      (hrevision : Gives TextForm ms "revision" p.revision)
      (hreference : Gives TextForm ms "ref" p.reference)
      (huploader : MayGive AccountForm ms "uploader" uploader) :
      PatchSetForm uploader p (.object ms)

inductive RefUpdateForm : Form RefUpdate where
  | object {u ms} (hproject : Gives TextForm ms "project" u.project)
      (hrefName : Gives TextForm ms "refName" u.refName)
      (holdRev : Gives TextForm ms "oldRev" u.oldRev)
      (hnewRev : Gives TextForm ms "newRev" u.newRev) : RefUpdateForm u (.object ms)

/-- An instant is given in whole seconds. -/
inductive InstantForm : Form Calendar.Timestamp where
  | seconds {t} (h : t.nanos = 0) : InstantForm t (.number (.ofInt t.seconds))

/-- The members of a line about a patch set, with all that such a line may hold, whatever its kind.
The patch set has two names, and its uploader may stand beside it. -/
structure ReviewForm (ms : Json.Members) (facts : ReviewFacts)
    (abandoner submitter author : Option Account) (reason comment : Option String)
    (approvals : List Approval) : Prop where
  change : Gives ChangeForm ms "change" facts.change
  patchSet : ∃ inner outer : Option Account, (inner <|> outer) = facts.patchSet.uploader ∧
    MayGive AccountForm ms "uploader" outer ∧
    (Gives (PatchSetForm inner) ms "patchSet" facts.patchSet ∧ values ms "patchset" = [] ∨
      values ms "patchSet" = [] ∧ Gives (PatchSetForm inner) ms "patchset" facts.patchSet)
  abandoner : MayGive AccountForm ms "abandoner" abandoner
  submitter : MayGive AccountForm ms "submitter" submitter
  author : MayGive AccountForm ms "author" author
  reason : MayGive TextForm ms "reason" reason
  comment : MayGive TextForm ms "comment" comment
  approvals : approvals = [] ∧ values ms "approvals" = [] ∨
    ∃ js, values ms "approvals" = [.array js] ∧ List.Forall₂ ApprovalForm approvals js
  createdOn : Gives InstantForm ms "eventCreatedOn" facts.createdOn

section Members

variable {α β : Type} {F : Form α} {read : Reader β} {f : α → β} {ms : Json.Members} {name : String}

lemma last?_eq_getLast?_values (ms : Json.Members) (name : String) :
    ms.last? name = (values ms name).getLast? := by
  rw [Json.Members.last?, values, List.getLast?_map, ← List.head?_reverse, ← List.filter_reverse,
    List.head?_filter]

/-- The reader gets from a form of a thing what `f` makes of the thing. -/
def Reads (F : Form α) (read : Reader β) (f : α → β) : Prop :=
  ∀ a j, F a j → read j = .ok (f a) ∧ j ≠ .null

lemma member_of_values_nil (h : values ms name = []) (read : Reader β) :
    member ms name read = .ok none := by
  rw [member, last?_eq_getLast?_values, h]
  rfl

lemma member_of_values {j : Json} {b : β} (h : values ms name = [j]) (hj : read j = .ok b) :
    member ms name read = .ok (some b) := by
  rw [member, last?_eq_getLast?_values, h]
  simp only [List.getLast?_singleton, hj]
  rfl

lemma member_of_gives (hr : Reads F read f) {a : α} (h : Gives F ms name a) :
    member ms name read = .ok (some (f a)) := by
  obtain ⟨j, hj, ha⟩ := h
  exact member_of_values hj (hr a j ha).1

lemma optional_of_gives (hr : Reads F read f) {a : α} (h : Gives F ms name a) :
    optional ms name read = .ok (some (f a)) := by
  obtain ⟨j, hj, ha⟩ := h
  obtain ⟨hread, hnull⟩ := hr a j ha
  have hnullable : nullable read j = .ok (some (f a)) := by
    unfold nullable
    split
    · exact absurd rfl hnull
    · rw [hread]
      rfl
  rw [optional, member_of_values hj hnullable]
  rfl

lemma optional_of_mayGive {read : Reader α} (hr : Reads F read id) {a? : Option α}
    (h : MayGive F ms name a?) : optional ms name read = .ok a? := by
  cases a? with
  | some a => exact optional_of_gives hr h
  | none =>
    obtain h | h := h
    · rw [optional, member_of_values_nil h]
      rfl
    · rw [optional, member_of_values h (show nullable read .null = .ok none from rfl)]
      rfl

end Members

section Records

lemma reads_text : Reads TextForm text id := by
  rintro s _ ⟨⟩
  exact ⟨rfl, nofun⟩

lemma numberText_of_form {n : UInt64} {j : Json} (h : NumberForm n j) :
    ∃ t, numberText j = .ok t ∧ ∀ field, t.read field = .ok n := by
  cases h with
  | integer =>
    refine ⟨.integer n, ?_, fun _ => rfl⟩
    have hnat : (Json.Number.ofNat n.toNat).nat? = some n.toNat := by
      simp [Json.Number.nat?, Json.Number.ofNat, Json.Number.isPlain, n.toNat_lt_size]
    simp [numberText, hnat]
  | @text _ front digits back h hfront hback =>
    refine ⟨.text (String.ofList (front ++ (digits ++ back))), rfl, fun field => ?_⟩
    rw [NumberText.read, String.toList_ofList, h.unsignedBelow?_trim n.toNat_lt_size hfront hback]
    simp

lemma reads_account : Reads AccountForm account id := by
  rintro a _ ⟨hname, hemail⟩
  refine ⟨?_, nofun⟩
  simp only [account, Shape.record, optional_of_mayGive reads_text hname,
    optional_of_mayGive reads_text hemail, bind, Except.bind, pure, Except.pure, id]

lemma reads_approval : Reads ApprovalForm approval id := by
  rintro a _ ⟨hcategory, hvalue⟩
  refine ⟨?_, nofun⟩
  simp only [approval, Shape.record, member_of_gives reads_text hcategory,
    member_of_gives reads_text hvalue, bind, Except.bind, pure, Except.pure, required, id]

lemma reads_refUpdate : Reads RefUpdateForm refUpdate id := by
  rintro u _ ⟨hproject, hrefName, holdRev, hnewRev⟩
  refine ⟨?_, nofun⟩
  simp only [refUpdate, Shape.record, member_of_gives reads_text hproject,
    member_of_gives reads_text hrefName, member_of_gives reads_text holdRev,
    member_of_gives reads_text hnewRev, bind, Except.bind, pure, Except.pure, required, id]

lemma reads_instant : Reads InstantForm seconds Calendar.Timestamp.seconds := by
  rintro t _ ⟨-⟩
  refine ⟨?_, nofun⟩
  have hrange := t.in_range
  simp only [Calendar.earliestSecond, Calendar.latestSecond] at hrange
  have hpow : Nat.pow 2 63 = 9223372036854775808 := rfl
  by_cases hneg : t.seconds < 0
  · have hnat : (Json.Number.ofInt t.seconds).nat? = none := by
      simp [Json.Number.nat?, Json.Number.ofInt, hneg]
    have hnegative : (Json.Number.ofInt t.seconds).negative? = some t.seconds.natAbs := by
      have hbounds : 0 < t.seconds.natAbs ∧ t.seconds.natAbs ≤ Nat.pow 2 63 := by omega
      simp only [Json.Number.negative?, Json.Number.ofInt, Json.Number.isPlain, hneg]
      simp [hbounds]
    simp only [seconds, hnat, hnegative, Except.ok.injEq]
    omega
  · have hbound : t.seconds.natAbs < UInt64.size := by
      simp only [UInt64.size]
      omega
    have hnat : (Json.Number.ofInt t.seconds).nat? = some t.seconds.natAbs := by
      simp [Json.Number.nat?, Json.Number.ofInt, Json.Number.isPlain, hneg, hbound]
    have hsmall : t.seconds.natAbs < Nat.pow 2 63 := by omega
    simp only [seconds, hnat, hsmall, if_true, Except.ok.injEq]
    omega

lemma member_number {ms : Json.Members} {name : String} {n : UInt64}
    (h : Gives NumberForm ms name n) : ∃ t, member ms name numberText = .ok (some t) ∧
      ∀ field, t.read field = .ok n := by
  obtain ⟨j, hj, hn⟩ := h
  obtain ⟨t, ht, hread⟩ := numberText_of_form hn
  exact ⟨t, member_of_values hj ht, hread⟩

lemma change_of_form {c : Change} {j : Json} (h : ChangeForm c j) : ∃ t,
    change j = .ok ⟨c.project, c.branch, c.id, t, c.subject, c.owner, c.url⟩ ∧
      ∀ field, t.read field = .ok c.number := by
  cases h with
  | @object _ ms hproject hbranch hid hnumber hsubject howner hurl =>
    obtain ⟨t, ht, hread⟩ := member_number hnumber
    obtain ⟨subject?, hsubject?, hgetD⟩ :
        ∃ s, member ms "subject" text = .ok s ∧ s.getD "" = c.subject := by
      obtain h | ⟨hempty, h⟩ := hsubject
      · exact ⟨_, member_of_gives reads_text h, rfl⟩
      · exact ⟨_, member_of_values_nil h text, hempty.symm⟩
    refine ⟨t, ?_, hread⟩
    simp only [change, Shape.record, member_of_gives reads_text hproject,
      member_of_gives reads_text hbranch, member_of_gives reads_text hid, ht, hsubject?,
      optional_of_mayGive reads_account howner, optional_of_mayGive reads_text hurl, bind,
      Except.bind, pure, Except.pure, required, hgetD, id]

lemma patchSet_of_form {uploader : Option Account} {p : PatchSet} {j : Json}
    (h : PatchSetForm uploader p j) : ∃ t,
      patchSet j = .ok ⟨t, p.revision, p.reference, uploader⟩ ∧
        ∀ field, t.read field = .ok p.number := by
  cases h with
  | object hnumber hrevision hreference huploader =>
    obtain ⟨t, ht, hread⟩ := member_number hnumber
    refine ⟨t, ?_, hread⟩
    simp only [patchSet, Shape.record, member_of_gives reads_text hrevision,
      member_of_gives reads_text hreference, ht, optional_of_mayGive reads_account huploader, bind,
      Except.bind, pure, Except.pure, required, id]

lemma mapM_approval {approvals : List Approval} {js : List Json}
    (h : List.Forall₂ ApprovalForm approvals js) : js.mapM approval = .ok approvals := by
  induction h with
  | nil => rfl
  | cons ha _ ih =>
    rw [List.mapM_cons, (reads_approval _ _ ha).1, ih]
    rfl

lemma instant_of_form {t : Calendar.Timestamp} (h : t.nanos = 0) (now : Calendar.Timestamp) :
    instant now (some t.seconds) = t := by
  have hsome : Calendar.Timestamp.ofSeconds? t.seconds = some t := by
    rw [Calendar.Timestamp.ofSeconds?, dif_pos t.in_range]
    cases t
    cases h
    rfl
  rw [instant, Option.bind_some, hsome, Option.getD_some]

lemma review_of_form {ms : Json.Members} {facts : ReviewFacts}
    {abandoner submitter author : Option Account} {reason comment : Option String}
    {approvals : List Approval}
    (h : ReviewForm ms facts abandoner submitter author reason comment approvals)
    (now : Calendar.Timestamp) (provider : Option Provider) : ∃ p, review ms = .ok p ∧
      p.facts now provider = .ok { facts with provider } ∧ p.abandoner = abandoner ∧
      p.submitter = submitter ∧ p.author = author ∧ p.reason = reason ∧ p.comment = comment ∧
      p.approvals = approvals := by
  obtain ⟨inner, outer, huploader, houter, hpatchSet⟩ := h.patchSet
  obtain ⟨_, hcj, hc⟩ := h.change
  obtain ⟨t, ht, htread⟩ := change_of_form hc
  obtain ⟨a, ha, hgetD⟩ : ∃ a, member ms "approvals" (list approval) = .ok a ∧
      a.getD [] = approvals := by
    obtain ⟨hempty, hv⟩ | ⟨js, hv, hall⟩ := h.approvals
    · exact ⟨none, member_of_values_nil hv _, hempty.symm⟩
    · exact ⟨some approvals, member_of_values hv (mapM_approval hall), rfl⟩
  obtain ⟨j, hpj, hinstant⟩ := h.createdOn
  have hcreated := optional_of_gives reads_instant ⟨j, hpj, hinstant⟩
  have hnanos : facts.createdOn.nanos = 0 := by
    cases hinstant with
    | seconds h => exact h
  -- The two names of the patch set are read at different places and come to the same.
  obtain ⟨u, hread, hpatch⟩ : ∃ u, (∀ field, u.read field = .ok facts.patchSet.number) ∧
      ((member ms "patchSet" patchSet = .ok (some ⟨u, facts.patchSet.revision,
          facts.patchSet.reference, inner⟩) ∧ ms.last? "patchset" = none) ∨
        (member ms "patchSet" patchSet = .ok none ∧ member ms "patchset" patchSet =
          .ok (some ⟨u, facts.patchSet.revision, facts.patchSet.reference, inner⟩))) := by
    obtain ⟨⟨j, hj, hp⟩, hnone⟩ | ⟨hnone, j, hj, hp⟩ := hpatchSet
    · obtain ⟨u, hu, hread⟩ := patchSet_of_form hp
      refine ⟨u, hread, .inl ⟨member_of_values hj hu, ?_⟩⟩
      rw [last?_eq_getLast?_values, hnone, List.getLast?_nil]
    · obtain ⟨u, hu, hread⟩ := patchSet_of_form hp
      exact ⟨u, hread, .inr ⟨member_of_values_nil hnone _, member_of_values hj hu⟩⟩
  let p : ReviewFields := ⟨⟨facts.change.project, facts.change.branch, facts.change.id, t,
      facts.change.subject, facts.change.owner, facts.change.url⟩,
    ⟨u, facts.patchSet.revision, facts.patchSet.reference, inner⟩, outer, abandoner, submitter,
    author, reason, comment, approvals, some facts.createdOn.seconds⟩
  refine ⟨p, ?_, ?_, rfl, rfl, rfl, rfl, rfl, rfl⟩
  · unfold review
    simp only [optional_of_mayGive reads_account h.abandoner,
      optional_of_mayGive reads_account h.submitter, optional_of_mayGive reads_account h.author,
      optional_of_mayGive reads_text h.reason, optional_of_mayGive reads_text h.comment,
      optional_of_mayGive reads_account houter, ha, member_of_values hcj ht, hcreated, bind,
      Except.bind, pure, Except.pure]
    obtain ⟨hupper, hlast⟩ | ⟨hupper, hlower⟩ := hpatch
    · simp only [hupper, hlast, required, hgetD, p]
    · simp only [hupper, hlower, required, hgetD, p]
  · simp only [ReviewFields.facts, p, htread, hread, huploader, instant_of_form hnanos, bind,
      Except.bind, pure, Except.pure]

end Records

end Payload

end ReviewStream
