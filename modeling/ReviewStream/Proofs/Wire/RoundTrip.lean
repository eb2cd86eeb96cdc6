import ReviewStream.Proofs.Calendar.Timestamp
import ReviewStream.Proofs.Json.Record
import ReviewStream.Watchdog.Window
import ReviewStream.Wire

/-!
# Values read back

Events, keys, builds, servers, accounts and exception windows are read back from their JSON text.
Each record has a lemma that its decoder undoes its writer and one that its JSON form, nested no
deeper than the record, can be read from text.
-/

namespace ReviewStream

open Json Json.Decoder

section Parts

variable {n : Nat}

lemma undoes_account : Undoes Account.ofJson? Account.toJson := by
  intro a
  refine ⟨?_, nofun⟩
  simp [Account.toJson, Account.ofJson?, optionalField?, single?, ofText?_eq_ofOption,
    undoes_text.nullable]

lemma readable_account (a : Account) : readable (n + 1) a.toJson = true := by
  simp [Account.toJson, readable, readableMembers, embeddingName]

lemma undoes_provider : Undoes Provider.ofJson? Provider.toJson := by
  intro p
  refine ⟨?_, nofun⟩
  simp [Provider.toJson, Provider.ofJson?, field?, optionalField?, single?, text, word16_ofNat,
    ofText?_eq_ofOption, undoes_text.nullable]

lemma readable_provider (p : Provider) : readable (n + 1) p.toJson = true := by
  simp [Provider.toJson, readable, readableMembers, embeddingName]

lemma undoes_approval : Undoes Approval.ofJson? Approval.toJson := by
  intro a
  refine ⟨?_, nofun⟩
  simp [Approval.toJson, Approval.ofJson?, field?, single?, text]

lemma readable_approval (a : Approval) : readable (n + 1) a.toJson = true := by
  simp [Approval.toJson, readable, readableMembers, embeddingName]

lemma undoes_change : Undoes Change.ofJson? Change.toJson := by
  intro c
  refine ⟨?_, nofun⟩
  simp [Change.toJson, Change.ofJson?, field?, optionalField?, single?, text, word64_ofNat,
    ofText?_eq_ofOption, undoes_text.nullable, undoes_account.nullable]

lemma readable_change (c : Change) : readable (n + 2) c.toJson = true := by
  simp [Change.toJson, readable, readableMembers, embeddingName, readable_ofOption readable_account]

lemma undoes_patchSet : Undoes PatchSet.ofJson? PatchSet.toJson := by
  intro p
  refine ⟨?_, nofun⟩
  simp [PatchSet.toJson, PatchSet.ofJson?, field?, optionalField?, single?, text, word64_ofNat,
    undoes_account.nullable]

lemma readable_patchSet (p : PatchSet) : readable (n + 2) p.toJson = true := by
  simp [PatchSet.toJson, readable, readableMembers, embeddingName,
    readable_ofOption readable_account]

lemma undoes_refUpdate : Undoes RefUpdate.ofJson? RefUpdate.toJson := by
  intro r
  refine ⟨?_, nofun⟩
  simp [RefUpdate.toJson, RefUpdate.ofJson?, field?, single?, text]

lemma readable_refUpdate (r : RefUpdate) : readable (n + 1) r.toJson = true := by
  simp [RefUpdate.toJson, readable, readableMembers, embeddingName]

lemma undoes_timestamp : Undoes Calendar.Timestamp.ofJson? Calendar.Timestamp.toJson :=
  fun t => ⟨t.parse?_render, nofun⟩

lemma readable_timestamp (t : Calendar.Timestamp) : readable n t.toJson = true :=
  readable_string t.render

end Parts

section Events

variable {n : Nat}

lemma ofName?_name (k : EventKind) : EventKind.ofName? k.name = some k := by
  cases k <;> rfl

lemma single?_append {ms own : Members} {name : String} (h : name ∉ own.map Prod.fst) :
    single? (ms ++ own) name = single? ms name := by
  have hown : own.filter (fun m => m.1 = name) = [] := by
    refine List.filter_eq_nil_iff.mpr fun m hm heq => h ?_
    simp only [decide_eq_true_eq] at heq
    exact heq ▸ List.mem_map_of_mem hm
  rw [single?, single?, List.filter_append, hown, List.append_nil]

lemma ofMembers?_toMembers (f : ReviewFacts) (t : Json) {own : Members}
    (h : ∀ m ∈ f.toMembers, m.1 ∉ own.map Prod.fst) :
    ReviewFacts.ofMembers? (("type", t) :: (f.toMembers ++ own)) = some f := by
  simp only [ReviewFacts.toMembers, List.forall_mem_cons] at h
  obtain ⟨hchange, hpatchSet, hprovider, hcreatedOn, -⟩ := h
  rw [← List.cons_append]
  simp only [ReviewFacts.ofMembers?, field?, optionalField?, single?_append hchange,
    single?_append hpatchSet, single?_append hprovider, single?_append hcreatedOn]
  simp [ReviewFacts.toMembers, single?, (undoes_change _).1, (undoes_patchSet _).1,
    (undoes_timestamp _).1, undoes_provider.nullable]

lemma ownMembers_of_facts {e : Event} {f : ReviewFacts} (h : e.facts? = some f) :
    ∀ m ∈ f.toMembers, m.1 ∉ e.ownMembers.map Prod.fst := by
  cases e <;> simp [Event.facts?] at h <;> simp [ReviewFacts.toMembers, Event.ownMembers]

lemma ofFields?_members (e : Event) (t : Json) :
    Event.ofFields? e.kind (("type", t) ::
      ((e.facts?.map ReviewFacts.toMembers).getD [] ++ e.ownMembers)) = some e := by
  -- The shared members have to be read as a whole before the own ones are looked for among them.
  have hfacts : ∀ f, e.facts? = some f →
      ReviewFacts.ofMembers? (("type", t) :: (f.toMembers ++ e.ownMembers)) = some f :=
    fun f hf => ofMembers?_toMembers f t (ownMembers_of_facts hf)
  cases e with
  | patchSetCreated f =>
    simp only [Event.kind, Event.ofFields?, Event.facts?, Option.map_some, Option.getD_some,
      hfacts f rfl]
  | changeAbandoned f abandoner reason =>
    simp only [Event.kind, Event.ofFields?, Event.facts?, Option.map_some, Option.getD_some,
      hfacts f rfl]
    simp [ReviewFacts.toMembers, Event.ownMembers, optionalField?, single?, ofText?_eq_ofOption,
      undoes_text.nullable, undoes_account.nullable]
  | changeMerged f submitter =>
    simp only [Event.kind, Event.ofFields?, Event.facts?, Option.map_some, Option.getD_some,
      hfacts f rfl]
    simp [ReviewFacts.toMembers, Event.ownMembers, optionalField?, single?, undoes_account.nullable]
  | commentAdded f author comment approvals =>
    simp only [Event.kind, Event.ofFields?, Event.facts?, Option.map_some, Option.getD_some,
      hfacts f rfl]
    simp [ReviewFacts.toMembers, Event.ownMembers, field?, optionalField?, single?,
      ofText?_eq_ofOption, undoes_text.nullable, undoes_account.nullable, undoes_approval.list]
  | refUpdated update submitter createdOn =>
    simp [Event.kind, Event.ofFields?, Event.facts?, Event.ownMembers, field?, optionalField?,
      single?, undoes_account.nullable, (undoes_refUpdate _).1, (undoes_timestamp _).1]

lemma undoes_event : Undoes Event.ofJson? Event.toJson := by
  intro e
  refine ⟨?_, nofun⟩
  have hown : "type" ∉
      ((e.facts?.map ReviewFacts.toMembers).getD [] ++ e.ownMembers).map Prod.fst := by
    cases e <;> simp [Event.facts?, ReviewFacts.toMembers, Event.ownMembers]
  have htype : field? (("type", .string e.kind.name) ::
      ((e.facts?.map ReviewFacts.toMembers).getD [] ++ e.ownMembers)) "type"
      (fun j => (text j).bind EventKind.ofName?) = some e.kind := by
    rw [← List.singleton_append, field?, single?_append hown]
    simp [single?, text, ofName?_name]
  rw [Event.toJson, Event.ofJson?, htype]
  exact ofFields?_members e _

lemma readableMembers_append {ms ms' : Members} (h : readableMembers n ms = true)
    (h' : readableMembers n ms' = true) : readableMembers n (ms ++ ms') = true := by
  induction ms with
  | nil => exact h'
  | cons m ms ih =>
    simp only [readableMembers, Bool.and_eq_true] at h
    simp only [List.cons_append, readableMembers, h.1, ih h.2, Bool.and_self]

lemma readable_toMembers (f : ReviewFacts) : readableMembers (n + 2) f.toMembers = true := by
  simp [ReviewFacts.toMembers, readableMembers, readable_change, readable_patchSet,
    readable_timestamp, readable_ofOption readable_provider]

lemma readable_event (e : Event) : readable (n + 3) e.toJson = true := by
  have hfacts : readableMembers (n + 2) ((e.facts?.map ReviewFacts.toMembers).getD []) = true := by
    cases e.facts? with
    | none => rfl
    | some f => exact readable_toMembers f
  have hown : readableMembers (n + 2) e.ownMembers = true := by
    cases e <;> simp [Event.ownMembers, readable, readableMembers, readable_refUpdate,
      readable_timestamp, readable_ofOption readable_account,
      readableElements_map readable_approval]
  simp [Event.toJson, readable, readableMembers, embeddingName, readableMembers_append hfacts hown]

end Events

section Records

variable {n : Nat}

lemma undoes_patchSetKey : Undoes PatchSetKey.ofJson? PatchSetKey.toJson := by
  intro k
  refine ⟨?_, nofun⟩
  simp [PatchSetKey.toJson, PatchSetKey.ofJson?, field?, single?, word64_ofNat]

lemma readable_patchSetKey (k : PatchSetKey) : readable (n + 1) k.toJson = true := by
  simp [PatchSetKey.toJson, readable, readableMembers, embeddingName]

lemma undoes_buildResult : Undoes BuildResult.ofJson? BuildResult.toJson := by
  intro r
  refine ⟨?_, nofun⟩
  cases r <;> rfl

lemma resultToJson_eq_ofOption : Build.resultToJson = ofOption BuildResult.toJson := by
  funext r?
  cases r? <;> rfl

lemma undoes_build : Undoes Build.ofJson? Build.toJson := by
  intro b
  refine ⟨?_, nofun⟩
  simp [Build.toJson, Build.ofJson?, field?, optionalField?, single?, text, word64_ofNat,
    resultToJson_eq_ofOption, undoes_buildResult.nullable]

lemma readable_build (b : Build) : readable (n + 1) b.toJson = true := by
  have hresult : readable n (ofOption BuildResult.toJson b.result) = true :=
    readable_ofOption (fun r => readable_string r.name) b.result
  simp [Build.toJson, readable, readableMembers, embeddingName, resultToJson_eq_ofOption, hresult]

open Watchdog

lemma undoes_timeOfDay : Undoes TimeOfDay.ofJson? TimeOfDay.toJson := by
  intro t
  refine ⟨?_, nofun⟩
  simp [TimeOfDay.toJson, TimeOfDay.ofJson?, field?, single?, word32_ofNat]

lemma readable_timeOfDay (t : TimeOfDay) : readable (n + 1) t.toJson = true := by
  simp [TimeOfDay.toJson, readable, readableMembers, embeddingName]

lemma undoes_timeSpan : Undoes TimeSpan.ofJson? TimeSpan.toJson := by
  intro s
  refine ⟨?_, nofun⟩
  simp [TimeSpan.toJson, TimeSpan.ofJson?, field?, single?, (undoes_timeOfDay _).1]

lemma readable_timeSpan (s : TimeSpan) : readable (n + 2) s.toJson = true := by
  simp [TimeSpan.toJson, readable, readableMembers, embeddingName, readable_timeOfDay]

lemma undoes_weekday : Undoes Exceptions.weekdayOfJson? Exceptions.weekdayToJson := by
  intro d
  refine ⟨?_, nofun⟩
  cases d <;> rfl

lemma readable_weekday (d : Calendar.Weekday) : readable n (Exceptions.weekdayToJson d) = true :=
  readable_string d.short

lemma undoes_exceptions : Undoes Exceptions.ofJson? Exceptions.toJson := by
  intro x
  refine ⟨?_, nofun⟩
  simp [Exceptions.toJson, Exceptions.ofJson?, field?, single?, undoes_weekday.list,
    undoes_timeSpan.list]

lemma readable_exceptions (x : Exceptions) : readable (n + 4) x.toJson = true := by
  simp [Exceptions.toJson, readable, readableMembers, embeddingName,
    readableElements_map readable_weekday, readableElements_map readable_timeSpan]

end Records

/-- Events are kept as a whole until their kind is known. -/
def Event.codec : Codec Event := ⟨true, toJson, ofJson?⟩

def PatchSetKey.codec : Codec PatchSetKey := ⟨false, toJson, ofJson?⟩

def Build.codec : Codec Build := ⟨false, toJson, ofJson?⟩

def Provider.codec : Codec Provider := ⟨false, toJson, ofJson?⟩

def Account.codec : Codec Account := ⟨false, toJson, ofJson?⟩

def Watchdog.TimeSpan.codec : Codec Watchdog.TimeSpan := ⟨false, toJson, ofJson?⟩

def Watchdog.Exceptions.codec : Codec Watchdog.Exceptions := ⟨false, toJson, ofJson?⟩

/-- The texts of all values that are exchanged are read back, whatever strings, numbers, missing
parts and timestamps they hold. -/
theorem codecs_faithful : Event.codec.Faithful ∧ PatchSetKey.codec.Faithful ∧
    Build.codec.Faithful ∧ Provider.codec.Faithful ∧ Account.codec.Faithful ∧
    Watchdog.TimeSpan.codec.Faithful ∧ Watchdog.Exceptions.codec.Faithful := by
  refine ⟨?event, ?key, ?build, ?provider, ?account, ?span, ?exceptions⟩
  case event => exact Codec.faithful_of_undoes undoes_event (readable_event (n := 124))
  case key => exact Codec.faithful_of_undoes undoes_patchSetKey (readable_patchSetKey (n := 126))
  case build => exact Codec.faithful_of_undoes undoes_build (readable_build (n := 126))
  case provider => exact Codec.faithful_of_undoes undoes_provider (readable_provider (n := 126))
  case account => exact Codec.faithful_of_undoes undoes_account (readable_account (n := 126))
  case span => exact Codec.faithful_of_undoes undoes_timeSpan (readable_timeSpan (n := 125))
  case exceptions =>
    exact Codec.faithful_of_undoes undoes_exceptions (readable_exceptions (n := 123))

end ReviewStream
