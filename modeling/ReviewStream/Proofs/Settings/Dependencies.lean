import ReviewStream.Proofs.Gate.Configured
import ReviewStream.Proofs.Text.Basic
import ReviewStream.Settings.Basic

/-!
# Configured dependencies

A text configures dependencies piece by piece. Each piece between semicolons that is not blank has
to write an entry, and the first one that does not is reported. Since entries are trimmed and hold
no semicolons, the text that they are rendered to configures the same entries again.
-/

namespace ReviewStream.Settings

variable {s : String} {cs : List Char} {e : InvalidEntry}
  {entry : JobName × String} {entries : List (JobName × String)}

/-- The pieces of a text that are not blank. -/
def writtenPieces (s : String) : List (List Char) :=
  (Text.pieces ';' s.toList).filter fun p => !Text.allBlank p

/-- A piece writes an entry: a job that is not blank, followed by `=` and by names. -/
def Writes (piece : List Char) (entry : JobName × String) : Prop :=
  ∃ job names, piece = job ++ '=' :: names ∧ '=' ∉ job ∧ Text.allBlank job = false ∧
    entry = (String.ofList (Text.trim job), String.ofList (Text.trim names))

lemma parseEntry_eq_ok_iff : parseEntry cs = .ok entry ↔ Writes cs entry := by
  unfold parseEntry
  constructor
  · intro h
    split at h
    · cases h
    · rename_i job names hsplit
      obtain ⟨hcs, hjob⟩ := Text.splitFirst?_eq_some_iff.mp hsplit
      simp only [Text.isEmpty_trim] at h
      split at h
      · cases h
      · rename_i hblank
        cases h
        exact ⟨job, names, hcs, hjob, Bool.eq_false_iff.mpr hblank, rfl⟩
  · rintro ⟨job, names, rfl, hjob, hblank, rfl⟩
    simp only [Text.splitFirst?_append hjob, Text.isEmpty_trim, hblank, Bool.false_eq_true,
      if_false]

lemma entry_of_parseEntry_eq_error (h : parseEntry cs = .error e) : e = ⟨String.ofList cs⟩ := by
  unfold parseEntry at h
  split at h
  · cases h
    rfl
  · dsimp only at h
    split at h <;> cases h
    rfl

lemma parseEntry_eq_error_iff :
    parseEntry cs = .error e ↔ (¬ ∃ entry, Writes cs entry) ∧ e = ⟨String.ofList cs⟩ := by
  constructor
  · intro h
    refine ⟨?_, entry_of_parseEntry_eq_error h⟩
    rintro ⟨entry, hentry⟩
    rw [parseEntry_eq_ok_iff.mpr hentry] at h
    cases h
  · rintro ⟨hnone, rfl⟩
    cases hparse : parseEntry cs with
    | ok entry => exact absurd ⟨entry, parseEntry_eq_ok_iff.mp hparse⟩ hnone
    | error e => rw [entry_of_parseEntry_eq_error hparse]

lemma writes_trim_iff : Writes (Text.trim cs) entry ↔ Writes cs entry := by
  constructor
  · rintro ⟨job, names, heq, hjob, hblank, rfl⟩
    obtain ⟨front, back, hfront, hback, hcs⟩ := Text.exists_eq_append_trim cs
    have hsign : '=' ∉ front := fun hmem => nomatch Text.allBlank_iff.mp hfront '=' hmem
    have hjob' : Text.trim (front ++ job) = Text.trim job := Text.trim_blanks_append hfront
    have hnames' : Text.trim (names ++ back) = Text.trim names := Text.trim_append_blanks hback
    refine ⟨front ++ job, names ++ back, ?_, ?_, ?_, ?_⟩
    · rw [hcs, heq]
      simp
    · simp [hsign, hjob]
    · rw [← Text.isEmpty_trim, hjob', Text.isEmpty_trim, hblank]
    · rw [hjob', hnames']
  · rintro ⟨job, names, rfl, hjob, hblank, rfl⟩
    refine ⟨Text.trimStart job, Text.trimEnd names, Text.trim_append_cons rfl, ?_, ?_, ?_⟩
    · exact fun hmem => hjob ((List.dropWhile_suffix _).subset hmem)
    · rw [Text.allBlank_trimStart, hblank]
    · rw [Text.trim_trimStart, Text.trim_trimEnd]

lemma readsList_parseDependencies : Text.ReadsList ';' parseDependencies Writes fun p e =>
    (¬ ∃ entry, Writes p entry) ∧ e = ⟨String.ofList (Text.trim p)⟩ :=
  Text.readsList_of_piece (fun _ => rfl)
    (fun p entry => by rw [parseEntry_eq_ok_iff, writes_trim_iff])
    (fun p e => by simp only [parseEntry_eq_error_iff, writes_trim_iff])

lemma parseDependencies_eq_ok_iff :
    parseDependencies s = .ok entries ↔ List.Forall₂ Writes (writtenPieces s) entries :=
  readsList_parseDependencies.accepts s entries

lemma parseDependencies_eq_error_iff : parseDependencies s = .error e ↔
    ∃ good bad rest, writtenPieces s = good ++ bad :: rest ∧
      (∀ p ∈ good, ∃ entry, Writes p entry) ∧ (¬ ∃ entry, Writes bad entry) ∧
      e = ⟨String.ofList (Text.trim bad)⟩ :=
  readsList_parseDependencies.rejects s e

lemma exists_parseDependencies_iff : (∃ entries, parseDependencies s = .ok entries) ↔
    ∀ p ∈ writtenPieces s, ∃ entry, Writes p entry :=
  readsList_parseDependencies.accepted s

/-- An entry as a piece of a text. -/
def renderEntry (entry : JobName × String) : List Char :=
  entry.1.toList ++ '=' :: entry.2.toList

/-- Entries as one text. -/
def renderDependencies (entries : List (JobName × String)) : String :=
  String.ofList (Text.join ';' (entries.map renderEntry))

lemma Writes.allBlank_eq_false (h : Writes cs entry) : Text.allBlank cs = false := by
  obtain ⟨job, names, rfl, -, -, -⟩ := h
  rw [Text.allBlank, List.all_append, List.all_cons]
  simp [Text.isBlank]

lemma Writes.renderEntry (h : Writes cs entry) : Writes (renderEntry entry) entry := by
  obtain ⟨job, names, rfl, hjob, hblank, rfl⟩ := h
  refine ⟨Text.trim job, Text.trim names, ?_, ?_, ?_, ?_⟩
  · simp [Settings.renderEntry]
  · exact fun hmem => hjob (Text.mem_of_mem_trim hmem)
  · rw [← Text.isEmpty_trim, Text.trim_trim, Text.isEmpty_trim, hblank]
  · rw [Text.trim_trim, Text.trim_trim]

lemma Writes.not_mem_renderEntry {c : Char} (h : Writes cs entry) (hc : c ∉ cs) :
    c ∉ Settings.renderEntry entry := by
  obtain ⟨job, names, rfl, -, -, rfl⟩ := h
  simp only [List.mem_append, List.mem_cons, not_or] at hc
  obtain ⟨hjob, hsign, hnames⟩ := hc
  have hjob' : c ∉ Text.trim job := fun hmem => hjob (Text.mem_of_mem_trim hmem)
  have hnames' : c ∉ Text.trim names := fun hmem => hnames (Text.mem_of_mem_trim hmem)
  simp [Settings.renderEntry, hjob', hsign, hnames']

lemma parseDependencies_renderDependencies
    (h : ∀ entry ∈ entries, Writes (renderEntry entry) entry ∧ ';' ∉ renderEntry entry) :
    parseDependencies (renderDependencies entries) = .ok entries := by
  have hwrites : List.Forall₂ Writes (entries.map renderEntry) entries :=
    List.forall₂_map_left_iff.mpr (List.forall₂_same.mpr fun entry hentry => (h entry hentry).1)
  have hpieces : writtenPieces (renderDependencies entries) = entries.map renderEntry := by
    rw [writtenPieces, renderDependencies, String.toList_ofList]
    refine Text.writtenPieces_join fun p hp => ?_
    obtain ⟨entry, hentry, rfl⟩ := List.mem_map.mp hp
    exact ⟨(h entry hentry).2, (h entry hentry).1.allBlank_eq_false⟩
  rw [parseDependencies_eq_ok_iff, hpieces]
  exact hwrites

lemma parseDependencies_render_of_ok (h : parseDependencies s = .ok entries) :
    parseDependencies (renderDependencies entries) = .ok entries := by
  refine parseDependencies_renderDependencies fun entry hentry => ?_
  obtain ⟨p, hp, hwrites⟩ :=
    exists_of_forall₂_of_mem_right (parseDependencies_eq_ok_iff.mp h) hentry
  have hpiece : p ∈ Text.pieces ';' s.toList := (List.mem_filter.mp hp).1
  exact ⟨hwrites.renderEntry, hwrites.not_mem_renderEntry (Text.not_mem_of_mem_pieces hpiece)⟩

lemma jobDependencies_ofLookup {lookup : String → Option String}
    (h : value? lookup "JOB_DEPENDENCIES" = some s) :
    (ofLookup lookup).jobDependencies = ((parseDependencies s).toOption).getD [] := by
  change list lookup "JOB_DEPENDENCIES" parseDependencies = _
  rw [list, h, Option.bind_some]

/-- What becomes of the entries that a text configures. -/
structure Reaches (s : String) (entries : List (JobName × String)) : Prop where
  /-- The pieces that are not blank write the entries, in order. -/
  written : List.Forall₂ Writes (writtenPieces s) entries
  /-- They are the entries of the settings with this text. -/
  configured : ∀ lookup, value? lookup "JOB_DEPENDENCIES" = some s →
    (ofLookup lookup).jobDependencies = entries
  /-- A job has all the names of its last entry. -/
  latest : ∀ job before names after, entries = before ++ (job, names) :: after →
    (∀ e ∈ after, e.1 ≠ job) →
    (Gate.Directory.ofDependencies entries).dependencies job = Gate.namesIn names
  /-- A job without an entry depends on nothing, also when it is mentioned. -/
  missing : ∀ job, (∀ e ∈ entries, e.1 ≠ job) →
    (Gate.Directory.ofDependencies entries).dependencies job = []
  rendered : parseDependencies (renderDependencies entries) = .ok entries

lemma reaches_of_ok (h : parseDependencies s = .ok entries) : Reaches s entries where
  written := parseDependencies_eq_ok_iff.mp h
  configured := by
    intro lookup hs
    rw [jobDependencies_ofLookup hs, h]
    rfl
  latest := by
    rintro job before names after rfl hafter
    exact Gate.Directory.dependencies_ofDependencies hafter
  missing := fun _ hjob => Gate.Directory.dependencies_ofDependencies_eq_nil hjob
  rendered := parseDependencies_render_of_ok h

/-- The entries of a text reach the directory as they were written. A text is accepted if all its
pieces write entries; else the first one that does not is reported, and nothing is configured. -/
theorem dependencies_reach_directory (s : String) :
    (∀ entries, parseDependencies s = .ok entries → Reaches s entries) ∧
    ((∃ entries, parseDependencies s = .ok entries) ↔
      ∀ p ∈ writtenPieces s, ∃ entry, Writes p entry) ∧
    (∀ e, parseDependencies s = .error e ↔
      ∃ good bad rest, writtenPieces s = good ++ bad :: rest ∧
        (∀ p ∈ good, ∃ entry, Writes p entry) ∧ (¬ ∃ entry, Writes bad entry) ∧
        e = ⟨String.ofList (Text.trim bad)⟩) ∧
    (∀ e lookup, parseDependencies s = .error e →
      value? lookup "JOB_DEPENDENCIES" = some s → (ofLookup lookup).jobDependencies = []) := by
  refine ⟨fun _ => reaches_of_ok, exists_parseDependencies_iff,
    fun _ => parseDependencies_eq_error_iff, ?_⟩
  intro e lookup h hs
  rw [jobDependencies_ofLookup hs, h]
  rfl

/-- The second entry of a job counts, and jobs that are mentioned before keep their entries. -/
theorem dependencies_of_repeated_job : ∃ entries,
    parseDependencies " test = build ; deploy=build, ,test;;build= ;test = lint,build" =
      .ok entries ∧
    (Gate.Directory.ofDependencies entries).dependencies "test" = ["lint", "build"] ∧
    (Gate.Directory.ofDependencies entries).dependencies "deploy" = ["build", "test"] ∧
    (Gate.Directory.ofDependencies entries).dependencies "lint" = [] := by
  have hparse : parseDependencies
      " test = build ; deploy=build, ,test;;build= ;test = lint,build" =
        .ok [("test", "build"), ("deploy", "build, ,test"), ("build", ""),
          ("test", "lint,build")] := by
    decide
  have hreaches := (dependencies_reach_directory _).1 _ hparse
  have htest := hreaches.latest "test"
    [("test", "build"), ("deploy", "build, ,test"), ("build", "")] "lint,build" [] rfl (by simp)
  have hdeploy := hreaches.latest "deploy" [("test", "build")] "build, ,test"
    [("build", ""), ("test", "lint,build")] rfl (by simp)
  have hlint : Gate.namesIn "lint,build" = ["lint", "build"] := by decide
  have hbuild : Gate.namesIn "build, ,test" = ["build", "test"] := by decide
  exact ⟨_, hparse, htest.trans hlint, hdeploy.trans hbuild, hreaches.missing "lint" (by simp)⟩

end ReviewStream.Settings
