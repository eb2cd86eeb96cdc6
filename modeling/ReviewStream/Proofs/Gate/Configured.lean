import ReviewStream.Proofs.Gate.Directory

/-!
# Directories of configured dependencies

A directory that is filled from a list of entries answers every job with the names of its last
entry. Nothing depends on where a job is mentioned by other entries, since a mention leaves what is
written down for a job alone, and since everything that is mentioned stays known.
-/

namespace ReviewStream.Gate

/-- The trimmed names between the commas of a text, less the blank ones. -/
def namesIn (s : String) : List JobName :=
  ((Text.pieces ',' s.toList).map fun p => String.ofList (Text.trim p)).filter (· ≠ "")

namespace Directory

variable {d : Directory} {job name : JobName} {text : Option String} {names : String}
  {mentioned : List JobName} {before after entries : List (JobName × String)}

lemma dependencyText?_add :
    (d.add name text).dependencyText? job = if name = job then text else d.dependencyText? job := by
  by_cases h : name = job <;> simp [add, dependencyText?, h]

lemma knows_add : (d.add name text).knows job = true ↔ name = job ∨ d.knows job = true := by
  simp [add, knows]

lemma dependencyText?_of_not_knows (h : d.knows job = false) : d.dependencyText? job = none := by
  have hfind : (d.entries.find? fun e => e.1 = job) = none := by
    simpa [knows, List.find?_eq_none] using h
  rw [dependencyText?, hfind, Option.bind_none]

lemma dependencyText?_mention : (d.mention name).dependencyText? job = d.dependencyText? job := by
  unfold mention
  split
  · rfl
  · rename_i hname
    rw [dependencyText?_add]
    split
    · rename_i hjob
      subst hjob
      exact (dependencyText?_of_not_knows (Bool.eq_false_iff.mpr hname)).symm
    · rfl

lemma knows_mention : (d.mention name).knows job = true ↔ name = job ∨ d.knows job = true := by
  unfold mention
  split
  · rename_i hname
    constructor
    · exact Or.inr
    · rintro (rfl | h)
      · exact hname
      · exact h
  · exact knows_add

lemma dependencyText?_mentioned :
    (mentioned.foldl mention d).dependencyText? job = d.dependencyText? job := by
  induction mentioned generalizing d with
  | nil => rfl
  | cons name mentioned ih => rw [List.foldl_cons, ih, dependencyText?_mention]

lemma knows_mentioned :
    (mentioned.foldl mention d).knows job = true ↔ job ∈ mentioned ∨ d.knows job = true := by
  induction mentioned generalizing d with
  | nil => simp
  | cons name mentioned ih =>
    rw [List.foldl_cons, ih, knows_mention, List.mem_cons, or_left_comm, or_assoc, eq_comm]

lemma ofDependencies_append_singleton :
    ofDependencies (entries ++ [(job, names)]) =
      ((nameList names).foldl mention (ofDependencies entries)).add job (some names) := by
  rw [ofDependencies, List.foldl_append]
  rfl

lemma dependencyText?_ofDependencies (h : ∀ e ∈ after, e.1 ≠ job) :
    (ofDependencies (before ++ (job, names) :: after)).dependencyText? job = some names := by
  induction after using List.reverseRecOn with
  | nil => rw [ofDependencies_append_singleton, dependencyText?_add, if_pos rfl]
  | append_singleton after e ih =>
    obtain ⟨other, text⟩ := e
    have hother : other ≠ job := h (other, text) (by simp)
    have hafter : ∀ e ∈ after, e.1 ≠ job := fun e he => h e (by simp [he])
    rw [← List.cons_append, ← List.append_assoc, ofDependencies_append_singleton,
      dependencyText?_add, if_neg hother, dependencyText?_mentioned]
    exact ih hafter

lemma dependencyText?_ofDependencies_eq_none (h : ∀ e ∈ entries, e.1 ≠ job) :
    (ofDependencies entries).dependencyText? job = none := by
  induction entries using List.reverseRecOn with
  | nil => rfl
  | append_singleton entries e ih =>
    obtain ⟨other, text⟩ := e
    have hother : other ≠ job := h (other, text) (by simp)
    have hentries : ∀ e ∈ entries, e.1 ≠ job := fun e he => h e (by simp [he])
    rw [ofDependencies_append_singleton, dependencyText?_add, if_neg hother,
      dependencyText?_mentioned]
    exact ih hentries

lemma knows_ofDependencies (h : (job, names) ∈ entries) (hname : name ∈ nameList names) :
    (ofDependencies entries).knows name = true := by
  induction entries using List.reverseRecOn with
  | nil => cases h
  | append_singleton entries e ih =>
    obtain ⟨other, text⟩ := e
    rw [ofDependencies_append_singleton, knows_add, knows_mentioned]
    rcases List.mem_append.mp h with hentries | hlast
    · exact .inr (.inr (ih hentries))
    · cases List.mem_singleton.mp hlast
      exact .inr (.inl hname)

lemma dependencies_ofDependencies (h : ∀ e ∈ after, e.1 ≠ job) :
    (ofDependencies (before ++ (job, names) :: after)).dependencies job = namesIn names := by
  have hentry : (job, names) ∈ before ++ (job, names) :: after := by simp
  have hknown : ∀ name ∈ nameList names,
      (ofDependencies (before ++ (job, names) :: after)).knows name = true :=
    fun name hname => knows_ofDependencies hentry hname
  rw [dependencies, dependencyText?_ofDependencies h, namesIn, ← nameList_eq_filter]
  exact List.filter_eq_self.mpr hknown

lemma dependencies_ofDependencies_eq_nil (h : ∀ e ∈ entries, e.1 ≠ job) :
    (ofDependencies entries).dependencies job = [] := by
  rw [dependencies, dependencyText?_ofDependencies_eq_none h]

end Directory

end ReviewStream.Gate
