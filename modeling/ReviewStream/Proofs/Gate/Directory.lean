import Mathlib.Data.Fintype.Card
import Mathlib.Data.Set.Finite.Basic
import Mathlib.Logic.Relation
import Mathlib.Order.WellFounded
import ReviewStream.Gate.Basic

/-!
# Dependencies in the job directory

The dependencies of a job are the names that were written down for it, in the same order, less the
blank and the unknown ones. A directory is acyclic if no job depends on itself, directly or through
others.
-/

namespace ReviewStream.Gate

namespace Directory

/-- The names that were written down for a job, as they are between the commas once trimmed. -/
def written (d : Directory) (job : JobName) : List JobName :=
  match d.dependencyText? job with
  | some s => (Text.pieces ',' s.toList).map fun p => String.ofList (Text.trim p)
  | none => []

/-- Whether a name that was written down counts. -/
def Counts (d : Directory) (name : JobName) : Prop := name ≠ "" ∧ d.knows name = true

instance (d : Directory) (name : JobName) : Decidable (d.Counts name) :=
  inferInstanceAs (Decidable (_ ∧ _))

lemma nameList_eq_filter (s : String) :
    nameList s =
      ((Text.pieces ',' s.toList).map fun p => String.ofList (Text.trim p)).filter (· ≠ "") := by
  unfold nameList
  induction Text.pieces ',' s.toList with
  | nil => rfl
  | cons p ps ih =>
    rw [List.map_cons, List.filter_cons, List.filterMap_cons, ih]
    cases hp : Text.trim p <;> simp

lemma dependencies_eq_filter (d : Directory) (job : JobName) :
    d.dependencies job = (d.written job).filter fun name => d.Counts name := by
  unfold dependencies written
  cases d.dependencyText? job with
  | none => rfl
  | some s =>
    simp only [nameList_eq_filter, List.filter_filter]
    apply List.filter_congr
    intro name _
    rw [Bool.eq_iff_iff, decide_eq_true_eq]
    simp [Counts, and_comm]

lemma mem_dependencies_iff {d : Directory} {job dep : JobName} :
    dep ∈ d.dependencies job ↔ dep ∈ d.written job ∧ d.Counts dep := by
  rw [dependencies_eq_filter, List.mem_filter, decide_eq_true_eq]

lemma dependencies_eq_nil_iff {d : Directory} {job : JobName} :
    d.dependencies job = [] ↔ ¬ ∃ name ∈ d.written job, d.Counts name := by
  rw [dependencies_eq_filter, List.filter_eq_nil_iff]
  simp

lemma exists_entry_of_mem_dependencies {d : Directory} {job dep : JobName}
    (h : dep ∈ d.dependencies job) : job ∈ d.entries.map (·.1) := by
  unfold dependencies dependencyText? at h
  cases he : d.entries.find? fun e => e.1 = job with
  | none => simp [he] at h
  | some e =>
    have hj : e.1 = job := by simpa using List.find?_some he
    exact hj ▸ List.mem_map_of_mem (List.mem_of_find?_eq_some he)

/-- The first job is one of the dependencies of the second. -/
def DependsOn (d : Directory) (dep job : JobName) : Prop := dep ∈ d.dependencies job

/-- No job depends on itself, directly or through others. -/
def Acyclic (d : Directory) : Prop := ∀ job, ¬ Relation.TransGen d.DependsOn job job

lemma acyclic_of_rank {d : Directory} (rank : JobName → Nat)
    (h : ∀ job ∈ d.entries.map (·.1), ∀ dep ∈ d.dependencies job, rank dep < rank job) :
    d.Acyclic := by
  have hstep : ∀ dep job, d.DependsOn dep job → rank dep < rank job := fun dep job hd =>
    h job (exists_entry_of_mem_dependencies hd) dep hd
  have hlt : ∀ dep job, Relation.TransGen d.DependsOn dep job → rank dep < rank job := by
    intro dep job hd
    induction hd with
    | single hd => exact hstep _ _ hd
    | tail _ hd ih => exact ih.trans (hstep _ _ hd)
  exact fun job hj => lt_irrefl _ (hlt job job hj)

lemma Acyclic.exists_minimal {d : Directory} (h : d.Acyclic) {jobs : Set JobName}
    (hfin : jobs.Finite) (hne : jobs.Nonempty) :
    ∃ job ∈ jobs, ∀ dep ∈ d.dependencies job, dep ∉ jobs := by
  have hfinite : Finite jobs := hfin.to_subtype
  let before : jobs → jobs → Prop := fun a b => Relation.TransGen d.DependsOn a b
  have htrans : IsTrans jobs before := ⟨fun _ _ _ => Relation.TransGen.trans⟩
  have hirrefl : Std.Irrefl before := ⟨fun a => h a⟩
  obtain ⟨start, hstart⟩ := hne
  obtain ⟨⟨job, hjob⟩, -, hmin⟩ :=
    (Finite.wellFounded_of_trans_of_irrefl before).has_min Set.univ ⟨⟨start, hstart⟩, trivial⟩
  exact ⟨job, hjob, fun dep hdep hmem => hmin ⟨dep, hmem⟩ trivial (.single hdep)⟩

end Directory

end ReviewStream.Gate
