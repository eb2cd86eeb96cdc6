import ReviewStream.Diagnostics
import ReviewStream.Json.Record
import ReviewStream.Proofs.Ledger.Residents
import ReviewStream.Proofs.Text.Basic
import ReviewStream.Proofs.Text.Numeral

/-!
# Views of the ledger

The status of a patch set that is given over HTTP, the report of the ledger and its queries are
folds over the same entries, each written on its own. They give one picture, and whatever is asked
in whatever order, the ledger is the one that its operations alone lead to.
-/

namespace ReviewStream

section Counts

lemma Imprint.length_builds (i : Imprint) : i.builds.length = i.progress.started := by
  rw [builds, List.length_filterMap_eq_countP, progress, List.countP_eq_length_filter]

lemma Imprint.started_le_total (i : Imprint) : i.progress.started ≤ i.progress.total :=
  List.length_filter_le ..

lemma Imprint.allStarted_iff (i : Imprint) :
    i.allStarted = true ↔ i.progress.started = i.progress.total := by
  rw [allStarted, List.all_eq_true]
  exact List.length_filter_eq_length_iff.symm

lemma Ledger.reported?_eq (l : Ledger) (k : PatchSetKey) :
    l.reported? k = (l.get? k).map Imprint.reported := by
  rw [reported?, report, List.find?_map]
  rfl

end Counts

namespace Diagnostics

/-- What is told about a patch set in different places agrees: the members `ms` of its status, its
part `r` of the report, its builds `bs` and the answers to the queries. -/
structure Agreement (l : Ledger) (k : PatchSetKey) (r : ReportedImprint) (bs : List Build)
    (ms : Json.Members) : Prop where
  reported : l.reported? k = some r
  builds : l.builds? k = some bs
  progress : l.progress? k = some ⟨k, r.entries.length, bs.length⟩
  total : Json.single? ms "total" = some (some (.ofNat r.entries.length))
  started : Json.single? ms "started" = some (some (.ofNat bs.length))
  started_le : bs.length ≤ r.entries.length
  allStarted_iff : l.allStarted k = true ↔ bs.length = r.entries.length
  allStarted : Json.single? ms "all_started" = some (some (.bool (l.allStarted k)))
  allCompleted : Json.single? ms "all_completed" = some (some (.bool (l.allCompleted k)))
  statusReport : l.statusReport? k = some (String.join (r.entries.map Entry.render))
  status_report : Json.single? ms "status_report" =
    some (some (.string (String.join (r.entries.map Entry.render))))

lemma exists_agreement {l : Ledger} {k : PatchSetKey} {i : Imprint} (h : l.get? k = some i) :
    ∃ ms, i.status.toJson = .object ms ∧ Agreement l k i.reported i.builds ms := by
  have hstarted : l.allStarted k = i.allStarted := by rw [Ledger.allStarted, h]; rfl
  have hcompleted : l.allCompleted k = i.allCompleted := by rw [Ledger.allCompleted, h]; rfl
  have hprogress : l.progress? k = some i.progress := by rw [Ledger.progress?, h, Option.map_some]
  have hkey : i.key = k := Ledger.key_of_get? h
  refine ⟨_, rfl, ?_⟩
  constructor
  case reported => rw [l.reported?_eq, h, Option.map_some]
  case builds => rw [Ledger.builds?, h, Option.map_some]
  case progress => rw [hprogress, i.length_builds, ← hkey]; rfl
  case total => rfl
  case started => rw [i.length_builds]; rfl
  case started_le => rw [i.length_builds]; exact i.started_le_total
  case allStarted_iff => rw [hstarted, i.length_builds]; exact i.allStarted_iff
  case allStarted => rw [hstarted]; rfl
  case allCompleted => rw [hcompleted]; rfl
  case statusReport => rw [Ledger.statusReport?, h]; rfl
  case status_report => rfl

section Paths

variable {n : Nat} {cs change number : List Char} {k : PatchSetKey}

lemma segmentBytes_of_not_mem (h : '%' ∉ cs) :
    segmentBytes cs = cs.flatMap String.utf8EncodeChar := by
  fun_induction segmentBytes cs with
  | case1 => rfl
  | case2 | case3 => simp at h
  | case4 c rest _ ih =>
    have hrest : '%' ∉ rest := fun hmem => h (List.mem_cons_of_mem c hmem)
    rw [ih hrest, Text.toList_toUTF8]
    simp

lemma segmentText?_of_not_mem (h : '%' ∉ cs) : segmentText? cs = some (String.ofList cs) := by
  rw [segmentText?, Text.fromUTF8?_eq_some_iff, segmentBytes_of_not_mem h]
  refine ByteArray.ext ?_
  rw [String.toUTF8, String.toByteArray_ofList, List.utf8Encode, List.data_toByteArray]

lemma segmentNumber?_numeral (h : Text.Numeral n cs) (hn : n < UInt64.size) :
    segmentNumber? cs = some (UInt64.ofNat n) := by
  have hbelow : Text.unsignedBelow? UInt64.size cs = some n := by
    rw [Text.unsignedBelow?, h.unsigned?_eq]
    simpa using hn
  rw [segmentNumber?, segmentText?_of_not_mem (h.not_mem (by decide) rfl)]
  simp [hbelow]

/-- A path is that of a patch set: its segments are read as the two numbers of the key. -/
def LeadsTo (path : String) (k : PatchSetKey) : Prop :=
  ∃ change number, Route.ofPath? (barePath path) = some (.patchSet change number) ∧
    segmentNumber? change = some k.change ∧ segmentNumber? number = some k.patchSet

/-- The path with two segments for the numbers of a patch set. -/
def patchSetPath (change number : String) : String := "/api/v1/changes/" ++ change ++ "/" ++ number

lemma toList_patchSetPath (change number : String) : (patchSetPath change number).toList =
    Text.join '/'
      [[], "api".toList, "v1".toList, "changes".toList, change.toList, number.toList] := by
  unfold patchSetPath
  simp [Text.join]

lemma barePath_of_not_mem {path : String} (hquery : '?' ∉ path.toList)
    (hfragment : '#' ∉ path.toList) : barePath path = path.toList := by
  refine List.takeWhile_eq_self_iff.mpr fun c hc => ?_
  have hq : c ≠ '?' := fun h => hquery (h ▸ hc)
  have hf : c ≠ '#' := fun h => hfragment (h ▸ hc)
  simp [hq, hf]

lemma leadsTo_patchSetPath {change number : String}
    (hchange : Text.Numeral k.change.toNat change.toList)
    (hnumber : Text.Numeral k.patchSet.toNat number.toList) :
    LeadsTo (patchSetPath change number) k := by
  have hpath := toList_patchSetPath change number
  have hbare : barePath (patchSetPath change number) = (patchSetPath change number).toList := by
    apply barePath_of_not_mem
    · simp [hpath, Text.join, hchange.not_mem, hnumber.not_mem]
    · simp [hpath, Text.join, hchange.not_mem, hnumber.not_mem]
  have hne : number ≠ "" := by
    rintro rfl
    simpa [Text.unsigned?, Text.digits?] using hnumber.unsigned?_eq
  refine ⟨change.toList, number.toList, ?_, ?_, ?_⟩
  · rw [hbare, hpath, Route.ofPath?, Text.pieces_join (by simp)
      (by simp [hchange.not_mem, hnumber.not_mem])]
    simp [hne]
  · rw [segmentNumber?_numeral hchange k.change.toNat_lt, UInt64.ofNat_toNat]
  · rw [segmentNumber?_numeral hnumber k.patchSet.toNat_lt, UInt64.ofNat_toNat]

lemma respond_of_leadsTo {path : String} (hpath : LeadsTo path k) (l : Ledger)
    (connection : ConnectionStatus) (time : Instant → Json) :
    respond l connection time "GET" path = (l.get? k).elim
      ⟨404, .text ("no builds tracked for patchset " ++ k.render)⟩
      fun i => ok (.json i.status.toJson) := by
  obtain ⟨change, number, hroute, hchange, hnumber⟩ := hpath
  rw [respond, hroute]
  simp only [view, hchange, hnumber, if_true]
  cases l.get? k <;> rfl

end Paths

section Sessions

/-- What can be asked about a ledger, by a query or by a request. -/
inductive Inquiry where
  | allStarted (key : PatchSetKey)
  | allCompleted (key : PatchSetKey)
  | progress (key : PatchSetKey)
  | statusReport (key : PatchSetKey)
  | isTriggered (key : PatchSetKey) (job : JobName)
  | isBuilding (key : PatchSetKey) (job : JobName)
  | isTracked (key : PatchSetKey)
  | builds (key : PatchSetKey)
  | imprint (key : PatchSetKey)
  | size
  | report
  | request (connection : ConnectionStatus) (time : Instant → Json) (method path : String)

def Inquiry.Answer : Inquiry → Type
  | .allStarted _ | .allCompleted _ | .isTriggered .. | .isBuilding .. | .isTracked _ => Bool
  | .progress _ => Option Progress
  | .statusReport _ => Option String
  | .builds _ => Option (List Build)
  | .imprint _ => Option Imprint
  | .size => Nat
  | .report => List ReportedImprint
  | .request .. => Response

def Inquiry.answer (l : Ledger) : (q : Inquiry) → q.Answer
  | .allStarted k => l.allStarted k
  | .allCompleted k => l.allCompleted k
  | .progress k => l.progress? k
  | .statusReport k => l.statusReport? k
  | .isTriggered k job => l.isTriggered k job
  | .isBuilding k job => l.isBuilding k job
  | .isTracked k => l.isTracked k
  | .builds k => l.builds? k
  | .imprint k => l.get? k
  | .size => l.imprints.length
  | .report => l.report
  | .request connection time method path => respond l connection time method path

/-- What comes to a ledger: an operation, or something that is asked. -/
inductive Visit where
  | operation (op : Ledger.Operation)
  | inquiry (q : Inquiry)

def Visit.operation? : Visit → Option Ledger.Operation
  | .operation op => some op
  | .inquiry _ => none

def operated (l : Ledger) (xs : List Visit) : Ledger :=
  (xs.filterMap Visit.operation?).foldl Ledger.apply l

/-- A ledger with the answers that it gave. -/
structure Session where
  ledger : Ledger := {}
  answers : List (Sigma Inquiry.Answer) := []

namespace Session

def happen (s : Session) : Visit → Session
  | .operation op => { s with ledger := s.ledger.apply op }
  | .inquiry q => { s with answers := s.answers ++ [⟨q, q.answer s.ledger⟩] }

def after (s : Session) (xs : List Visit) : Session := xs.foldl happen s

lemma ledger_after (s : Session) (xs : List Visit) :
    (s.after xs).ledger = operated s.ledger xs := by
  induction xs generalizing s with
  | nil => rfl
  | cons x xs ih =>
    cases x with
    | operation op => exact ih (s.happen (.operation op))
    | inquiry q => exact ih (s.happen (.inquiry q))

lemma answers_prefix_happen (s : Session) (x : Visit) : s.answers <+: (s.happen x).answers := by
  cases x with
  | operation op => exact List.prefix_rfl
  | inquiry q => exact List.prefix_append ..

lemma answers_prefix_after (s : Session) (xs : List Visit) :
    s.answers <+: (s.after xs).answers := by
  induction xs generalizing s with
  | nil => exact List.prefix_rfl
  | cons x xs ih => exact (s.answers_prefix_happen x).trans (ih _)

lemma answer_prefix_after (s : Session) (before rest : List Visit) (q : Inquiry) :
    (s.after before).answers ++ [⟨q, q.answer (operated s.ledger before)⟩] <+:
      (s.after (before ++ .inquiry q :: rest)).answers := by
  have hsplit : s.after (before ++ .inquiry q :: rest) =
      ((s.after before).happen (.inquiry q)).after rest := by
    rw [after, List.foldl_append]
    rfl
  rw [hsplit, ← s.ledger_after before]
  exact answers_prefix_after ((s.after before).happen (.inquiry q)) rest

end Session

end Sessions

/-- Views of a ledger agree and leave it alone. A path that leads to a patch set, by whatever
numerals, gets 404 exactly if nothing is tracked for it, and else a status that agrees with the
report and with all queries. Among the visits of a session only operations count for the ledger, and
for the answers given. -/
theorem views_agree (s : Session) :
    (∀ xs, (s.after xs).ledger = operated s.ledger xs) ∧
    (∀ before q rest, (s.after before).answers ++ [⟨q, q.answer (operated s.ledger before)⟩] <+:
      (s.after (before ++ .inquiry q :: rest)).answers) ∧
    ∀ connection time, respond s.ledger connection time "GET" "/api/v1/memory" =
        ok (.json (reportToJson time s.ledger.report)) ∧
      ∀ k,
        (∀ change number, Text.Numeral k.change.toNat change.toList →
          Text.Numeral k.patchSet.toNat number.toList → LeadsTo (patchSetPath change number) k) ∧
        ∀ path, LeadsTo path k →
          ((respond s.ledger connection time "GET" path).status = 404 ↔
            s.ledger.isTracked k = false) ∧
          (s.ledger.isTracked k = true → ∃ r bs ms,
            respond s.ledger connection time "GET" path = ok (.json (.object ms)) ∧
              Agreement s.ledger k r bs ms) := by
  refine ⟨s.ledger_after, fun before q rest => s.answer_prefix_after before rest q,
    fun connection time => ⟨?_, fun k => ⟨fun change number => leadsTo_patchSetPath,
      fun path hpath => ?_⟩⟩⟩
  · have hroute : Route.ofPath? (barePath "/api/v1/memory") = some .memory := by decide
    rw [respond, hroute]
    rfl
  · rw [respond_of_leadsTo hpath, Ledger.isTracked]
    cases h : s.ledger.get? k with
    | none => exact ⟨by simp, nofun⟩
    | some i =>
      obtain ⟨ms, hms, hagree⟩ := exists_agreement h
      refine ⟨by simp [ok], fun _ => ⟨_, _, ms, ?_, hagree⟩⟩
      rw [Option.elim_some, hms]

/-- Two jobs for a patch set, one of them started. The second number in the path has a plus sign
and a zero in front. -/
theorem views_of_started_and_triggered_job :
    let k : PatchSetKey := ⟨100, 2⟩
    let e := Event.bare k
    let before : List Visit := [.operation (.signal 0 e (.triggered "verify")),
      .inquiry (.isTracked k), .operation (.signal 1 e (.started ⟨"lint", 4, none⟩))]
    let s := ({} : Session).after before
    (∃ ms, respond s.ledger {} (fun _ => .null) "GET" (patchSetPath "100" "+02") =
        ok (.json (.object ms)) ∧
      Json.single? ms "total" = some (some (.ofNat 2)) ∧
      Json.single? ms "started" = some (some (.ofNat 1)) ∧
      Json.single? ms "all_started" = some (some (.bool false))) ∧
    (respond s.ledger {} (fun _ => .null) "GET" (patchSetPath "100" "3")).status = 404 ∧
    (s.after [.inquiry (.builds k), .operation (.forget k)]).ledger.isTracked k = false := by
  intro k e before s
  obtain ⟨hledger, -, hviews⟩ := views_agree s
  obtain ⟨-, hviews⟩ := hviews {} fun _ => .null
  have hchange : Text.Numeral 100 "100".toList := .unsigned 0
  have hnumber : Text.Numeral 2 "+02".toList := .plus 1
  obtain ⟨hpath, hstatus⟩ := hviews k
  obtain ⟨-, hfound⟩ := hstatus _ (hpath "100" "+02" hchange hnumber)
  obtain ⟨r, bs, ms, hrespond, hagree⟩ := hfound (by decide)
  have hprogress : s.ledger.progress? k = some ⟨k, 2, 1⟩ := by decide
  obtain ⟨htotal, hstarted⟩ : r.entries.length = 2 ∧ bs.length = 1 := by
    simpa using hagree.progress.symm.trans hprogress
  have hall : s.ledger.allStarted k = false := by decide
  obtain ⟨hother, hmissing⟩ := hviews ⟨100, 3⟩
  obtain ⟨hnone, -⟩ := hmissing _ (hother "100" "3" hchange (.unsigned 0))
  refine ⟨⟨ms, hrespond, htotal ▸ hagree.total, hstarted ▸ hagree.started,
    hall ▸ hagree.allStarted⟩, hnone.mpr (by decide), ?_⟩
  rw [hledger]
  decide

end Diagnostics

end ReviewStream
