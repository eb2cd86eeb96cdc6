import ReviewStream.Proofs.Except
import ReviewStream.Proofs.Json.Written

/-!
# Moves of the reader

The reader of JSON text takes a token only by one of its moves, so what every move keeps is kept by
the reading of a whole text.
-/

namespace ReviewStream.Json

section Moves

/-- The moves of a reader: the tokens that it takes and where they lead. -/
inductive Moves (d : Dialect) : Reading → Placed → Reading → Prop where
  | scalar {r stack t j} (ha : Awaits r stack) (hj : t.scalar d.strict = .ok j) :
      Moves d r t (.put j stack)
  | openArray {r stack t} (ht : t.token = .openArray) (ha : Awaits r stack)
      (hopen : mayOpen d.strict stack = true) : Moves d r t (.arrayStart stack)
  | openObject {r stack t} (ht : t.token = .openObject) (ha : Awaits r stack)
      (hopen : mayOpen d.strict stack = true) : Moves d r t (.objectStart stack)
  | emptyArray {stack t} (ht : t.token = .closeArray) :
      Moves d (.arrayStart stack) t (.put (.array []) stack)
  | emptyObject {stack t} (ht : t.token = .closeObject) :
      Moves d (.objectStart stack) t (.put (.object []) stack)
  | firstName {stack t key} (ht : t.token = .string key)
      (h : (d.embedded?.isSome && key = some embeddingName) = false) :
      Moves d (.objectStart stack) t (.colon [] key stack)
  | embeddingName {stack t} (ht : t.token = .string (some embeddingName))
      (h : d.embedded?.isSome = true) : Moves d (.objectStart stack) t (.embeddingColon stack)
  | name {done stack t key} (ht : t.token = .string key) :
      Moves d (.name done stack) t (.colon done key stack)
  | colon {done key stack t} (ht : t.token = .colon) :
      Moves d (.colon done key stack) t (.value (.object done key :: stack))
  | embeddingColon {stack t} (ht : t.token = .colon) :
      Moves d (.embeddingColon stack) t (.embeddedText stack)
  | embeddedText {stack t s read j} (ht : t.token = .string (some s))
      (hread : d.embedded? = some read) (hj : read s = .ok j) :
      Moves d (.embeddedText stack) t (.embeddingEnd j stack)
  | embeddingEnd {stack t j} (ht : t.token = .closeObject) :
      Moves d (.embeddingEnd j stack) t (.put j stack)
  | nextElement {done stack t} (ht : t.token = .comma) :
      Moves d (.elements done stack) t (.value (.array done :: stack))
  | lastElement {done stack t} (ht : t.token = .closeArray) :
      Moves d (.elements done stack) t (.put (.array done.reverse) stack)
  | nextMember {done stack t} (ht : t.token = .comma) :
      Moves d (.members done stack) t (.name done stack)
  | lastMember {done stack t} (ht : t.token = .closeObject) :
      Moves d (.members done stack) t (.put (closeObject done) stack)

variable {d : Dialect} {r r' : Reading} {t : Placed} {stack : List Frame}

lemma moves_of_beginValue (ha : Awaits r stack)
    (h : Reading.beginValue d.strict stack t = .ok r') : Moves d r t r' := by
  unfold Reading.beginValue at h
  split at h
  · rename_i ht
    split at h
    · cases h
      exact .openArray ht ha ‹_›
    · cases h
  · rename_i ht
    split at h
    · cases h
      exact .openObject ht ha ‹_›
    · cases h
  · obtain ⟨j, hj, rfl⟩ := map_eq_ok_iff.mp h
    exact .scalar ha hj

lemma moves_of_embed (h : Reading.embed d stack t = .ok r') :
    Moves d (.embeddedText stack) t r' := by
  unfold Reading.embed at h
  dsimp only at h
  split at h
  · cases h
  · cases h
  · rename_i ht hread
    split at h
    · cases h
      exact .embeddedText ht hread ‹_›
    · cases h
  · obtain ⟨j, -, hrefuse⟩ := bind_eq_ok_iff.mp h
    cases hrefuse

lemma moves_of_step (h : r.step d t = .ok r') : Moves d r t r' := by
  unfold Reading.step at h
  split at h
  case h_2 => exact moves_of_beginValue (.value _) h
  case h_4 => exact moves_of_beginValue (.arrayStart _) h
  case h_6 ht =>
    split at h
    · rename_i hname
      simp only [Bool.and_eq_true, decide_eq_true_eq] at hname
      cases h
      exact .embeddingName (hname.2 ▸ ht) hname.1
    · rename_i hname
      cases h
      exact .firstName ht (by simpa using hname)
  case h_11 => exact moves_of_embed h
  case h_3 ht => cases h; exact .emptyArray ht
  case h_5 ht => cases h; exact .emptyObject ht
  case h_7 ht => cases h; exact .name ht
  case h_9 ht => cases h; exact .colon ht
  case h_10 ht => cases h; exact .embeddingColon ht
  case h_12 ht => cases h; exact .embeddingEnd ht
  case h_14 ht => cases h; exact .nextElement ht
  case h_15 ht => cases h; exact .lastElement ht
  case h_16 ht => cases h; exact .nextMember ht
  case h_17 ht => cases h; exact .lastMember ht
  all_goals cases h

lemma token_of_scalar {strict : Bool} {j : Json} (h : t.scalar strict = .ok j) :
    t.token ≠ .openArray ∧ t.token ≠ .openObject ∧ t.token ≠ .closeArray := by
  unfold Placed.scalar at h
  split at h <;> simp_all [Placed.refuse]

lemma step_of_moves (h : Moves d r t r') : r.step d t = .ok r' := by
  cases h with
  | scalar ha hj =>
    obtain ⟨harray, hobject, hclose⟩ := token_of_scalar hj
    rw [step_of_awaits ha hclose]
    unfold Reading.beginValue
    split
    · exact absurd ‹_› harray
    · exact absurd ‹_› hobject
    · rw [hj]
      rfl
  | openArray ht ha hopen =>
    rw [step_of_awaits ha (by simp [ht]), Reading.beginValue, ht]
    exact if_pos hopen
  | openObject ht ha hopen =>
    rw [step_of_awaits ha (by simp [ht]), Reading.beginValue, ht]
    exact if_pos hopen
  | embeddingName ht hd => simp [Reading.step, ht, hd]
  | firstName ht hname => simp [Reading.step, ht, hname]
  | embeddedText ht hread hj => simp [Reading.step, Reading.embed, ht, hread, hj]
  | _ => simp [Reading.step, *]

lemma step_eq_ok_iff : r.step d t = .ok r' ↔ Moves d r t r' := ⟨moves_of_step, step_of_moves⟩

end Moves

section Runs

variable {d : Dialect} {ending : Ending} {ts : List Placed} {r : Reading} {t : Placed} {j : Json}

lemma run_cons_eq_ok_iff :
    r.run d ending (t :: ts) = .ok j ↔ ∃ r', Moves d r t r' ∧ r'.run d ending ts = .ok j := by
  simp only [Reading.run, bind_eq_ok_iff, step_eq_ok_iff]

lemma close_eq_ok_iff : r.close ending = .ok j ↔ r = .finished j ∧ ending = .complete := by
  constructor
  · intro h
    unfold Reading.close at h
    split at h
    · cases h
      exact ⟨rfl, rfl⟩
    · cases h
    · cases h
  · rintro ⟨rfl, rfl⟩
    rfl

lemma parseChars_eq_ok_iff {cs : List Char} : parseChars d cs = .ok j ↔
    (Reading.value []).run d (tokens d.strict cs).2 (tokens d.strict cs).1 = .ok j := by
  have hrun : parseChars d cs = ((Reading.value []).run d (tokens d.strict cs).2
      (tokens d.strict cs).1).mapError (Stop.fault cs) := rfl
  rw [hrun, mapError_eq_ok_iff]

end Runs

end ReviewStream.Json
