import Mathlib.Tactic.IntervalCases
import ReviewStream.Proofs.Text.Basic
import ReviewStream.Proofs.Text.Numeral
import ReviewStream.Proofs.Watchdog.Window

/-!
# Exception windows in a text

Spans of the day and days of the week are listed in texts, with commas between them. A text is
accepted if all of its pieces that are not blank write a span or a day; else the first one that does
not is reported, with the first of its faults. What was accepted covers the minutes between the ends
of the spans, and the text that it is shown as is accepted again.
-/

namespace ReviewStream

namespace Calendar.Weekday

/-- The number of a day of the week, from Sunday as 1 to Saturday as 7. -/
def number : Weekday → Nat
  | .sun => 1
  | .mon => 2
  | .tue => 3
  | .wed => 4
  | .thu => 5
  | .fri => 6
  | .sat => 7

lemma ofNumber?_eq_some_iff {n : Nat} {d : Weekday} : ofNumber? n = some d ↔ n = d.number := by
  constructor
  · intro h
    unfold ofNumber? at h
    split at h
    · cases h
    · rename_i hn
      obtain ⟨hlt, -⟩ := List.getElem?_eq_some_iff.mp h
      change n - 1 < 7 at hlt
      have hle : n ≤ 7 := by omega
      interval_cases n
      · exact absurd rfl hn
      all_goals
        cases h
        rfl
  · rintro rfl
    cases d <;> rfl

lemma number_lt (d : Weekday) : d.number < UInt32.size := by
  cases d <;> decide

end Calendar.Weekday

namespace Watchdog

open Calendar (Weekday)

variable {cs : List Char} {e : WindowError} {hour minute : UInt32} {s t : TimeOfDay}
  {span : TimeSpan} {day : Weekday}

namespace TimeOfDay

/-- A text gives an hour and a minute: the first colon in it stands between numerals of 32 bits,
which may have blanks around them. -/
def Gives (cs : List Char) (hour minute : UInt32) : Prop :=
  ∃ before after, cs = before ++ ':' :: after ∧ ':' ∉ before ∧
    Text.Numeral hour.toNat (Text.trim before) ∧ Text.Numeral minute.toNat (Text.trim after)

/-- A text writes a time that a clock can show. -/
structure Writes (cs : List Char) (t : TimeOfDay) : Prop where
  gives : Gives cs t.hour t.minute
  hour_le : t.hour ≤ 23
  minute_le : t.minute ≤ 59

/-- The first fault of a text that writes no time: its form, then the hour, then the minute. -/
inductive Faulty (cs : List Char) : WindowError → Prop where
  | format : (∀ hour minute, ¬ Gives cs hour minute) →
      Faulty cs (.format (String.ofList (Text.trim cs)))
  | hour (hour minute : UInt32) : Gives cs hour minute → 23 < hour → Faulty cs (.hour hour)
  | minute (hour minute : UInt32) : Gives cs hour minute → hour ≤ 23 → 59 < minute →
      Faulty cs (.minute minute)

lemma word?_eq_some_iff {w : UInt32} :
    word? cs = some w ↔ Text.Numeral w.toNat (Text.trim cs) := by
  unfold word? Text.unsignedBelow?
  rw [Option.map_eq_some_iff]
  constructor
  · rintro ⟨n, hn, rfl⟩
    obtain ⟨hn, hlt⟩ := Option.filter_eq_some_iff.mp hn
    rw [UInt32.toNat_ofNat_of_lt' (by simpa using hlt)]
    exact Text.numeral_of_unsigned? hn
  · intro h
    refine ⟨w.toNat, Option.filter_eq_some_iff.mpr ⟨h.unsigned?_eq, ?_⟩, UInt32.ofNat_toNat⟩
    simpa using w.toNat_lt_size

lemma word?_trimStart (cs : List Char) : word? (Text.trimStart cs) = word? cs := by
  rw [word?, Text.trim_trimStart, word?]

lemma word?_trimEnd (cs : List Char) : word? (Text.trimEnd cs) = word? cs := by
  rw [word?, Text.trim_trimEnd, word?]

lemma parseChars_of_gives (h : Gives cs hour minute) : parseChars cs = make hour minute := by
  obtain ⟨before, after, rfl, hbefore, hhour, hminute⟩ := h
  simp only [parseChars, Text.splitFirst?_trim ':' rfl, Text.splitFirst?_append hbefore,
    Option.map_some, word?_trimStart, word?_trimEnd, word?_eq_some_iff.mpr hhour,
    word?_eq_some_iff.mpr hminute]

lemma parseChars_of_not_gives (h : ∀ hour minute, ¬ Gives cs hour minute) :
    parseChars cs = .error (.format (String.ofList (Text.trim cs))) := by
  simp only [parseChars, Text.splitFirst?_trim ':' rfl]
  cases hsplit : Text.splitFirst? ':' cs with
  | none => rfl
  | some parts =>
    obtain ⟨hcs, hbefore⟩ := Text.splitFirst?_eq_some_iff.mp hsplit
    simp only [Option.map_some, word?_trimStart, word?_trimEnd]
    split
    · rename_i hour minute hhour hminute
      refine absurd ?_ (h hour minute)
      exact ⟨_, _, hcs, hbefore, word?_eq_some_iff.mp hhour, word?_eq_some_iff.mp hminute⟩
    · rfl

lemma parseChars_eq_ok_iff : parseChars cs = .ok t ↔ Writes cs t := by
  constructor
  · intro h
    by_cases hgives : ∃ hour minute, Gives cs hour minute
    · obtain ⟨hour, minute, hgives⟩ := hgives
      rw [parseChars_of_gives hgives, make] at h
      split at h
      · cases h
      · rename_i hhour
        split at h
        · cases h
        · rename_i hminute
          cases h
          exact ⟨hgives, UInt32.not_lt.mp hhour, UInt32.not_lt.mp hminute⟩
    · simp only [not_exists] at hgives
      rw [parseChars_of_not_gives hgives] at h
      cases h
  · rintro ⟨hgives, hhour, hminute⟩
    rw [parseChars_of_gives hgives, make, if_neg (UInt32.not_lt.mpr hhour),
      if_neg (UInt32.not_lt.mpr hminute)]

lemma parseChars_eq_error_iff : parseChars cs = .error e ↔ Faulty cs e := by
  constructor
  · intro h
    by_cases hgives : ∃ hour minute, Gives cs hour minute
    · obtain ⟨hour, minute, hgives⟩ := hgives
      rw [parseChars_of_gives hgives, make] at h
      split at h
      · rename_i hhour
        cases h
        exact .hour hour minute hgives hhour
      · rename_i hhour
        split at h
        · rename_i hminute
          cases h
          exact .minute hour minute hgives (UInt32.not_lt.mp hhour) hminute
        · cases h
    · simp only [not_exists] at hgives
      rw [parseChars_of_not_gives hgives] at h
      cases h
      exact .format hgives
  · intro h
    cases h with
    | format hgives => exact parseChars_of_not_gives hgives
    | hour hour minute hgives hhour => rw [parseChars_of_gives hgives, make, if_pos hhour]
    | minute hour minute hgives hhour hminute =>
      rw [parseChars_of_gives hgives, make, if_neg (UInt32.not_lt.mpr hhour), if_pos hminute]

lemma parseChars_trimStart (cs : List Char) : parseChars (Text.trimStart cs) = parseChars cs := by
  rw [parseChars, Text.trim_trimStart, parseChars]

lemma parseChars_trimEnd (cs : List Char) : parseChars (Text.trimEnd cs) = parseChars cs := by
  rw [parseChars, Text.trim_trimEnd, parseChars]

lemma Writes.minute_lt (h : Writes cs t) : t.minute.toNat < 60 :=
  Nat.lt_succ_of_le (UInt32.le_iff_toNat_le.mp h.minute_le)

lemma before_iff_minutes (hs : s.minute.toNat < 60) (ht : t.minute.toNat < 60) :
    s.before t = true ↔ s.minutes < t.minutes := by
  rw [before_iff, ← not_le, place_le_iff ht hs, not_le]

lemma toList_render (t : TimeOfDay) : t.render.toList =
    (Text.twoDigits t.hour.toNat).toList ++ ':' :: (Text.twoDigits t.minute.toNat).toList := by
  rw [render, String.toList_append, String.toList_append, List.append_assoc]
  rfl

lemma isDigit_or_colon_of_mem_render {c : Char} (h : c ∈ t.render.toList) :
    c.isDigit = true ∨ c = ':' := by
  rw [toList_render, List.mem_append, List.mem_cons] at h
  rcases h with h | rfl | h
  · exact .inl (Text.isDigit_of_mem_padded _ _ c h)
  · exact .inr rfl
  · exact .inl (Text.isDigit_of_mem_padded _ _ c h)

lemma Writes.render (h : Writes cs t) : Writes t.render.toList t := by
  have hcolon : ':' ∉ (Text.twoDigits t.hour.toNat).toList :=
    fun hmem => nomatch Text.isDigit_of_mem_padded _ _ ':' hmem
  have hnumeral : ∀ n, Text.Numeral n (Text.trim (Text.twoDigits n).toList) := by
    intro n
    have hn : Text.Numeral n (Text.twoDigits n).toList := Text.numeral_padded 2 n
    rwa [hn.trim_eq]
  exact ⟨⟨_, _, toList_render t, hcolon, hnumeral _, hnumeral _⟩, h.hour_le, h.minute_le⟩

end TimeOfDay

namespace TimeSpan

/-- A text writes a span: the first dash in it stands between two times, the first of which is the
earlier one. -/
def Writes (cs : List Char) (span : TimeSpan) : Prop :=
  ∃ before after, cs = before ++ '-' :: after ∧ '-' ∉ before ∧
    TimeOfDay.Writes before span.first ∧ TimeOfDay.Writes after span.last ∧
    span.first.minutes < span.last.minutes

/-- The first fault of a text that writes no span: there is no dash, then what is wrong with the
first time, then with the last one, then their order. -/
inductive Faulty (cs : List Char) : WindowError → Prop where
  | format : '-' ∉ cs → Faulty cs (.format (String.ofList (Text.trim cs)))
  | first (before after : List Char) (e : WindowError) :
      cs = before ++ '-' :: after → '-' ∉ before → TimeOfDay.Faulty before e → Faulty cs e
  | last (before after : List Char) (s : TimeOfDay) (e : WindowError) :
      cs = before ++ '-' :: after → '-' ∉ before → TimeOfDay.Writes before s →
      TimeOfDay.Faulty after e → Faulty cs e
  | order (before after : List Char) (s t : TimeOfDay) :
      cs = before ++ '-' :: after → '-' ∉ before → TimeOfDay.Writes before s →
      TimeOfDay.Writes after t → t.minutes ≤ s.minutes → Faulty cs (.emptySpan s t)

lemma parseChars_of_not_mem (h : '-' ∉ cs) :
    parseChars cs = .error (.format (String.ofList (Text.trim cs))) := by
  rw [parseChars, Text.splitFirst?_eq_none_iff.mpr h]

lemma parseChars_append {before after : List Char} (h : '-' ∉ before) :
    parseChars (before ++ '-' :: after) =
      (TimeOfDay.parseChars before >>= fun s => TimeOfDay.parseChars after >>= make s) := by
  rw [parseChars, Text.splitFirst?_append h]

lemma parseChars_trim (cs : List Char) : parseChars (Text.trim cs) = parseChars cs := by
  simp only [parseChars, Text.splitFirst?_trim '-' rfl, Text.trim_trim]
  cases Text.splitFirst? '-' cs with
  | none => rfl
  | some parts =>
    simp only [Option.map_some, TimeOfDay.parseChars_trimStart, TimeOfDay.parseChars_trimEnd]

lemma make_eq_ok_iff (hs : s.minute.toNat < 60) (ht : t.minute.toNat < 60) :
    make s t = .ok span ↔ s.minutes < t.minutes ∧ span = ⟨s, t⟩ := by
  rw [make, ← TimeOfDay.before_iff_minutes hs ht]
  by_cases hbefore : s.before t = true
  · simp [hbefore, eq_comm]
  · simp [hbefore]

lemma make_eq_error_iff (hs : s.minute.toNat < 60) (ht : t.minute.toNat < 60) :
    make s t = .error e ↔ t.minutes ≤ s.minutes ∧ e = .emptySpan s t := by
  rw [make, ← not_lt, ← TimeOfDay.before_iff_minutes hs ht]
  by_cases hbefore : s.before t = true
  · simp [hbefore]
  · simp [hbefore, eq_comm]

lemma parseChars_eq_ok_iff : parseChars cs = .ok span ↔ Writes cs span := by
  constructor
  · intro h
    by_cases hdash : '-' ∈ cs
    · obtain ⟨before, after, rfl, hbefore⟩ := List.eq_append_cons_of_mem hdash
      rw [parseChars_append hbefore] at h
      obtain ⟨s, hs, h⟩ := bind_eq_ok_iff.mp h
      obtain ⟨t, ht, h⟩ := bind_eq_ok_iff.mp h
      rw [TimeOfDay.parseChars_eq_ok_iff] at hs ht
      obtain ⟨hlt, rfl⟩ := (make_eq_ok_iff hs.minute_lt ht.minute_lt).mp h
      exact ⟨before, after, rfl, hbefore, hs, ht, hlt⟩
    · rw [parseChars_of_not_mem hdash] at h
      cases h
  · rintro ⟨before, after, rfl, hbefore, hfirst, hlast, hlt⟩
    rw [parseChars_append hbefore, TimeOfDay.parseChars_eq_ok_iff.mpr hfirst,
      TimeOfDay.parseChars_eq_ok_iff.mpr hlast]
    exact (make_eq_ok_iff hfirst.minute_lt hlast.minute_lt).mpr ⟨hlt, rfl⟩

lemma parseChars_eq_error_iff : parseChars cs = .error e ↔ Faulty cs e := by
  constructor
  · intro h
    by_cases hdash : '-' ∈ cs
    · obtain ⟨before, after, rfl, hbefore⟩ := List.eq_append_cons_of_mem hdash
      rw [parseChars_append hbefore, bind_eq_error_iff] at h
      rcases h with h | ⟨s, hs, h⟩
      · exact .first before after e rfl hbefore (TimeOfDay.parseChars_eq_error_iff.mp h)
      rw [TimeOfDay.parseChars_eq_ok_iff] at hs
      rcases bind_eq_error_iff.mp h with h | ⟨t, ht, h⟩
      · exact .last before after s e rfl hbefore hs (TimeOfDay.parseChars_eq_error_iff.mp h)
      rw [TimeOfDay.parseChars_eq_ok_iff] at ht
      obtain ⟨hle, rfl⟩ := (make_eq_error_iff hs.minute_lt ht.minute_lt).mp h
      exact .order before after s t rfl hbefore hs ht hle
    · rw [parseChars_of_not_mem hdash] at h
      cases h
      exact .format hdash
  · intro h
    cases h with
    | format hdash => exact parseChars_of_not_mem hdash
    | first before after e hcs hbefore h =>
      rw [hcs, parseChars_append hbefore, TimeOfDay.parseChars_eq_error_iff.mpr h]
      rfl
    | last before after s e hcs hbefore hs h =>
      rw [hcs, parseChars_append hbefore, TimeOfDay.parseChars_eq_ok_iff.mpr hs,
        TimeOfDay.parseChars_eq_error_iff.mpr h]
      rfl
    | order before after s t hcs hbefore hs ht hle =>
      rw [hcs, parseChars_append hbefore, TimeOfDay.parseChars_eq_ok_iff.mpr hs,
        TimeOfDay.parseChars_eq_ok_iff.mpr ht]
      exact (make_eq_error_iff hs.minute_lt ht.minute_lt).mpr ⟨hle, rfl⟩

lemma readsList_parseSpans : Text.ReadsList ',' parseSpans Writes Faulty :=
  Text.readsList_of_piece (fun _ => rfl)
    (fun p span => by rw [parseChars_trim, parseChars_eq_ok_iff])
    (fun p e => by rw [parseChars_trim, parseChars_eq_error_iff])

lemma Writes.contains_iff (h : Writes cs span) (ht : t.minute.toNat < 60) :
    span.contains t = true ↔
      span.first.minutes ≤ t.minutes ∧ t.minutes ≤ span.last.minutes := by
  obtain ⟨before, after, -, -, hfirst, hlast, -⟩ := h
  rw [TimeSpan.contains_iff, TimeOfDay.place_le_iff hfirst.minute_lt ht,
    TimeOfDay.place_le_iff ht hlast.minute_lt]

lemma toList_render (span : TimeSpan) :
    span.render.toList = span.first.render.toList ++ '-' :: span.last.render.toList := by
  rw [render, String.toList_append, String.toList_append, List.append_assoc]
  rfl

lemma Writes.render (h : Writes cs span) : Writes span.render.toList span := by
  obtain ⟨before, after, -, -, hfirst, hlast, hlt⟩ := h
  have hdash : '-' ∉ span.first.render.toList := fun hmem => by
    rcases TimeOfDay.isDigit_or_colon_of_mem_render hmem with h | h <;> cases h
  exact ⟨_, _, toList_render span, hdash, hfirst.render, hlast.render, hlt⟩

def renderAll (spans : List TimeSpan) : String :=
  String.ofList (Text.join ',' (spans.map fun span => span.render.toList))

lemma comma_notMem_render (span : TimeSpan) : ',' ∉ span.render.toList := by
  rw [toList_render, List.mem_append, List.mem_cons]
  rintro (h | h | h)
  · rcases TimeOfDay.isDigit_or_colon_of_mem_render h with h | h <;> cases h
  · cases h
  · rcases TimeOfDay.isDigit_or_colon_of_mem_render h with h | h <;> cases h

lemma allBlank_render (span : TimeSpan) : Text.allBlank span.render.toList = false := by
  rw [toList_render, Text.allBlank, List.all_append, List.all_cons]
  simp [Text.isBlank]

lemma parseSpans_renderAll {text : String} {spans : List TimeSpan}
    (h : parseSpans text = .ok spans) : parseSpans (renderAll spans) = .ok spans := by
  have hpieces : Text.writtenPieces ',' (renderAll spans).toList =
      spans.map fun span => span.render.toList := by
    rw [renderAll, String.toList_ofList]
    refine Text.writtenPieces_join fun p hp => ?_
    obtain ⟨span, -, rfl⟩ := List.mem_map.mp hp
    exact ⟨comma_notMem_render span, allBlank_render span⟩
  rw [readsList_parseSpans.accepts, hpieces, List.forall₂_map_left_iff]
  refine List.forall₂_same.mpr fun span hspan => ?_
  obtain ⟨p, -, hp⟩ := exists_of_forall₂_of_mem_right
    ((readsList_parseSpans.accepts text spans).mp h) hspan
  exact hp.render

end TimeSpan

/-- A text writes a day of the week: the numeral of its number. -/
def WritesDay (cs : List Char) (day : Weekday) : Prop := Text.Numeral day.number (Text.trim cs)

/-- The fault of a text that writes no day of the week. -/
def FaultyDay (cs : List Char) (e : WindowError) : Prop :=
  (∀ day, ¬ WritesDay cs day) ∧ e = .dayOfWeek (String.ofList (Text.trim cs))

lemma parseDay_eq (cs : List Char) : parseDay cs =
    ((Text.unsignedBelow? UInt32.size cs).bind Weekday.ofNumber?).elim
      (.error (.dayOfWeek (String.ofList cs))) .ok := by
  unfold parseDay
  cases (Text.unsignedBelow? UInt32.size cs).bind Weekday.ofNumber? <;> rfl

lemma ofNumber?_unsignedBelow?_eq_some_iff :
    (Text.unsignedBelow? UInt32.size (Text.trim cs)).bind Weekday.ofNumber? = some day ↔
      WritesDay cs day := by
  rw [Option.bind_eq_some_iff]
  simp only [Weekday.ofNumber?_eq_some_iff, Text.unsignedBelow?, Option.filter_eq_some_iff]
  constructor
  · rintro ⟨n, ⟨hn, -⟩, rfl⟩
    exact Text.numeral_of_unsigned? hn
  · intro h
    exact ⟨_, ⟨h.unsigned?_eq, by simpa using day.number_lt⟩, rfl⟩

lemma parseDay_eq_ok_iff : parseDay (Text.trim cs) = .ok day ↔ WritesDay cs day := by
  rw [parseDay_eq, ← ofNumber?_unsignedBelow?_eq_some_iff]
  cases (Text.unsignedBelow? UInt32.size (Text.trim cs)).bind Weekday.ofNumber? <;> simp

lemma parseDay_eq_error_iff : parseDay (Text.trim cs) = .error e ↔ FaultyDay cs e := by
  unfold FaultyDay
  rw [parseDay_eq]
  simp only [← ofNumber?_unsignedBelow?_eq_some_iff]
  cases (Text.unsignedBelow? UInt32.size (Text.trim cs)).bind Weekday.ofNumber? <;>
    simp [eq_comm]

lemma readsList_parseDays : Text.ReadsList ',' parseDays WritesDay FaultyDay :=
  Text.readsList_of_piece (fun _ => rfl) (fun _ _ => parseDay_eq_ok_iff)
    (fun _ _ => parseDay_eq_error_iff)

/-- The readers of spans and of days accept what their pieces write, and else report the first piece
at fault with its first fault. Accepted spans hold the minutes between their ends, and they are read
again from what they are shown as. -/
theorem windows_of_text :
    Text.ReadsList ',' parseSpans TimeSpan.Writes TimeSpan.Faulty ∧
    Text.ReadsList ',' parseDays WritesDay FaultyDay ∧
    ∀ text spans, parseSpans text = .ok spans →
      (∀ span ∈ spans, ∀ t : TimeOfDay, t.minute.toNat < 60 →
        (span.contains t = true ↔
          span.first.minutes ≤ t.minutes ∧ t.minutes ≤ span.last.minutes)) ∧
      parseSpans (TimeSpan.renderAll spans) = .ok spans := by
  refine ⟨TimeSpan.readsList_parseSpans, readsList_parseDays, fun text spans h => ?_⟩
  refine ⟨fun span hspan t ht => ?_, TimeSpan.parseSpans_renderAll h⟩
  obtain ⟨p, -, hp⟩ := exists_of_forall₂_of_mem_right
    ((TimeSpan.readsList_parseSpans.accepts text spans).mp h) hspan
  exact hp.contains_iff ht

/-- Zeros, plus signs and blanks make no difference to a span, and noon is its last minute. -/
theorem windows_of_text_with_blanks :
    let span : TimeSpan := ⟨⟨8, 5⟩, ⟨12, 0⟩⟩
    parseSpans " , +8 : 05-012:0 ,," = .ok [span] ∧
    span.contains ⟨12, 0⟩ = true ∧ span.contains ⟨12, 1⟩ = false ∧
    parseSpans "08:05-12:00" = .ok [span] := by
  intro span
  have hparse : parseSpans " , +8 : 05-012:0 ,," = .ok [span] := by decide
  have hshown : TimeSpan.renderAll [span] = "08:05-12:00" := by decide
  obtain ⟨hcontains, hrender⟩ := windows_of_text.2.2 _ _ hparse
  rw [hshown] at hrender
  refine ⟨hparse, (hcontains span (by simp) ⟨12, 0⟩ (by decide)).mpr (by decide), ?_, hrender⟩
  refine Bool.eq_false_iff.mpr fun h => ?_
  exact absurd ((hcontains span (by simp) ⟨12, 1⟩ (by decide)).mp h) (by decide)

/-- Of several faults the first one in the order of the checks is reported. -/
example : parseSpans "9:00-10:00, 24:60-x, 8-9" = .error (.hour 24) := by decide

end Watchdog

end ReviewStream
