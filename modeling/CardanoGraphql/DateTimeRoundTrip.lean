import CardanoGraphql.DateTimeScalar

namespace CardanoGraphql.DateTimeRoundTrip

open CodeUnits Calendar DateTimeText DateTimeScalar

def timestampText (t : Timestamp) : CodeUnits :=
  minuteText t.date.year.toNat t.date.month t.date.day t.hour t.minute ++ secondsText (some (t.second, []))

structure Printer extends Dayjs where
  print : Timestamp → CodeUnits

def serialize (d : Printer) (value : CodeUnits) : CodeUnits :=
  if isIsoDateString value then value
  else (d.utc value).elim (ofString "Invalid Date") fun milliseconds => d.print (d.format milliseconds) ++ [unit 'Z']

/-- A `timestamp` column as PostgreSQL writes it into JSON: the zone is left out. -/
def columnText (w : Written) : CodeUnits :=
  minuteText w.year w.month w.day w.hour w.minute ++ secondsText w.seconds

/-- A column's date-time, of a year that takes four digits and of whole milliseconds. -/
structure InColumn (w : Written) : Prop extends Written.Real w where
  utc : w.zone = .utc
  fourDigits : 1000 ≤ w.year
  milliseconds : ((w.seconds.map Prod.snd).getD []).length ≤ 3

/-- A date-time without a zone is taken as one of UTC, to its second at least. The pattern's year
is the number as it is: an earlier one would be printed without leading zeros. -/
structure DocumentedUtc (d : Printer) : Prop extends Documented d.toDayjs where
  parsesColumn : ∀ w, InColumn w → ∃ milliseconds, d.utc (columnText w) = some milliseconds ∧
    w.wholeSeconds * 1000 ≤ milliseconds ∧ milliseconds < w.wholeSeconds * 1000 + 1000
  printsText : ∀ t : Timestamp, 1000 ≤ t.date.year → t.date.year < 10000 → d.print t = timestampText t

def whole (w : Written) : Written := { w with seconds := some ((w.seconds.map Prod.fst).getD 0, []) }

section Column

variable {w : Written}

def columnTime (w : Written) : CodeUnits :=
  padded 2 w.hour ++ unit ':' :: (padded 2 w.minute ++ secondsText w.seconds)

theorem columnText_eq (w : Written) :
    columnText w = dayText w.year w.month w.day ++ unit 'T' :: columnTime w := by
  simp only [columnText, minuteText, dayText, columnTime, List.append_assoc, List.cons_append]

theorem secondsText_units (h : w.InPattern) :
    ∀ u ∈ secondsText w.seconds, u = unit ':' ∨ u = unit '.' ∨ isDigit u = true := by
  intro u hu
  cases hs : w.seconds with
  | none =>
      rw [hs] at hu
      cases hu
  | some s =>
      rw [hs, secondsText] at hu
      rcases List.mem_cons.mp hu with rfl | hu
      · exact Or.inl rfl
      · rcases List.mem_append.mp hu with hu | hu
        · exact Or.inr (Or.inr (padded_digits 2 s.1 u hu))
        · rw [fractionText] at hu
          split at hu
          · cases hu
          · rcases List.mem_cons.mp hu with rfl | hu
            · exact Or.inr (Or.inl rfl)
            · exact Or.inr (Or.inr ((h.seconds s hs).2 u hu))

theorem columnTime_units (h : w.InPattern) :
    ∀ u ∈ columnTime w, u = unit ':' ∨ u = unit '.' ∨ isDigit u = true := by
  intro u hu
  rcases List.mem_append.mp hu with hu | hu
  · exact Or.inr (Or.inr (padded_digits 2 w.hour u hu))
  · rcases List.mem_cons.mp hu with rfl | hu
    · exact Or.inl rfl
    · rcases List.mem_append.mp hu with hu | hu
      · exact Or.inr (Or.inr (padded_digits 2 w.minute u hu))
      · exact secondsText_units h u hu

theorem column_notIso (h : w.InPattern) : ¬ isIsoDateString (columnText w) = true := by
  rw [isIsoDateString_iff]
  rintro ⟨before, v, after, heq, -⟩
  have hseparator : unit 'T' ∉ columnTime w := by
    intro hu
    rcases columnTime_units h _ hu with hu | hu | hu <;> revert hu <;> decide
  have hsplit : dayText w.year w.month w.day ++ unit 'T' :: columnTime w =
      (before ++ dayText v.year v.month v.day) ++ unit 'T' :: (timeText v ++ after) := by
    rw [← columnText_eq, heq, text_eq, List.append_assoc, List.append_assoc, List.append_assoc, List.cons_append]
  have htime : columnTime w = timeText v ++ after :=
    ((List.append_cons_inj_of_notMem (separator_notMem_dayText w.year w.month w.day) hseparator).mp hsplit).2.2
  obtain ⟨u, rest, hzone, hcolon, hpoint, hdigit⟩ := zoneText_head v.zone
  have hmem : u ∈ columnTime w := by
    rw [htime, timeText, hzone]
    simp only [List.mem_append, List.mem_cons, true_or, or_true]
  rcases columnTime_units h u hmem with hu | hu | hu
  · exact hcolon hu
  · exact hpoint hu
  · rw [hu] at hdigit
    cases hdigit

end Column

section Fields

variable {w : Written}

def fieldsOf (w : Written) (h : w.Real) : Timestamp :=
  { date := ⟨w.year, w.month, w.day, h.month, h.day⟩
    hour := w.hour
    minute := w.minute
    second := (w.seconds.map Prod.fst).getD 0
    hour_valid := h.hour
    minute_valid := h.minute
    second_valid := by
      cases hs : w.seconds with
      | none => exact Nat.zero_lt_succ 59
      | some s => exact (h.seconds s hs).1 }

theorem seconds_fieldsOf (h : w.Real) (hzone : w.zone = .utc) : (fieldsOf w h).seconds = w.wholeSeconds := by
  rw [Timestamp.seconds, Written.wholeSeconds, hzone]
  simp only [fieldsOf, dayNumber, offsetSeconds, Int.sub_zero]

theorem seconds_injective {s t : Timestamp} (h : s.seconds = t.seconds) : s = t := by
  have hs := s.hour_valid
  have hs' := s.minute_valid
  have hs'' := s.second_valid
  have ht := t.hour_valid
  have ht' := t.minute_valid
  have ht'' := t.second_valid
  rw [Timestamp.seconds, Timestamp.seconds] at h
  have hday : dayNumber s.date = dayNumber t.date := by omega
  have hdate := dayNumber_injective hday
  have hhour : s.hour = t.hour := by omega
  have hminute : s.minute = t.minute := by omega
  have hsecond : s.second = t.second := by omega
  cases s
  cases t
  cases hdate
  cases hhour
  cases hminute
  cases hsecond
  rfl

theorem timestampText_fieldsOf (h : w.Real) :
    timestampText (fieldsOf w h) ++ [unit 'Z'] = (whole { w with zone := .utc }).text := by
  rw [timestampText, Written.text, List.append_assoc]
  rfl

end Fields

section RoundTrip

variable {d : Printer} {w : Written}

theorem format_second (hd : Documented d.toDayjs) (hw : InColumn w) {milliseconds : Int}
    (hlow : w.wholeSeconds * 1000 ≤ milliseconds) (hhigh : milliseconds < w.wholeSeconds * 1000 + 1000) :
    d.format milliseconds = fieldsOf w hw.toReal := by
  apply seconds_injective
  obtain ⟨omitted, hnonneg, hlt, hprint⟩ := hd.prints milliseconds
  rw [seconds_fieldsOf hw.toReal hw.utc]
  omega

theorem print_fieldsOf (hd : DocumentedUtc d) (hw : InColumn w) :
    d.print (fieldsOf w hw.toReal) = timestampText (fieldsOf w hw.toReal) :=
  hd.printsText _ (Int.ofNat_le.mpr hw.fourDigits) (Int.ofNat_lt.mpr hw.year)

theorem serialize_column (hd : DocumentedUtc d) (hw : InColumn w) : serialize d (columnText w) = (whole w).text := by
  have hsame : ({ w with zone := .utc } : Written) = w := by
    rw [← hw.utc]
  obtain ⟨milliseconds, hparse, hlow, hhigh⟩ := hd.parsesColumn w hw
  rw [serialize, if_neg (column_notIso hw.inPattern), hparse, Option.elim_some,
    format_second hd.toDocumented hw hlow hhigh, print_fieldsOf hd hw, timestampText_fieldsOf hw.toReal, hsame]

theorem whole_real (hw : w.Real) : (whole w).Real := by
  refine ⟨hw.year, hw.month, hw.day, hw.hour, hw.minute, ?_, hw.zone⟩
  rintro _ ⟨⟩
  exact ⟨(fieldsOf w hw).second_valid, fun u hu => absurd hu List.not_mem_nil⟩

theorem timestampText_column (hw : w.Real) : timestampText (fieldsOf w hw) = columnText (whole w) := rfl

/-- The date-time that the API shows of a column is accepted where one is sent: it is sent on as the
column's text without the fraction, and equals the column exactly where this has none. -/
theorem column_round_trip (hd : DocumentedUtc d) (hw : InColumn w) :
    IsDateTime (serialize d (columnText w)) ∧
      serialize d (serialize d (columnText w)) = serialize d (columnText w) ∧
      ∃ fields, parseValue d.toDayjs (.string (serialize d (columnText w))) = .ok (.timestamp fields) ∧
        d.print fields = columnText (whole w) ∧ ((fields.seconds : ℚ) = w.instant ↔ w.fraction = 0) := by
  have hwhole := whole_real hw.toReal
  rw [serialize_column hd hw]
  refine ⟨⟨whole w, hwhole, rfl⟩, if_pos (isIso_text hwhole.inPattern), fieldsOf w hw.toReal, ?_,
    (print_fieldsOf hd hw).trans (timestampText_column hw.toReal), ?_⟩
  · obtain ⟨fields, hparse, hseconds⟩ := parseValue_real hd.toDocumented hwhole
    have hsame : fields = fieldsOf w hw.toReal :=
      seconds_injective (hseconds.trans (seconds_fieldsOf hw.toReal hw.utc).symm)
    rw [hparse, hsame]
  · rw [seconds_fieldsOf hw.toReal hw.utc, Written.instant]
    exact eq_comm.trans add_eq_left

end RoundTrip

section Columns

theorem floor_bounds {w : Written} (hw : w.Real) :
    w.wholeSeconds * 1000 ≤ ⌊w.instant * 1000⌋ ∧ ⌊w.instant * 1000⌋ < w.wholeSeconds * 1000 + 1000 := by
  obtain ⟨hfraction, hone⟩ := fraction_bounds hw
  constructor
  · rw [Int.le_floor, Written.instant]
    push_cast
    linarith
  · rw [Int.floor_lt, Written.instant]
    push_cast
    linarith

def columnDayjs : Printer :=
  { utc := fun value =>
      if isIsoDateString value then calendarDayjs.utc value else calendarDayjs.utc (value ++ [unit 'Z'])
    format := calendarDayjs.format
    print := timestampText }

theorem columnDayjs_documented : DocumentedUtc columnDayjs := by
  refine ⟨⟨fun w hw => ?_, calendarDayjs_documented.prints⟩, fun w hw => ?_, fun _ _ _ => rfl⟩
  · exact (if_pos (isIso_text hw.inPattern)).trans (calendarDayjs_documented.parses w hw)
  · have htext : columnText w ++ [unit 'Z'] = w.text := by
      rw [columnText, Written.text, hw.utc, List.append_assoc]
      rfl
    refine ⟨⌊w.instant * 1000⌋, (if_neg (column_notIso hw.inPattern)).trans ?_, floor_bounds hw.toReal⟩
    rw [htext]
    exact calendarDayjs_documented.parses w hw.toReal

def firstBlock : Written := ⟨2017, 9, 23, 21, 44, some (51, []), .utc⟩

theorem firstBlock_round_trip :
    IsDateTime (serialize columnDayjs (ofString "2017-09-23T21:44:51")) ∧
      ∃ fields, parseValue columnDayjs.toDayjs (.string (serialize columnDayjs (ofString "2017-09-23T21:44:51"))) =
          .ok (.timestamp fields) ∧ columnDayjs.print fields = ofString "2017-09-23T21:44:51" := by
  have hcolumn : InColumn firstBlock := by
    refine ⟨⟨by decide, by decide, by decide, by decide, by decide, ?_, ?_⟩, rfl, by decide, by decide⟩
    · rintro _ ⟨⟩
      exact ⟨by decide, fun u hu => absurd hu List.not_mem_nil⟩
    · rintro _ _ _ ⟨⟩
  have htext : columnText firstBlock = ofString "2017-09-23T21:44:51" := by decide
  obtain ⟨hdate, -, fields, hparse, hfields, -⟩ := column_round_trip columnDayjs_documented hcolumn
  rw [htext] at hdate hparse
  exact ⟨hdate, fields, hparse, hfields.trans htext⟩

end Columns

end CardanoGraphql.DateTimeRoundTrip
