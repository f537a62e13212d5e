import Mathlib.Data.Rat.Floor
import CardanoGraphql.DateTimeText
import CardanoGraphql.RegExp

namespace CardanoGraphql.DateTimeScalar

open CodeUnits Calendar DateTimeText RegExp

section Pattern

def anyDigit : RegExp UInt16 := .cls isDigit

def two (high : Char) : RegExp UInt16 := .seq (between '0' high) anyDigit

def four : RegExp UInt16 := seqs [anyDigit, anyDigit, anyDigit] anyDigit

/-- `\d{4}-[01]\d-[0-3]\dT[0-2]\d:[0-5]\d` -/
def minutePattern : RegExp UInt16 :=
  seqs [four, chr '-', two '1', chr '-', two '3', chr 'T', two '2', chr ':'] (two '5')

def secondPattern : RegExp UInt16 := .seq (chr ':') (two '5')

def fractionPattern : RegExp UInt16 := .seq (chr '.') (.many1 isDigit)

def zonePattern : RegExp UInt16 :=
  .alt (seqs [.cls fun u => decide (u = unit '+') || decide (u = unit '-'), two '2', chr ':'] (two '5')) (chr 'Z')

def isoDateRegExp : RegExp UInt16 :=
  .alt (seqs [minutePattern, secondPattern, fractionPattern] zonePattern)
    (.alt (seqs [minutePattern, secondPattern] zonePattern) (seqs [minutePattern] zonePattern))

def isIsoDateString (string : CodeUnits) : Bool := test isoDateRegExp string

end Pattern

section Words

variable {length : Nat} {word after : CodeUnits}

theorem number_pair {a b : UInt16} : number [a, b] = digitValue a * 10 + digitValue b := by
  simp [number, BigNumber.value]

theorem word_two (high : Char) (bound : Nat)
    (h : isDigit (unit high) = true ∧ (digitValue (unit high) + 1) * 10 = bound) :
    Word length (two high) word after ↔ ∃ m < bound, word = padded 2 m := by
  obtain ⟨h, hbound⟩ := h
  have hhigh := isDigit_iff.mp h
  have hzero : (unit '0').toNat = 48 := rfl
  rw [two, between, word_cls_seq]
  constructor
  · rintro ⟨a, rest, rfl, ha, b, rfl, hb⟩
    rw [Bool.and_eq_true, decide_eq_true_iff, decide_eq_true_iff, hzero] at ha
    have hdigit : isDigit a = true := isDigit_iff.mpr (by omega)
    refine ⟨number [a, b], ?_, (padded_number (List.forall_mem_cons.mpr ⟨hdigit, List.forall_mem_singleton.mpr hb⟩)).symm⟩
    have := digitValue_lt hb
    have hle : digitValue a ≤ digitValue (unit high) := by
      rw [digitValue, digitValue]
      omega
    rw [number_pair]
    omega
  · rintro ⟨m, hm, rfl⟩
    have hlt := digitValue_lt h
    have htens : m / 10 % 10 = m / 10 := Nat.mod_eq_of_lt (by omega)
    refine ⟨digit (m / 10 % 10), [digit (m % 10)], rfl, ?_, _, rfl, isDigit_digit (Nat.mod_lt m (by decide))⟩
    have hvalue : digitValue (unit high) = (unit high).toNat - 48 := rfl
    rw [Bool.and_eq_true, decide_eq_true_iff, decide_eq_true_iff, hzero, digit_toNat (by omega), htens]
    omega

theorem word_four : Word length four word after ↔ ∃ m < 10000, word = padded 4 m := by
  constructor
  · rintro ⟨_, _, rfl, ⟨a, rfl, ha⟩, _, _, rfl, ⟨b, rfl, hb⟩, _, _, rfl, ⟨c, rfl, hc⟩, d, rfl, hd⟩
    have hdigits : ∀ u ∈ [a, b, c, d], isDigit u = true := by
      simp only [List.forall_mem_cons, ha, hb, hc, hd, true_and]
      exact fun u hu => absurd hu List.not_mem_nil
    have hlt : number [a, b, c, d] < 10 ^ 4 := number_lt hdigits
    exact ⟨number [a, b, c, d], by omega, (padded_number hdigits).symm⟩
  · rintro ⟨m, -, rfl⟩
    have hdigit : ∀ k, ∃ a, [digit (k % 10)] = [a] ∧ isDigit a = true := by
      intro k
      exact ⟨_, rfl, isDigit_digit (Nat.mod_lt k (by decide))⟩
    exact ⟨[_], _, rfl, hdigit _, [_], _, rfl, hdigit _, [_], _, rfl, hdigit _, hdigit _⟩

theorem word_minute : Word length minutePattern word after ↔
    ∃ year < 10000, ∃ month < 20, ∃ day < 40, ∃ hour < 30, ∃ minute < 60,
      word = minuteText year month day hour minute := by
  constructor
  · rintro ⟨_, _, rfl, yearWord, h⟩
    obtain ⟨_, rfl, _, _, rfl, monthWord, h⟩ := word_chr_seq.mp h
    obtain ⟨_, rfl, _, _, rfl, dayWord, h⟩ := word_chr_seq.mp h
    obtain ⟨_, rfl, _, _, rfl, hourWord, h⟩ := word_chr_seq.mp h
    obtain ⟨_, rfl, minuteWord⟩ := word_chr_seq.mp h
    obtain ⟨year, hyear, rfl⟩ := word_four.mp yearWord
    obtain ⟨month, hmonth, rfl⟩ := (word_two '1' 20 (by decide)).mp monthWord
    obtain ⟨day, hday, rfl⟩ := (word_two '3' 40 (by decide)).mp dayWord
    obtain ⟨hour, hhour, rfl⟩ := (word_two '2' 30 (by decide)).mp hourWord
    obtain ⟨minute, hminute, rfl⟩ := (word_two '5' 60 (by decide)).mp minuteWord
    exact ⟨year, hyear, month, hmonth, day, hday, hour, hhour, minute, hminute, rfl⟩
  · rintro ⟨year, hyear, month, hmonth, day, hday, hour, hhour, minute, hminute, rfl⟩
    refine ⟨_, _, rfl, word_four.mpr ⟨year, hyear, rfl⟩, ?_⟩
    refine word_chr_seq.mpr ⟨_, rfl, _, _, rfl, (word_two '1' 20 (by decide)).mpr ⟨month, hmonth, rfl⟩, ?_⟩
    refine word_chr_seq.mpr ⟨_, rfl, _, _, rfl, (word_two '3' 40 (by decide)).mpr ⟨day, hday, rfl⟩, ?_⟩
    refine word_chr_seq.mpr ⟨_, rfl, _, _, rfl, (word_two '2' 30 (by decide)).mpr ⟨hour, hhour, rfl⟩, ?_⟩
    exact word_chr_seq.mpr ⟨_, rfl, (word_two '5' 60 (by decide)).mpr ⟨minute, hminute, rfl⟩⟩

theorem word_zone : Word length zonePattern word after ↔
    ∃ z, (∀ negative hours minutes, z = Zone.offset negative hours minutes → hours < 30 ∧ minutes < 60) ∧
      word = zoneText z := by
  constructor
  · rintro (h | h)
    · obtain ⟨a, _, rfl, ha, _, _, rfl, hoursWord, h⟩ := word_cls_seq.mp h
      obtain ⟨_, rfl, minutesWord⟩ := word_chr_seq.mp h
      obtain ⟨hours, hhours, rfl⟩ := (word_two '2' 30 (by decide)).mp hoursWord
      obtain ⟨minutes, hminutes, rfl⟩ := (word_two '5' 60 (by decide)).mp minutesWord
      rw [Bool.or_eq_true, decide_eq_true_iff, decide_eq_true_iff] at ha
      rcases ha with rfl | rfl
      · refine ⟨.offset false hours minutes, ?_, rfl⟩
        rintro _ _ _ ⟨⟩
        exact ⟨hhours, hminutes⟩
      · refine ⟨.offset true hours minutes, ?_, rfl⟩
        rintro _ _ _ ⟨⟩
        exact ⟨hhours, hminutes⟩
    · refine ⟨.utc, ?_, word_chr.mp h⟩
      rintro _ _ _ ⟨⟩
  · rintro ⟨z, hz, rfl⟩
    cases z with
    | utc => exact Or.inr (word_chr.mpr rfl)
    | offset negative hours minutes =>
        obtain ⟨hhours, hminutes⟩ := hz negative hours minutes rfl
        have hsign : (decide ((if negative then unit '-' else unit '+') = unit '+') ||
            decide ((if negative then unit '-' else unit '+') = unit '-')) = true := by
          cases negative <;> decide
        refine Or.inl (word_cls_seq.mpr ⟨_, _, rfl, hsign, ?_⟩)
        refine ⟨_, _, rfl, (word_two '2' 30 (by decide)).mpr ⟨hours, hhours, rfl⟩, ?_⟩
        exact word_chr_seq.mpr ⟨_, rfl, (word_two '5' 60 (by decide)).mpr ⟨minutes, hminutes, rfl⟩⟩

theorem word_second : Word length secondPattern word after ↔ ∃ second < 60, word = unit ':' :: padded 2 second := by
  rw [secondPattern, word_chr_seq]
  constructor
  · rintro ⟨_, rfl, secondWord⟩
    obtain ⟨second, hsecond, rfl⟩ := (word_two '5' 60 (by decide)).mp secondWord
    exact ⟨second, hsecond, rfl⟩
  · rintro ⟨second, hsecond, rfl⟩
    exact ⟨_, rfl, (word_two '5' 60 (by decide)).mpr ⟨second, hsecond, rfl⟩⟩

theorem word_fraction : Word length fractionPattern word after ↔
    ∃ digits, digits ≠ [] ∧ (∀ u ∈ digits, isDigit u = true) ∧ word = fractionText digits := by
  rw [fractionPattern, word_chr_seq]
  constructor
  · rintro ⟨digits, rfl, hne, hdigits⟩
    exact ⟨digits, hne, hdigits, (if_neg hne).symm⟩
  · rintro ⟨digits, hne, hdigits, rfl⟩
    exact ⟨digits, if_neg hne, hne, hdigits⟩

theorem word_tail : Word length (.alt (seqs [secondPattern, fractionPattern] zonePattern)
      (.alt (seqs [secondPattern] zonePattern) zonePattern)) word after ↔
    ∃ seconds : Option (Nat × CodeUnits), (∀ s ∈ seconds, s.1 < 60 ∧ ∀ u ∈ s.2, isDigit u = true) ∧
      ∃ z, (∀ negative hours minutes, z = Zone.offset negative hours minutes → hours < 30 ∧ minutes < 60) ∧
        word = secondsText seconds ++ zoneText z := by
  constructor
  · rintro (⟨_, _, rfl, secondWord, _, _, rfl, fractionWord, zoneWord⟩ | ⟨_, _, rfl, secondWord, zoneWord⟩ | zoneWord)
    · obtain ⟨second, hsecond, rfl⟩ := word_second.mp secondWord
      obtain ⟨digits, -, hdigits, rfl⟩ := word_fraction.mp fractionWord
      obtain ⟨z, hz, rfl⟩ := word_zone.mp zoneWord
      refine ⟨some (second, digits), ?_, z, hz, ?_⟩
      · rintro _ ⟨⟩
        exact ⟨hsecond, hdigits⟩
      · rw [secondsText, List.cons_append, List.cons_append, List.append_assoc]
    · obtain ⟨second, hsecond, rfl⟩ := word_second.mp secondWord
      obtain ⟨z, hz, rfl⟩ := word_zone.mp zoneWord
      refine ⟨some (second, []), ?_, z, hz, ?_⟩
      · rintro _ ⟨⟩
        exact ⟨hsecond, fun u hu => absurd hu List.not_mem_nil⟩
      · rw [secondsText, fractionText, if_pos rfl, List.append_nil]
    · obtain ⟨z, hz, rfl⟩ := word_zone.mp zoneWord
      refine ⟨none, ?_, z, hz, rfl⟩
      rintro _ ⟨⟩
  · rintro ⟨seconds, hseconds, z, hz, rfl⟩
    have zoneWord := @word_zone length (zoneText z) after |>.mpr ⟨z, hz, rfl⟩
    cases seconds with
    | none => exact Or.inr (Or.inr zoneWord)
    | some s =>
        obtain ⟨second, digits⟩ := s
        obtain ⟨hsecond, hdigits⟩ := hseconds _ rfl
        by_cases hne : digits = []
        · refine Or.inr (Or.inl ⟨_, _, ?_, word_second.mpr ⟨second, hsecond, rfl⟩, zoneWord⟩)
          rw [secondsText, fractionText, if_pos hne, List.append_nil]
        · refine Or.inl ⟨_, _, ?_, word_second.mpr ⟨second, hsecond, rfl⟩, _, _, rfl,
            word_fraction.mpr ⟨digits, hne, hdigits, rfl⟩, zoneWord⟩
          rw [secondsText, List.cons_append, List.cons_append, List.append_assoc]

/-- The words of the pattern are the texts of the written forms, with numbers in its bounds. -/
theorem word_iso : Word length isoDateRegExp word after ↔ LooseText word := by
  have hfactor : Word length isoDateRegExp word after ↔
      Word length (.seq minutePattern (.alt (seqs [secondPattern, fractionPattern] zonePattern)
        (.alt (seqs [secondPattern] zonePattern) zonePattern))) word after := by
    rw [word_seq_alt]
    exact or_congr_right word_seq_alt.symm
  rw [hfactor]
  constructor
  · rintro ⟨_, _, rfl, minuteWord, tailWord⟩
    obtain ⟨year, hyear, month, hmonth, day, hday, hour, hhour, minute, hminute, rfl⟩ := word_minute.mp minuteWord
    obtain ⟨seconds, hseconds, z, hz, rfl⟩ := word_tail.mp tailWord
    exact ⟨⟨year, month, day, hour, minute, seconds, z⟩,
      ⟨hyear, hmonth, hday, hhour, hminute, hseconds, hz⟩, rfl⟩
  · rintro ⟨w, hw, rfl⟩
    refine ⟨_, _, rfl, word_minute.mpr ?_, word_tail.mpr ⟨w.seconds, hw.seconds, w.zone, hw.zone, rfl⟩⟩
    exact ⟨w.year, hw.year, w.month, hw.month, w.day, hw.day, w.hour, hw.hour, w.minute, hw.minute, rfl⟩

theorem isIsoDateString_iff (s : CodeUnits) :
    isIsoDateString s = true ↔ ∃ before w after, s = before ++ Written.text w ++ after ∧ w.InPattern := by
  rw [isIsoDateString, test_iff]
  constructor
  · rintro ⟨before, word, after, hs, hword⟩
    obtain ⟨w, hw, rfl⟩ := word_iso.mp hword
    exact ⟨before, w, after, hs, hw⟩
  · rintro ⟨before, w, after, hs, hw⟩
    exact ⟨before, w.text, after, hs, word_iso.mpr ⟨w, hw, rfl⟩⟩

end Words

/-- The UTC fields that `YYYY-MM-DDTHH:mm:ss` shows. -/
structure Timestamp where
  date : Date
  hour : Nat
  minute : Nat
  second : Nat
  hour_valid : hour < 24
  minute_valid : minute < 60
  second_valid : second < 60

def Timestamp.seconds (t : Timestamp) : Int :=
  dayNumber t.date * 86400 + t.hour * 3600 + t.minute * 60 + t.second

/-- A text of `format`, by what it says. -/
inductive Formatted
  | invalidDate
  | timestamp (fields : Timestamp)

/-- `dayjs.utc`, which gives the milliseconds since 1970 of a valid date, and `format`
with the pattern `YYYY-MM-DDTHH:mm:ss`. -/
structure Dayjs where
  utc : CodeUnits → Option Int
  format : Int → Timestamp

/-- A date-time is parsed to its millisecond, and the fields are those of the instant,
without what the pattern omits. -/
structure Documented (d : Dayjs) : Prop where
  parses : ∀ w : Written, w.Real → d.utc w.text = some ⌊w.instant * 1000⌋
  prints : ∀ milliseconds, ∃ omitted : Int, 0 ≤ omitted ∧ omitted < 1000 ∧
    (d.format milliseconds).seconds * 1000 + omitted = milliseconds

inductive Value
  | string (value : CodeUnits)
  | other (json : CodeUnits)

/-- A literal; of one that is not a string, the field `value` where the node has one. -/
inductive Literal
  | string (value : CodeUnits)
  | other (value : Option CodeUnits)

def invalidType (shown : CodeUnits) : CodeUnits := ofString "DateTime cannot represent non string type " ++ shown

def invalidString (value : CodeUnits) : CodeUnits :=
  ofString "DateTime cannot represent an invalid date-time-string " ++ value ++ ofString "."

section Parsers

variable (d : Dayjs)

def format (value : CodeUnits) : Formatted :=
  (d.utc value).elim .invalidDate fun milliseconds => .timestamp (d.format milliseconds)

def parseValue : Value → Except CodeUnits Formatted
  | .other json => .error (invalidType json)
  | .string value => if ¬ isIsoDateString value then .error (invalidString value) else .ok (format d value)

def parseLiteral : Literal → Except CodeUnits Formatted
  | .other value => .error (invalidType (value.getD (ofString "false")))
  | .string value => if ¬ isIsoDateString value then .error (invalidString value) else .ok (format d value)

end Parsers

section Acceptance

variable {d : Dayjs}

/-- A result is a date to send for a date-time, and an error for every other string. -/
structure ExactResult (s : CodeUnits) (result : Except CodeUnits Formatted) : Prop where
  accepts : (∃ value, result = .ok value) ↔ IsDateTime s
  rejects : ¬ IsDateTime s → ∃ message, result = .error message
  valid : result ≠ .ok .invalidDate

def Exact (d : Dayjs) (s : CodeUnits) : Prop :=
  ExactResult s (parseValue d (.string s)) ∧ ExactResult s (parseLiteral d (.string s))

theorem parseLiteral_string (s : CodeUnits) : parseLiteral d (.string s) = parseValue d (.string s) := rfl

theorem parseValue_iso {s : CodeUnits} (h : isIsoDateString s = true) :
    parseValue d (.string s) = .ok (format d s) := by
  rw [parseValue, if_neg (not_not.mpr h)]

theorem parseValue_notIso {s : CodeUnits} (h : ¬ isIsoDateString s = true) :
    parseValue d (.string s) = .error (invalidString s) := by
  rw [parseValue, if_pos h]

theorem isIso_text {w : Written} (h : w.InPattern) : isIsoDateString w.text = true :=
  (isIsoDateString_iff w.text).mpr ⟨[], w, [], (List.append_nil _).symm, h⟩

theorem parseValue_real (hd : Documented d) {w : Written} (hw : w.Real) :
    ∃ fields, parseValue d (.string w.text) = .ok (.timestamp fields) ∧ fields.seconds = w.wholeSeconds := by
  refine ⟨d.format ⌊w.instant * 1000⌋, ?_, ?_⟩
  · rw [parseValue_iso (isIso_text hw.inPattern), format, hd.parses w hw]
    rfl
  · obtain ⟨omitted, hnonneg, hlt, hprint⟩ := hd.prints ⌊w.instant * 1000⌋
    obtain ⟨hfraction, hone⟩ := fraction_bounds hw
    have hlow : w.wholeSeconds * 1000 ≤ ⌊w.instant * 1000⌋ := by
      rw [Int.le_floor, Written.instant]
      push_cast
      linarith
    have hhigh : ⌊w.instant * 1000⌋ < w.wholeSeconds * 1000 + 1000 := by
      rw [Int.floor_lt, Written.instant]
      push_cast
      linarith
    omega

/-- Exactly the strings are read right in which every piece that is in a written form is
the whole string, and a real date and time. -/
theorem exact_iff (hd : Documented d) (s : CodeUnits) :
    Exact d s ↔ ∀ before w after, s = before ++ Written.text w ++ after → w.InPattern →
      before = [] ∧ after = [] ∧ w.Real := by
  rw [Exact, parseLiteral_string, and_self]
  constructor
  · intro hexact before w after hs hw
    have hiso : isIsoDateString s = true := (isIsoDateString_iff s).mpr ⟨before, w, after, hs, hw⟩
    obtain ⟨v, hv, htext⟩ := hexact.accepts.mp ⟨_, parseValue_iso hiso⟩
    obtain ⟨hbefore, hafter, hsame⟩ := piece_eq hw hv.inPattern (htext.trans hs)
    exact ⟨hbefore, hafter, hsame ▸ hv⟩
  · intro hpieces
    by_cases hiso : isIsoDateString s = true
    · obtain ⟨before, w, after, hs, hw⟩ := (isIsoDateString_iff s).mp hiso
      obtain ⟨rfl, rfl, hreal⟩ := hpieces before w after hs hw
      rw [List.nil_append, List.append_nil] at hs
      have hdate : IsDateTime s := ⟨w, hreal, hs.symm⟩
      obtain ⟨fields, hresult, -⟩ := parseValue_real hd hreal
      rw [← hs] at hresult
      refine ⟨iff_of_true ⟨_, hresult⟩ hdate, fun hnot => absurd hdate hnot, ?_⟩
      rw [hresult]
      rintro ⟨⟩
    · have hnot : ¬ IsDateTime s := by
        rintro ⟨w, hw, rfl⟩
        exact hiso (isIso_text hw.inPattern)
      rw [parseValue_notIso hiso]
      refine ⟨iff_of_false ?_ hnot, fun _ => ⟨_, rfl⟩, ?_⟩
      · rintro ⟨value, ⟨⟩⟩
      · rintro ⟨⟩

def Timestamp.ofSeconds (seconds : Int) : Timestamp :=
  { date := ofDayNumber (seconds / 86400)
    hour := (seconds % 86400 / 3600).toNat
    minute := (seconds % 3600 / 60).toNat
    second := (seconds % 60).toNat
    hour_valid := by omega
    minute_valid := by omega
    second_valid := by omega }

theorem seconds_ofSeconds (seconds : Int) : (Timestamp.ofSeconds seconds).seconds = seconds := by
  simp only [Timestamp.seconds, Timestamp.ofSeconds, dayNumber_ofDayNumber]
  omega

def calendarDayjs : Dayjs :=
  { utc := fun value =>
      let w := read value
      if 1 ≤ w.month ∧ w.month ≤ 12 ∧ 1 ≤ w.day ∧ w.day ≤ daysInMonth w.year w.month then some ⌊w.instant * 1000⌋
      else none
    format := fun milliseconds => Timestamp.ofSeconds (milliseconds / 1000) }

theorem calendarDayjs_documented : Documented calendarDayjs := by
  constructor
  · intro w hw
    have hread : read w.text = w := by
      simpa only [List.append_nil] using read_text hw.inPattern []
    simp only [calendarDayjs, hread]
    exact if_pos ⟨hw.month.1, hw.month.2, hw.day.1, hw.day.2⟩
  · intro milliseconds
    refine ⟨milliseconds % 1000, by omega, by omega, ?_⟩
    simp only [calendarDayjs, seconds_ofSeconds]
    omega

def thirteenthMonth : CodeUnits := ofString "2021-13-01T00:00Z"

theorem thirteenthMonth_sent : Documented calendarDayjs ∧
    parseValue calendarDayjs (.string thirteenthMonth) = .ok .invalidDate ∧ ¬ Exact calendarDayjs thirteenthMonth := by
  have hsent : parseValue calendarDayjs (.string thirteenthMonth) = .ok .invalidDate := rfl
  exact ⟨calendarDayjs_documented, hsent, fun hexact => hexact.1.valid hsent⟩

theorem thirteenthMonth_iff :
    Exact calendarDayjs thirteenthMonth ↔ ∀ before w after, thirteenthMonth = before ++ Written.text w ++ after →
      w.InPattern → before = [] ∧ after = [] ∧ w.Real :=
  exact_iff calendarDayjs_documented thirteenthMonth

end Acceptance

section Filters

variable {d : Dayjs}

inductive Comparison
  | _eq
  | _neq
  | _gt
  | _gte
  | _lt
  | _lte
deriving DecidableEq

def Comparison.holds (column value : ℚ) : Comparison → Prop
  | ._eq => column = value
  | ._neq => column ≠ value
  | ._gt => value < column
  | ._gte => value ≤ column
  | ._lt => column < value
  | ._lte => column ≤ value

def KeepsMeaning (d : Dayjs) (w : Written) (t : Int) (op : Comparison) : Prop :=
  ∃ fields, parseValue d (.string w.text) = .ok (.timestamp fields) ∧
    (op.holds t fields.seconds ↔ op.holds t w.instant)

theorem holds_congr {column a b : ℚ} (heq : column = a ↔ column = b) (hlt : column < a ↔ column < b)
    (op : Comparison) : op.holds column a ↔ op.holds column b := by
  cases op with
  | _eq => exact heq
  | _neq => exact not_congr heq
  | _gt =>
      have hle : column ≤ a ↔ column ≤ b := by
        rw [le_iff_lt_or_eq, le_iff_lt_or_eq, hlt, heq]
      rw [Comparison.holds, Comparison.holds, ← not_le, ← not_le, hle]
  | _gte => rw [Comparison.holds, Comparison.holds, ← not_lt, ← not_lt, hlt]
  | _lt => exact hlt
  | _lte => rw [Comparison.holds, Comparison.holds, le_iff_lt_or_eq, le_iff_lt_or_eq, hlt, heq]

theorem holds_fraction_iff {seconds t : Int} {fraction : ℚ} (hnonneg : 0 ≤ fraction) (hone : fraction < 1)
    (op : Comparison) : (op.holds t seconds ↔ op.holds t (seconds + fraction)) ↔
      ¬ (fraction ≠ 0 ∧ t = seconds ∧ op ∈ [Comparison._eq, ._neq, ._gte, ._lt]) := by
  by_cases hzero : fraction = 0
  · rw [hzero, add_zero]
    exact iff_of_true Iff.rfl fun h => h.1 rfl
  · have hpos : 0 < fraction := lt_of_le_of_ne hnonneg (Ne.symm hzero)
    rcases lt_trichotomy t seconds with hlt | rfl | hgt
    · have hcast : (t : ℚ) < seconds := by exact_mod_cast hlt
      have hsum : (t : ℚ) < seconds + fraction := by linarith
      refine iff_of_true (holds_congr ?_ ?_ op) fun h => hlt.ne h.2.1
      · exact iff_of_false hcast.ne hsum.ne
      · exact iff_of_true hcast hsum
    · have hsum : (t : ℚ) < t + fraction := by linarith
      cases op with
      | _eq => simp [Comparison.holds, hzero]
      | _neq => simp [Comparison.holds, hzero]
      | _gt => simp [Comparison.holds, hnonneg]
      | _gte => simp [Comparison.holds, hzero, hpos]
      | _lt => simp [Comparison.holds, hzero, hpos]
      | _lte => simp [Comparison.holds, hnonneg]
    · have hcast : (seconds : ℚ) + 1 ≤ t := by exact_mod_cast hgt
      refine iff_of_true (holds_congr ?_ ?_ op) fun h => hgt.ne' h.2.1
      · exact iff_of_false (by linarith) (by linarith)
      · exact iff_of_false (by linarith) (by linarith)

/-- A filter keeps its meaning but where the fraction decides: at the timestamp of the
second itself, under `_eq`, `_neq`, `_gte` and `_lt`. -/
theorem meaning_kept_iff (hd : Documented d) {w : Written} (hw : w.Real) (t : Int) (op : Comparison) :
    KeepsMeaning d w t op ↔
      ¬ (w.fraction ≠ 0 ∧ t = w.wholeSeconds ∧ op ∈ [Comparison._eq, ._neq, ._gte, ._lt]) := by
  obtain ⟨fields, hresult, hseconds⟩ := parseValue_real hd hw
  obtain ⟨hnonneg, hone⟩ := fraction_bounds hw
  rw [← holds_fraction_iff hnonneg hone op, KeepsMeaning, hresult]
  constructor
  · rintro ⟨_, ⟨⟩, hkept⟩
    rwa [hseconds] at hkept
  · intro hkept
    refine ⟨fields, rfl, ?_⟩
    rw [hseconds]
    exact hkept

def halfSecond : Written :=
  { year := 1970
    month := 1
    day := 1
    hour := 0
    minute := 0
    seconds := some (0, [unit '5'])
    zone := .utc }

theorem halfSecond_real : halfSecond.Real := by
  refine ⟨by decide, by decide, by decide, by decide, by decide, ?_, ?_⟩
  · rintro _ ⟨⟩
    exact ⟨by decide, List.forall_mem_singleton.mpr rfl⟩
  · rintro _ _ _ ⟨⟩

theorem halfSecond_missed : Documented calendarDayjs ∧ halfSecond.text = ofString "1970-01-01T00:00:00.5Z" ∧
    halfSecond.Real ∧ ¬ KeepsMeaning calendarDayjs halfSecond 0 ._gte := by
  refine ⟨calendarDayjs_documented, by decide, halfSecond_real, ?_⟩
  rintro ⟨fields, hresult, hkept⟩
  obtain ⟨sent, hsent, hseconds⟩ := parseValue_real calendarDayjs_documented halfSecond_real
  have hwhole : halfSecond.wholeSeconds = 0 := by decide
  have hfraction : halfSecond.fraction = 5 / 10 := by
    have hdigits : number [unit '5'] = 5 := by decide
    simp [Written.fraction, halfSecond, hdigits]
  have hinstant : halfSecond.instant = 1 / 2 := by
    rw [Written.instant, hwhole, hfraction]
    norm_num
  rw [hresult] at hsent
  cases hsent
  rw [hseconds, hwhole, hinstant] at hkept
  have hhalf : ((1 : ℚ) / 2) ≤ ((0 : Int) : ℚ) := hkept.mp le_rfl
  norm_num at hhalf

theorem halfSecond_iff : KeepsMeaning calendarDayjs halfSecond 0 ._lte ↔ ¬ (halfSecond.fraction ≠ 0 ∧
    0 = halfSecond.wholeSeconds ∧ Comparison._lte ∈ [Comparison._eq, ._neq, ._gte, ._lt]) :=
  meaning_kept_iff calendarDayjs_documented halfSecond_real 0 ._lte

end Filters

end CardanoGraphql.DateTimeScalar
