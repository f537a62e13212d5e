import CardanoGraphql.Calendar
import CardanoGraphql.CodeUnits

namespace CardanoGraphql.DateTimeText

open CodeUnits Calendar

inductive Zone
  | utc
  | offset (negative : Bool) (hours minutes : Nat)
deriving DecidableEq, Repr

/-- The numbers of a date-time as it is written; the seconds with the digits of their
fraction. -/
structure Written where
  year : Nat
  month : Nat
  day : Nat
  hour : Nat
  minute : Nat
  seconds : Option (Nat × CodeUnits)
  zone : Zone
deriving DecidableEq, Repr

def minuteText (year month day hour minute : Nat) : CodeUnits :=
  padded 4 year ++ unit '-' :: (padded 2 month ++ unit '-' :: (padded 2 day ++ unit 'T' ::
    (padded 2 hour ++ unit ':' :: padded 2 minute)))

def secondsText : Option (Nat × CodeUnits) → CodeUnits
  | none => []
  | some (second, fraction) => unit ':' :: (padded 2 second ++ fractionText fraction)

def zoneText : Zone → CodeUnits
  | .utc => [unit 'Z']
  | .offset negative hours minutes =>
      (if negative then unit '-' else unit '+') :: (padded 2 hours ++ unit ':' :: padded 2 minutes)

def Written.text (w : Written) : CodeUnits :=
  minuteText w.year w.month w.day w.hour w.minute ++ (secondsText w.seconds ++ zoneText w.zone)

structure Written.InPattern (w : Written) : Prop where
  year : w.year < 10000
  month : w.month < 20
  day : w.day < 40
  hour : w.hour < 30
  minute : w.minute < 60
  seconds : ∀ s ∈ w.seconds, s.1 < 60 ∧ ∀ u ∈ s.2, isDigit u = true
  zone : ∀ negative hours minutes, w.zone = .offset negative hours minutes → hours < 30 ∧ minutes < 60

/-- A day of the calendar and a time of the day. -/
structure Written.Real (w : Written) : Prop where
  year : w.year < 10000
  month : 1 ≤ w.month ∧ w.month ≤ 12
  day : 1 ≤ w.day ∧ w.day ≤ daysInMonth w.year w.month
  hour : w.hour < 24
  minute : w.minute < 60
  seconds : ∀ s ∈ w.seconds, s.1 < 60 ∧ ∀ u ∈ s.2, isDigit u = true
  zone : ∀ negative hours minutes, w.zone = .offset negative hours minutes → hours < 24 ∧ minutes < 60

def IsDateTime (s : CodeUnits) : Prop := ∃ w : Written, w.Real ∧ w.text = s

/-- The text has the form of a date-time, with numbers that need not be those of one. -/
def LooseText (s : CodeUnits) : Prop := ∃ w : Written, w.InPattern ∧ w.text = s

def offsetSeconds : Zone → Int
  | .utc => 0
  | .offset negative hours minutes =>
      if negative then -((hours : Int) * 3600 + minutes * 60) else hours * 3600 + minutes * 60

def Written.wholeSeconds (w : Written) : Int :=
  daysSinceEpoch w.year w.month w.day * 86400 + w.hour * 3600 + w.minute * 60 +
    (w.seconds.map Prod.fst).getD 0 - offsetSeconds w.zone

def Written.fraction (w : Written) : ℚ :=
  let digits := (w.seconds.map Prod.snd).getD []
  number digits / 10 ^ digits.length

def Written.instant (w : Written) : ℚ := w.wholeSeconds + w.fraction

section Reading

def readSeconds : CodeUnits → Option (Nat × CodeUnits)
  | u :: rest =>
      if u = unit ':' then
        some (number (rest.take 2), if (rest.drop 2).head? = some (unit '.') then
          (rest.drop 3).takeWhile isDigit else [])
      else none
  | [] => none

def readZone : CodeUnits → Zone
  | u :: rest =>
      if u = unit 'Z' then .utc
      else .offset (decide (u = unit '-')) (number (rest.take 2)) (number ((rest.drop 3).take 2))
  | [] => .utc

def read (s : CodeUnits) : Written :=
  let month := s.drop 5
  let day := month.drop 3
  let hour := day.drop 3
  let minute := hour.drop 3
  let rest := minute.drop 2
  let seconds := readSeconds rest
  { year := number (s.take 4)
    month := number (month.take 2)
    day := number (day.take 2)
    hour := number (hour.take 2)
    minute := number (minute.take 2)
    seconds := seconds
    zone := readZone (rest.drop (secondsText seconds).length) }

theorem take_padded (width n : Nat) (rest : CodeUnits) : (padded width n ++ rest).take width = padded width n :=
  List.take_left' (padded_length width n)

theorem drop_padded (width n : Nat) (rest : CodeUnits) : (padded width n ++ rest).drop width = rest :=
  List.drop_left' (padded_length width n)

theorem drop_padded_cons (width n : Nat) (u : UInt16) (rest : CodeUnits) :
    (padded width n ++ u :: rest).drop (width + 1) = rest := by
  rw [← List.drop_drop, drop_padded]
  rfl

theorem number_padded_of_lt {width n : Nat} (h : n < 10 ^ width) : number (padded width n) = n := by
  rw [number_padded, Nat.mod_eq_of_lt h]

theorem zoneText_head (z : Zone) :
    ∃ u rest, zoneText z = u :: rest ∧ u ≠ unit ':' ∧ u ≠ unit '.' ∧ isDigit u = false := by
  cases z with
  | utc => exact ⟨_, _, rfl, by decide, by decide, by decide⟩
  | offset negative hours minutes =>
      cases negative with
      | true => exact ⟨_, _, rfl, by decide, by decide, by decide⟩
      | false => exact ⟨_, _, rfl, by decide, by decide, by decide⟩

theorem readSeconds_text {seconds : Option (Nat × CodeUnits)}
    (h : ∀ s ∈ seconds, s.1 < 60 ∧ ∀ u ∈ s.2, isDigit u = true) (z : Zone) (after : CodeUnits) :
    readSeconds (secondsText seconds ++ (zoneText z ++ after)) = seconds := by
  obtain ⟨u, rest, hzone, hcolon, hpoint, hdigit⟩ := zoneText_head z
  rw [hzone, List.cons_append]
  cases seconds with
  | none =>
      rw [secondsText, List.nil_append, readSeconds, if_neg hcolon]
  | some s =>
      obtain ⟨second, fraction⟩ := s
      obtain ⟨hsecond, hdigits⟩ := h _ rfl
      have hnumber : number (padded 2 second) = second := number_padded_of_lt (by omega)
      rw [secondsText, List.cons_append, readSeconds, if_pos rfl, List.append_assoc, take_padded, drop_padded,
        hnumber]
      cases fraction with
      | nil =>
          rw [fractionText, if_pos rfl, List.nil_append, List.head?_cons, if_neg fun heq => hpoint (Option.some.inj heq)]
      | cons v fraction =>
          rw [fractionText, if_neg (List.cons_ne_nil v fraction), List.cons_append, List.head?_cons, if_pos rfl,
            drop_padded_cons 2, List.takeWhile_append_of_pos hdigits, List.takeWhile_cons_of_neg, List.append_nil]
          rw [hdigit]
          exact Bool.false_ne_true

theorem readZone_text {z : Zone}
    (h : ∀ negative hours minutes, z = .offset negative hours minutes → hours < 30 ∧ minutes < 60)
    (after : CodeUnits) : readZone (zoneText z ++ after) = z := by
  cases z with
  | utc => rfl
  | offset negative hours minutes =>
      obtain ⟨hhours, hminutes⟩ := h negative hours minutes rfl
      have hsign : (if negative then unit '-' else unit '+') ≠ unit 'Z' := by
        cases negative <;> decide
      have hnegative : decide ((if negative then unit '-' else unit '+') = unit '-') = negative := by
        cases negative <;> decide
      rw [zoneText, List.cons_append, readZone, if_neg hsign, hnegative, List.append_assoc, take_padded,
        List.cons_append, drop_padded_cons 2, take_padded, number_padded_of_lt (by omega),
        number_padded_of_lt (by omega)]

theorem read_text {w : Written} (h : w.InPattern) (after : CodeUnits) : read (w.text ++ after) = w := by
  obtain ⟨hyear, hmonth, hday, hhour, hminute, hseconds, hzone⟩ := h
  have hrest := readSeconds_text hseconds w.zone after
  have htail : (secondsText w.seconds ++ (zoneText w.zone ++ after)).drop (secondsText w.seconds).length =
      zoneText w.zone ++ after := List.drop_left
  rw [read, Written.text, minuteText]
  simp only [List.append_assoc, List.cons_append, take_padded, drop_padded_cons 4, drop_padded_cons 2,
    drop_padded 2, hrest, htail, readZone_text hzone]
  rw [number_padded_of_lt (by omega), number_padded_of_lt (by omega), number_padded_of_lt (by omega),
    number_padded_of_lt (by omega), number_padded_of_lt (by omega)]

end Reading

section Pieces

variable {w : Written}

def dayText (year month day : Nat) : CodeUnits :=
  padded 4 year ++ unit '-' :: (padded 2 month ++ unit '-' :: padded 2 day)

def timeText (w : Written) : CodeUnits :=
  padded 2 w.hour ++ unit ':' :: (padded 2 w.minute ++ (secondsText w.seconds ++ zoneText w.zone))

theorem text_eq (w : Written) : w.text = dayText w.year w.month w.day ++ unit 'T' :: timeText w := by
  simp only [Written.text, minuteText, dayText, timeText, List.append_assoc, List.cons_append]

theorem dayText_length (year month day : Nat) : (dayText year month day).length = 10 := by
  simp only [dayText, List.length_append, List.length_cons, padded_length]

theorem notMem_padded {c : Char} (hc : isDigit (unit c) = false) (width n : Nat) : unit c ∉ padded width n := by
  intro hmem
  rw [padded_digits width n _ hmem] at hc
  cases hc

theorem separator_notMem_dayText (year month day : Nat) : unit 'T' ∉ dayText year month day := by
  have hpadded := @notMem_padded 'T' (by decide)
  have hdash : unit 'T' ≠ unit '-' := by decide
  simp only [dayText, List.mem_append, List.mem_cons, hpadded, hdash, or_self, not_false_eq_true]

theorem separator_notMem_zoneText (z : Zone) : unit 'T' ∉ zoneText z := by
  cases z with
  | utc => decide
  | offset negative hours minutes =>
      have hpadded := @notMem_padded 'T' (by decide)
      have hcolon : unit 'T' ≠ unit ':' := by decide
      have hsign : unit 'T' ≠ if negative then unit '-' else unit '+' := by
        cases negative <;> decide
      simp only [zoneText, List.mem_append, List.mem_cons, hpadded, hcolon, hsign, or_self, not_false_eq_true]

theorem separator_notMem_timeText (h : w.InPattern) : unit 'T' ∉ timeText w := by
  have hpadded := @notMem_padded 'T' (by decide)
  have hcolon : unit 'T' ≠ unit ':' := by decide
  have hseconds : unit 'T' ∉ secondsText w.seconds := by
    cases hs : w.seconds with
    | none => exact List.not_mem_nil
    | some s =>
        have hfraction : unit 'T' ∉ fractionText s.2 := by
          rw [fractionText]
          split
          next => exact List.not_mem_nil
          next =>
            refine List.not_mem_cons_of_ne_of_not_mem (by decide) fun hmem => ?_
            have := (h.seconds s hs).2 _ hmem
            revert this
            decide
        simp only [secondsText, List.mem_append, List.mem_cons, hpadded, hcolon, hfraction, or_self,
          not_false_eq_true]
  simp only [timeText, List.mem_append, List.mem_cons, hpadded, hcolon, hseconds,
    separator_notMem_zoneText w.zone, or_self, not_false_eq_true]

theorem piece_eq {v : Written} (hw : w.InPattern) (hv : v.InPattern) {before after : CodeUnits}
    (h : v.text = before ++ w.text ++ after) : before = [] ∧ after = [] ∧ w = v := by
  have hsplit : before ++ dayText w.year w.month w.day ++ unit 'T' :: (timeText w ++ after) =
      dayText v.year v.month v.day ++ unit 'T' :: timeText v := by
    rw [← text_eq, h, text_eq, List.append_assoc, List.append_assoc, List.append_assoc, List.cons_append]
  have hday : before ++ dayText w.year w.month w.day = dayText v.year v.month v.day :=
    ((List.append_cons_inj_of_notMem (separator_notMem_dayText v.year v.month v.day)
      (separator_notMem_timeText hv)).mp hsplit.symm).1.symm
  have hbefore : before = [] := by
    have hlength := congrArg List.length hday
    rw [List.length_append, dayText_length, dayText_length] at hlength
    exact List.eq_nil_of_length_eq_zero (by omega)
  rw [hbefore, List.nil_append] at h
  have hread : w = v := by
    rw [← read_text hw after, ← h]
    simpa only [List.append_nil] using read_text hv []
  refine ⟨hbefore, ?_, hread⟩
  rw [hread] at h
  exact List.append_right_eq_self.mp h.symm

end Pieces

theorem Written.Real.inPattern {w : Written} (h : w.Real) : w.InPattern := by
  have hmonth := h.month
  have hday := h.day
  have hle := daysInMonth_le w.year w.month
  have hhour := h.hour
  refine ⟨h.year, by omega, by omega, by omega, h.minute, h.seconds, ?_⟩
  intro negative hours minutes hoffset
  obtain ⟨hhours, hminutes⟩ := h.zone negative hours minutes hoffset
  exact ⟨by omega, hminutes⟩

theorem fraction_bounds {w : Written} (h : w.Real) : 0 ≤ w.fraction ∧ w.fraction < 1 := by
  have hdigits : ∀ u ∈ (w.seconds.map Prod.snd).getD [], isDigit u = true := by
    cases hs : w.seconds with
    | none =>
        intro u hu
        cases hu
    | some s => exact (h.seconds s hs).2
  rw [Written.fraction]
  exact ⟨by positivity, fraction_lt hdigits⟩

end CardanoGraphql.DateTimeText
