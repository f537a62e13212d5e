import Mathlib.Algebra.BigOperators.Group.List.Basic
import Mathlib.Algebra.GroupWithZero.Nat
import Mathlib.Logic.Function.Iterate

namespace CardanoGraphql.Calendar

def isLeap (year : Int) : Bool := decide (year % 4 = 0) && (decide (year % 100 ≠ 0) || decide (year % 400 = 0))

def daysInMonth (year : Int) : Nat → Nat
  | 1 | 3 | 5 | 7 | 8 | 10 | 12 => 31
  | 4 | 6 | 9 | 11 => 30
  | 2 => if isLeap year then 29 else 28
  | _ => 0

/-- A day of the Gregorian calendar, extended to all years. -/
structure Date where
  year : Int
  month : Nat
  day : Nat
  month_valid : 1 ≤ month ∧ month ≤ 12
  day_valid : 1 ≤ day ∧ day ≤ daysInMonth year month
deriving DecidableEq, Repr

def daysBeforeYear (year : Int) : Int :=
  365 * (year - 1970) + ((year - 1) / 4 - (year - 1) / 100 + (year - 1) / 400) - 477

def daysBeforeMonth (year : Int) (month : Nat) : Nat :=
  ((List.range (month - 1)).map fun m => daysInMonth year (m + 1)).sum

def daysSinceEpoch (year : Int) (month day : Nat) : Int :=
  daysBeforeYear year + daysBeforeMonth year month + (day - 1)

def dayNumber (d : Date) : Int := daysSinceEpoch d.year d.month d.day

theorem daysInMonth_le (year : Int) (month : Nat) : daysInMonth year month ≤ 31 := by
  unfold daysInMonth
  split
  case h_12 => split <;> omega
  all_goals omega

theorem daysInMonth_pos (year : Int) {month : Nat} (h : 1 ≤ month ∧ month ≤ 12) : 1 ≤ daysInMonth year month := by
  unfold daysInMonth
  split
  case h_12 => split <;> omega
  case h_13 => grind
  all_goals omega

def Date.first (year : Int) (month : Nat) (h : 1 ≤ month ∧ month ≤ 12) : Date :=
  { year := year
    month := month
    day := 1
    month_valid := h
    day_valid := ⟨Nat.le_refl 1, daysInMonth_pos year h⟩ }

def Date.last (year : Int) (month : Nat) (h : 1 ≤ month ∧ month ≤ 12) : Date :=
  { year := year
    month := month
    day := daysInMonth year month
    month_valid := h
    day_valid := ⟨daysInMonth_pos year h, Nat.le_refl _⟩ }

def next (d : Date) : Date :=
  if h : d.day < daysInMonth d.year d.month then { d with day := d.day + 1, day_valid := ⟨by omega, h⟩ }
  else if hm : d.month < 12 then .first d.year (d.month + 1) ⟨by omega, hm⟩
  else .first (d.year + 1) 1 ⟨Nat.le_refl 1, by decide⟩

def previous (d : Date) : Date :=
  if h : 1 < d.day then { d with day := d.day - 1, day_valid := ⟨by omega, by have := d.day_valid.2; omega⟩ }
  else if hm : 1 < d.month then .last d.year (d.month - 1) ⟨by omega, by have := d.month_valid.2; omega⟩
  else .last (d.year - 1) 12 ⟨by decide, Nat.le_refl 12⟩

theorem daysBeforeMonth_succ (year : Int) {m : Nat} (h : 1 ≤ m) :
    daysBeforeMonth year (m + 1) = daysBeforeMonth year m + daysInMonth year m := by
  obtain ⟨k, rfl⟩ := Nat.exists_eq_add_of_le' h
  rw [daysBeforeMonth, daysBeforeMonth, Nat.add_sub_cancel, Nat.add_sub_cancel, List.range_succ, List.map_append,
    List.sum_append, List.map_singleton, List.sum_singleton]

theorem daysBeforeMonth_twelve (year : Int) :
    daysBeforeMonth year 12 + 31 = 365 + (isLeap year).toNat := by
  have hsum : daysBeforeMonth year 12 = 306 + daysInMonth year 2 := by
    simp [daysBeforeMonth, List.range_succ, daysInMonth]
    omega
  rw [hsum, daysInMonth]
  cases isLeap year <;> rfl

theorem daysBeforeYear_succ (year : Int) :
    daysBeforeYear (year + 1) = daysBeforeYear year + 365 + (isLeap year).toNat := by
  have hleap : ((isLeap year).toNat : Int) = year / 4 - year / 100 + year / 400 -
      ((year - 1) / 4 - (year - 1) / 100 + (year - 1) / 400) := by
    cases h : isLeap year with
    | true =>
        simp only [isLeap, Bool.and_eq_true, Bool.or_eq_true, decide_eq_true_eq] at h
        rw [Bool.toNat_true]
        omega
    | false =>
        simp only [isLeap, Bool.and_eq_false_iff, Bool.or_eq_false_iff, decide_eq_false_iff_not] at h
        rw [Bool.toNat_false]
        omega
  rw [daysBeforeYear, daysBeforeYear, hleap, Int.add_sub_cancel]
  omega

theorem dayNumber_next (d : Date) : dayNumber (next d) = dayNumber d + 1 := by
  obtain ⟨hone, htwelve⟩ := d.month_valid
  have hday := d.day_valid
  rw [next]
  split
  next h =>
    simp only [dayNumber, daysSinceEpoch]
    omega
  next h =>
    split
    next hm =>
      have hmonth := daysBeforeMonth_succ d.year hone
      simp only [dayNumber, daysSinceEpoch, Date.first]
      omega
    next hm =>
      have hmonth : d.month = 12 := by omega
      have hyear := daysBeforeYear_succ d.year
      have htotal := daysBeforeMonth_twelve d.year
      have hlast : daysInMonth d.year 12 = 31 := rfl
      have hjanuary : daysBeforeMonth (d.year + 1) 1 = 0 := rfl
      rw [hmonth] at h hday
      simp only [dayNumber, daysSinceEpoch, Date.first, hmonth]
      omega

theorem dayNumber_previous (d : Date) : dayNumber (previous d) = dayNumber d - 1 := by
  obtain ⟨hone, htwelve⟩ := d.month_valid
  have hday := d.day_valid
  rw [previous]
  split
  next h =>
    simp only [dayNumber, daysSinceEpoch]
    omega
  next h =>
    split
    next hm =>
      have hmonth := daysBeforeMonth_succ d.year (m := d.month - 1) (by omega)
      rw [Nat.sub_add_cancel hone] at hmonth
      simp only [dayNumber, daysSinceEpoch, Date.last]
      omega
    next hm =>
      have hmonth : d.month = 1 := by omega
      have hyear := daysBeforeYear_succ (d.year - 1)
      rw [Int.sub_add_cancel] at hyear
      have htotal := daysBeforeMonth_twelve (d.year - 1)
      have hlast : daysInMonth (d.year - 1) 12 = 31 := rfl
      have hjanuary : daysBeforeMonth d.year 1 = 0 := rfl
      simp only [dayNumber, daysSinceEpoch, Date.last, hmonth]
      omega

def epoch : Date := .first 1970 1 ⟨Nat.le_refl 1, by decide⟩

def ofDayNumber : Int → Date
  | .ofNat n => next^[n] epoch
  | .negSucc n => previous^[n + 1] epoch

theorem dayNumber_ofDayNumber (n : Int) : dayNumber (ofDayNumber n) = n := by
  have hepoch : dayNumber epoch = 0 := by decide
  cases n with
  | ofNat n =>
      rw [ofDayNumber]
      induction n with
      | zero => exact hepoch
      | succ n ih =>
          rw [Function.iterate_succ_apply', dayNumber_next, ih]
          rfl
  | negSucc n =>
      rw [ofDayNumber]
      induction n with
      | zero =>
          rw [Function.iterate_succ_apply', dayNumber_previous, Function.iterate_zero_apply, hepoch]
          rfl
      | succ n ih =>
          rw [Function.iterate_succ_apply', dayNumber_previous, ih]
          rfl

theorem daysBeforeMonth_mono (year : Int) {m n : Nat} (hm : 1 ≤ m) (h : m ≤ n) :
    daysBeforeMonth year m ≤ daysBeforeMonth year n := by
  induction h with
  | refl => exact Nat.le_refl _
  | step hn ih =>
      rw [Nat.succ_eq_add_one, daysBeforeMonth_succ year (Nat.le_trans hm hn)]
      omega

theorem daysBeforeYear_mono {a b : Int} (h : a ≤ b) : daysBeforeYear a ≤ daysBeforeYear b := by
  obtain ⟨k, rfl⟩ := Int.le.dest h
  clear h
  induction k with
  | zero => exact Int.le_of_eq (congrArg daysBeforeYear (Int.add_zero a).symm)
  | succ k ih =>
      rw [Int.natCast_add, ← Int.add_assoc, Int.natCast_one, daysBeforeYear_succ]
      omega

theorem dayNumber_bounds (d : Date) :
    daysBeforeYear d.year ≤ dayNumber d ∧ dayNumber d < daysBeforeYear (d.year + 1) ∧
      daysBeforeYear d.year + daysBeforeMonth d.year d.month ≤ dayNumber d ∧
      dayNumber d < daysBeforeYear d.year + daysBeforeMonth d.year (d.month + 1) := by
  have hday := d.day_valid
  have hsucc := daysBeforeMonth_succ d.year d.month_valid.1
  have hmonth := d.month_valid.2
  have hlast := @daysBeforeMonth_mono d.year (d.month + 1) 13 (by omega) (by omega)
  have htwelve := daysBeforeMonth_twelve d.year
  have hthirteen : daysBeforeMonth d.year 13 = daysBeforeMonth d.year 12 + daysInMonth d.year 12 :=
    daysBeforeMonth_succ d.year (by decide)
  have hdecember : daysInMonth d.year 12 = 31 := rfl
  rw [daysBeforeYear_succ, dayNumber, daysSinceEpoch]
  omega

theorem dayNumber_injective : Function.Injective dayNumber := by
  intro a b h
  obtain ⟨hlow, hhigh, hfirst, hlast⟩ := dayNumber_bounds a
  obtain ⟨hlow', hhigh', hfirst', hlast'⟩ := dayNumber_bounds b
  have hyear : a.year = b.year := by
    rcases Int.lt_trichotomy a.year b.year with hlt | heq | hlt
    · have := daysBeforeYear_mono (Int.add_one_le_of_lt hlt)
      omega
    · exact heq
    · have := daysBeforeYear_mono (Int.add_one_le_of_lt hlt)
      omega
  have hmonth : a.month = b.month := by
    rw [hyear] at hfirst hlast
    rcases Nat.lt_trichotomy a.month b.month with hlt | heq | hlt
    · have := @daysBeforeMonth_mono b.year (a.month + 1) b.month (by omega) hlt
      omega
    · exact heq
    · have := @daysBeforeMonth_mono b.year (b.month + 1) a.month (by omega) hlt
      omega
  have hday : a.day = b.day := by
    have hone := a.day_valid.1
    have hone' := b.day_valid.1
    simp only [dayNumber, daysSinceEpoch, hyear, hmonth] at h
    omega
  cases a
  cases b
  cases hyear
  cases hmonth
  cases hday
  rfl

end CardanoGraphql.Calendar
