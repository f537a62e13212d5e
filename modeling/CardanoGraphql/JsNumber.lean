import Mathlib.Data.Int.Log
import Mathlib.Data.Rat.Floor
import CardanoGraphql.CodeUnits

namespace CardanoGraphql

/-- A value of the type `number`; both zeros are `finite 0`. -/
inductive JsNumber
  | nan
  | infinity (negative : Bool)
  | finite (q : ℚ)
deriving DecidableEq, Repr

namespace JsNumber

open CodeUnits

def lt : JsNumber → JsNumber → Bool
  | .nan, _ | _, .nan => false
  | .infinity negative, .infinity negative' => negative && !negative'
  | .infinity negative, .finite _ => negative
  | .finite _, .infinity negative => !negative
  | .finite p, .finite q => decide (p < q)

def quotient (m n : Nat) : JsNumber :=
  if n = 0 then if m = 0 then .nan else .infinity false
  else .finite (m / n)

def scale (c : ℚ) : JsNumber → JsNumber
  | .finite q => .finite (q * c)
  | x => x

def roundHalfEven (y : ℚ) : ℤ :=
  if y - ⌊y⌋ < 1 / 2 then ⌊y⌋
  else if 1 / 2 < y - ⌊y⌋ then ⌊y⌋ + 1
  else if ⌊y⌋ % 2 = 0 then ⌊y⌋
  else ⌊y⌋ + 1

def spacing (q : ℚ) : ℚ := 2 ^ (max (Int.log 2 |q|) (-1022) - 52)

/-- The number of 64 bits that is nearest to a rational. -/
def toDouble (q : ℚ) : JsNumber :=
  if q = 0 then .finite 0
  else if 2 ^ 1024 ≤ |roundHalfEven (q / spacing q) * spacing q| then .infinity (decide (q < 0))
  else .finite (roundHalfEven (q / spacing q) * spacing q)

/-- The fewest digits that are read as the number, for a number from 10^21 on; with them
the number of its places. -/
def shortestDigits (q : ℚ) : Nat × Nat :=
  let places := (BigNumber.digits ⌊q⌋.toNat).length
  let rounded := fun k => ⌊q / 10 ^ (places - k) + 1 / 2⌋.toNat
  let k := ((List.range 17).find? fun k =>
    toDouble ((rounded (k + 1) * 10 ^ (places - (k + 1)) : Nat) : ℚ) = .finite q).getD 16
  (rounded (k + 1), places)

def exponentialText (q : ℚ) : CodeUnits :=
  let (digits, places) := shortestDigits q
  match decimal digits with
  | [] => []
  | d :: rest => d :: (if rest.isEmpty then [] else unit '.' :: rest) ++ ofString "e+" ++ decimal (places - 1)

def fixedMagnitude (q : ℚ) : CodeUnits :=
  if 10 ^ 21 ≤ q then exponentialText q
  else
    let hundredths := ⌊q * 100 + 1 / 2⌋.toNat
    decimal (hundredths / 100) ++ unit '.' :: padded 2 hundredths

def toFixed : JsNumber → CodeUnits
  | .nan => ofString "NaN"
  | .infinity negative => ofString (if negative then "-Infinity" else "Infinity")
  | .finite q => if q < 0 then unit '-' :: fixedMagnitude (-q) else fixedMagnitude q

def isWhitespace (u : UInt16) : Bool :=
  decide (u.toNat ∈ [0x9, 0xA, 0xB, 0xC, 0xD, 0x20, 0xA0, 0x1680, 0x2000, 0x2001, 0x2002, 0x2003, 0x2004,
    0x2005, 0x2006, 0x2007, 0x2008, 0x2009, 0x200A, 0x2028, 0x2029, 0x202F, 0x205F, 0x3000, 0xFEFF])

def takeSign : CodeUnits → Bool × CodeUnits
  | u :: rest => if u = unit '-' then (true, rest) else if u = unit '+' then (false, rest) else (false, u :: rest)
  | [] => (false, [])

def takeExponent : CodeUnits → ℤ
  | u :: rest =>
      if u = unit 'e' ∨ u = unit 'E' then
        let (negative, digits) := takeSign rest
        let n := number (digits.takeWhile isDigit)
        if negative then -n else n
      else 0
  | [] => 0

def takeFraction : CodeUnits → CodeUnits × CodeUnits
  | u :: rest => if u = unit '.' then rest.span isDigit else ([], u :: rest)
  | [] => ([], [])

def parseMagnitude (us : CodeUnits) : JsNumber :=
  if (ofString "Infinity").isPrefixOf us then .infinity false
  else
    let (whole, rest) := us.span isDigit
    let (fraction, rest') := takeFraction rest
    if whole.isEmpty && fraction.isEmpty then .nan
    else toDouble (number (whole ++ fraction) * 10 ^ (takeExponent rest' - fraction.length))

def negate : JsNumber → JsNumber
  | .nan => .nan
  | .infinity negative => .infinity !negative
  | .finite q => .finite (-q)

def parseFloat (us : CodeUnits) : JsNumber :=
  let (negative, rest) := takeSign (us.dropWhile isWhitespace)
  if negative then negate (parseMagnitude rest) else parseMagnitude rest

theorem spacing_pos (q : ℚ) : 0 < spacing q := zpow_pos (by decide) _

theorem roundHalfEven_le {y : ℚ} {n : ℤ} (h : y ≤ n) : roundHalfEven y ≤ n := by
  have hfloor : (⌊y⌋ : ℚ) ≤ y := Int.floor_le y
  have hle : ⌊y⌋ ≤ n := by
    have : (⌊y⌋ : ℚ) ≤ n := le_trans hfloor h
    exact_mod_cast this
  rcases hle.lt_or_eq with hlt | heq
  · rw [roundHalfEven]
    split
    · exact hle
    · split
      · omega
      · split
        · exact hle
        · omega
  · have hzero : y - ⌊y⌋ < 1 / 2 := by
      have : (n : ℚ) = ⌊y⌋ := by rw [heq]
      linarith
    rw [roundHalfEven, if_pos hzero]
    exact hle

theorem roundHalfEven_nonneg {y : ℚ} (h : 0 ≤ y) : 0 ≤ roundHalfEven y := by
  have hfloor : 0 ≤ ⌊y⌋ := Int.floor_nonneg.mpr h
  rw [roundHalfEven]
  split
  · exact hfloor
  · split
    · omega
    · split
      · exact hfloor
      · omega

theorem spacing_dvd {q : ℚ} {n : Nat} (hpos : 0 < q) (hle : q ≤ n) (hn : n < 2 ^ 53) :
    ∃ k : Nat, (n : ℚ) = k * spacing q := by
  have hlog : Int.log 2 |q| < 53 := by
    rw [abs_of_pos hpos, ← Int.lt_zpow_iff_log_lt (by decide) hpos]
    have : (n : ℚ) < 2 ^ 53 := by exact_mod_cast hn
    exact lt_of_le_of_lt hle (by exact_mod_cast this)
  obtain ⟨m, hm⟩ : ∃ m : Nat, max (Int.log 2 |q|) (-1022) - 52 = -(m : ℤ) :=
    ⟨(52 - max (Int.log 2 |q|) (-1022)).toNat, by omega⟩
  refine ⟨n * 2 ^ m, ?_⟩
  rw [spacing, hm, zpow_neg, zpow_natCast]
  push_cast
  rw [mul_assoc, mul_inv_cancel₀ (by positivity), mul_one]

theorem toDouble_between {q : ℚ} {n : Nat} (h : 0 ≤ q) (hle : q ≤ n) (hn : n < 2 ^ 53) :
    ∃ r, toDouble q = .finite r ∧ 0 ≤ r ∧ r ≤ n := by
  rcases h.eq_or_lt with rfl | hpos
  · exact ⟨0, if_pos rfl, le_refl 0, Nat.cast_nonneg n⟩
  · obtain ⟨k, hk⟩ := spacing_dvd hpos hle hn
    have hspacing := spacing_pos q
    have hquotient : q / spacing q ≤ (k : ℤ) := by
      rw [div_le_iff₀ hspacing]
      exact_mod_cast hk ▸ hle
    have hround : (roundHalfEven (q / spacing q) : ℚ) ≤ k := by
      exact_mod_cast roundHalfEven_le hquotient
    have hnonneg : 0 ≤ roundHalfEven (q / spacing q) * spacing q := by
      have : (0 : ℚ) ≤ roundHalfEven (q / spacing q) := by
        exact_mod_cast roundHalfEven_nonneg (le_of_lt (div_pos hpos hspacing))
      positivity
    have hupper : roundHalfEven (q / spacing q) * spacing q ≤ n := by
      rw [hk]
      exact mul_le_mul_of_nonneg_right hround (le_of_lt hspacing)
    have hsmall : ¬ 2 ^ 1024 ≤ |roundHalfEven (q / spacing q) * spacing q| := by
      rw [abs_of_nonneg hnonneg, not_le]
      have : (n : ℚ) < 2 ^ 53 := by exact_mod_cast hn
      calc roundHalfEven (q / spacing q) * spacing q ≤ n := hupper
        _ < 2 ^ 53 := this
        _ < 2 ^ 1024 := pow_lt_pow_right₀ (by norm_num) (by norm_num)
    refine ⟨_, ?_, hnonneg, hupper⟩
    rw [toDouble, if_neg (ne_of_gt hpos), if_neg hsmall]

theorem isWhitespace_digit {u : UInt16} (h : isDigit u = true) : isWhitespace u = false := by
  have := isDigit_iff.mp h
  rw [isWhitespace, decide_eq_false_iff_not]
  intro hmem
  simp only [List.mem_cons, List.not_mem_nil, or_false] at hmem
  omega

theorem parseFloat_digits {whole fraction : CodeUnits} (hne : whole ≠ [])
    (hwhole : ∀ u ∈ whole, isDigit u = true) (hfraction : ∀ u ∈ fraction, isDigit u = true) :
    parseFloat (whole ++ unit '.' :: fraction) =
      toDouble (number (whole ++ fraction) * 10 ^ (0 - (fraction.length : ℤ))) := by
  obtain ⟨a, rest, rfl⟩ := List.exists_cons_of_ne_nil hne
  have ha : isDigit a = true := hwhole a List.mem_cons_self
  have hmark : ∀ c : Char, isDigit (unit c) = false → a ≠ unit c := by
    rintro c hc rfl
    rw [ha] at hc
    cases hc
  have hspace : (a :: rest ++ unit '.' :: fraction).dropWhile isWhitespace = a :: rest ++ unit '.' :: fraction :=
    List.dropWhile_cons_of_neg (by rw [isWhitespace_digit ha]; exact Bool.false_ne_true)
  have hsign : takeSign (a :: rest ++ unit '.' :: fraction) = (false, a :: rest ++ unit '.' :: fraction) := by
    rw [List.cons_append, takeSign, if_neg (hmark '-' (by decide)), if_neg (hmark '+' (by decide))]
  have hprefix : (ofString "Infinity").isPrefixOf (a :: rest ++ unit '.' :: fraction) = false := by
    have hI : (unit 'I' == a) = false := beq_eq_false_iff_ne.mpr (hmark 'I' (by decide)).symm
    have htext : ofString "Infinity" = unit 'I' :: ofString "nfinity" := by decide
    rw [htext, List.cons_append, List.isPrefixOf, hI, Bool.false_and]
  have hspan : (a :: rest ++ unit '.' :: fraction).span isDigit = (a :: rest, unit '.' :: fraction) := by
    rw [List.span_eq_takeWhile_dropWhile, List.takeWhile_append_of_pos hwhole, List.dropWhile_append_of_pos hwhole]
    simp [show isDigit (unit '.') = false by decide]
  have htake : takeFraction (unit '.' :: fraction) = (fraction, []) := by
    rw [takeFraction, if_pos rfl, List.span_eq_takeWhile_dropWhile, List.takeWhile_eq_self_iff.mpr hfraction,
      List.dropWhile_eq_nil_iff.mpr hfraction]
  rw [parseFloat, hspace, hsign]
  simp only [Bool.false_eq_true, if_false]
  rw [parseMagnitude, hprefix, hspan]
  simp only [Bool.false_eq_true, if_false, htake, List.isEmpty_cons, Bool.false_and, takeExponent]

theorem parseFloat_toFixed {q : ℚ} (h : 0 ≤ q) (hlt : q < 10 ^ 21) :
    parseFloat (toFixed (.finite q)) = toDouble ((⌊q * 100 + 1 / 2⌋.toNat : ℚ) / 100) := by
  have hnumber : ∀ n : Nat, number (decimal (n / 100) ++ padded 2 n) = n := by
    intro n
    rw [number_append, number_decimal, number_padded, padded_length]
    exact Nat.div_add_mod' n (10 ^ 2)
  rw [toFixed, if_neg (not_lt.mpr h), fixedMagnitude, if_neg (not_le.mpr hlt)]
  simp only []
  rw [parseFloat_digits (decimal_ne_nil _) (decimal_digits _) (padded_digits 2 _), hnumber, padded_length]
  congr 1

theorem toFixed_between {q : ℚ} {n : Nat} (h : 0 ≤ q) (hle : q ≤ n) (hn : n < 2 ^ 53) :
    ∃ r, parseFloat (toFixed (.finite q)) = .finite r ∧ 0 ≤ r ∧ r ≤ n := by
  have hnQ : (n : ℚ) < 2 ^ 53 := by exact_mod_cast hn
  have hlt : q < 10 ^ 21 := by
    calc q ≤ n := hle
      _ < 2 ^ 53 := hnQ
      _ < 10 ^ 21 := by norm_num
  rw [parseFloat_toFixed h hlt]
  refine toDouble_between (by positivity) ?_ hn
  rw [div_le_iff₀ (by norm_num)]
  have hfloor : ⌊q * 100 + 1 / 2⌋ ≤ n * 100 := by
    have hhalf : q * 100 + 1 / 2 < ((n * 100 + 1 : ℤ) : ℚ) := by
      push_cast
      linarith
    have := Int.floor_lt.mpr hhalf
    omega
  have hnat : ⌊q * 100 + 1 / 2⌋.toNat ≤ n * 100 := by omega
  exact_mod_cast hnat

end JsNumber

end CardanoGraphql
