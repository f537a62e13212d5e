import Mathlib.Data.List.TakeWhile
import Mathlib.Data.Nat.Digits.Lemmas

namespace CardanoGraphql.BigNumber

/- The functions here stand for what the code uses of the package `bignumber.js`. What the results
take from it: a text of digits, or one that `toString()` gave, is read as its number
(`ofString_plain`, `ofString_toString`), sums are exact (`plus_eq`), `toString()` leaves the
exponent out exactly below 10^21 (`toString_eq_plain_iff`), and `NaN` is shown as such. -/

def digits (n : Nat) : List Nat := if n = 0 then [0] else (Nat.digits 10 n).reverse

def value (ds : List Nat) : Nat := ds.foldl (fun acc d => acc * 10 + d) 0

def textOf (ds : List Nat) : List Char := ds.map Nat.digitChar

def plain (n : Nat) : String := String.ofList (textOf (digits n))

def significant (ds : List Nat) : List Nat := (ds.reverse.dropWhile fun d => decide (d = 0)).reverse

def exponential (ds : List Nat) : List Char :=
  match significant ds with
  | [] => ['0']
  | [d] => textOf [d] ++ 'e' :: '+' :: textOf (digits (ds.length - 1))
  | d :: rest => textOf [d] ++ '.' :: textOf rest ++ 'e' :: '+' :: textOf (digits (ds.length - 1))

/-- `toString()`: exponential notation from 21 places on. -/
def toString (n : Nat) : String :=
  if (digits n).length ≤ 21 then plain n else String.ofList (exponential (digits n))

def digitValue (c : Char) : Nat := c.toNat - '0'.toNat

def parseDigits (cs : List Char) : Option Nat :=
  if cs ≠ [] ∧ cs.all Char.isDigit = true then some (value (cs.map digitValue)) else none

/-- `new BigNumber(text)` for the texts of non-negative integers; `none` is `NaN`. -/
def ofChars (cs : List Char) : Option Nat := do
  let mantissa := cs.takeWhile fun c => decide (c ≠ 'e')
  let whole := mantissa.takeWhile fun c => decide (c ≠ '.')
  let fraction := (mantissa.dropWhile fun c => decide (c ≠ '.')).drop 1
  let places ← match cs.dropWhile fun c => decide (c ≠ 'e') with
    | [] => some 0
    | 'e' :: '+' :: exponent => parseDigits exponent
    | _ => none
  let n ← parseDigits (whole ++ fraction)
  if fraction.length ≤ places then some (n * 10 ^ (places - fraction.length)) else none

def ofString (s : String) : Option Nat := ofChars s.toList

def plus (a b : String) : String :=
  match ofString a, ofString b with
  | some m, some n => toString (m + n)
  | _, _ => "NaN"

theorem digits_lt (n : Nat) : ∀ d ∈ digits n, d < 10 := by
  intro d hd
  rw [digits] at hd
  split at hd
  · rw [List.mem_singleton] at hd
    omega
  · exact Nat.digits_lt_base (by omega) (List.mem_reverse.mp hd)

theorem digits_ne_nil (n : Nat) : digits n ≠ [] := by
  rw [digits]
  split
  · exact List.cons_ne_nil _ _
  · simpa [Nat.digits_ne_nil_iff_ne_zero]

theorem value_eq_ofDigits (ds : List Nat) : value ds = Nat.ofDigits 10 ds.reverse := by
  rw [Nat.ofDigits_eq_foldr, List.foldr_reverse, value]
  congr 1
  funext acc d
  push_cast
  ring

theorem value_digits (n : Nat) : value (digits n) = n := by
  rw [digits]
  split
  · simp [value, *]
  · rw [value_eq_ofDigits, List.reverse_reverse, Nat.ofDigits_digits]

theorem digits_value {ds : List Nat} (hne : ds ≠ []) (hlt : ∀ d ∈ ds, d < 10)
    (hhead : ds.length = 1 ∨ ds.head? ≠ some 0) : digits (value ds) = ds := by
  obtain ⟨d, rest, rfl⟩ := List.exists_cons_of_ne_nil hne
  by_cases hd : d = 0
  · rcases hhead with hlength | hhead
    · have hrest : rest = [] := List.eq_nil_of_length_eq_zero (Nat.succ.inj hlength)
      rw [hd, hrest]
      rfl
    · exact absurd (congrArg some hd) hhead
  · have hlast : ∀ h : (d :: rest).reverse ≠ [], (d :: rest).reverse.getLast h ≠ 0 := by
      intro h
      rw [List.getLast_reverse]
      exact hd
    have hback : Nat.digits 10 (value (d :: rest)) = (d :: rest).reverse := by
      rw [value_eq_ofDigits]
      exact Nat.digits_ofDigits 10 (by decide) _ (fun x hx => hlt x (List.mem_reverse.mp hx)) hlast
    have hzero : value (d :: rest) ≠ 0 := by
      intro h
      rw [h, Nat.digits_zero] at hback
      exact List.cons_ne_nil d rest (List.reverse_eq_nil_iff.mp hback.symm)
    rw [digits, if_neg hzero, hback, List.reverse_reverse]

theorem digits_head (n : Nat) : (digits n).length = 1 ∨ (digits n).head? ≠ some 0 := by
  rw [digits]
  split
  · exact Or.inl rfl
  · next hn =>
      right
      rw [List.head?_reverse]
      intro h
      have hne : Nat.digits 10 n ≠ [] := Nat.digits_ne_nil_iff_ne_zero.mpr hn
      rw [List.getLast?_eq_some_getLast hne] at h
      exact Nat.getLast_digit_ne_zero 10 hn (Option.some.inj h)

theorem value_append (xs ys : List Nat) : value (xs ++ ys) = value xs * 10 ^ ys.length + value ys := by
  have hacc : ∀ (ys : List Nat) (a : Nat),
      ys.foldl (fun acc d => acc * 10 + d) a = a * 10 ^ ys.length + value ys := by
    intro ys
    induction ys with
    | nil =>
        intro a
        simp [value]
    | cons y ys ih =>
        intro a
        have hy : value (y :: ys) = (0 * 10 + y) * 10 ^ ys.length + value ys := ih (0 * 10 + y)
        rw [List.foldl_cons, ih, hy, List.length_cons]
        ring
  rw [value, List.foldl_append, hacc]
  rfl

theorem value_zeros (z : Nat) : value (List.replicate z 0) = 0 := by
  induction z with
  | zero => rfl
  | succ z ih =>
      rw [List.replicate_succ', value_append, ih]
      rfl

theorem significant_split (ds : List Nat) :
    ∃ z, ds = significant ds ++ List.replicate z 0 := by
  have hsplit := List.takeWhile_append_dropWhile (p := fun d => decide (d = 0)) (l := ds.reverse)
  have hzeros : ds.reverse.takeWhile (fun d => decide (d = 0)) =
      List.replicate (ds.reverse.takeWhile fun d => decide (d = 0)).length 0 := by
    rw [List.eq_replicate_iff]
    refine ⟨rfl, fun d hd => ?_⟩
    simpa using List.mem_takeWhile_imp hd
  refine ⟨(ds.reverse.takeWhile fun d => decide (d = 0)).length, ?_⟩
  calc ds = (ds.reverse.dropWhile fun d => decide (d = 0)).reverse ++
        (ds.reverse.takeWhile fun d => decide (d = 0)).reverse := by
        rw [← List.reverse_append, hsplit, List.reverse_reverse]
    _ = significant ds ++ List.replicate (ds.reverse.takeWhile fun d => decide (d = 0)).length 0 := by
        conv_lhs => rw [hzeros, List.reverse_replicate]
        rfl

theorem parseDigits_textOf {ds : List Nat} (hne : ds ≠ []) (hlt : ∀ d ∈ ds, d < 10) :
    parseDigits (textOf ds) = some (value ds) := by
  have hdigit : ∀ d, d < 10 → (Nat.digitChar d).isDigit = true ∧ digitValue (Nat.digitChar d) = d := by
    decide
  have hall : (textOf ds).all Char.isDigit = true := by
    rw [textOf, List.all_map, List.all_eq_true]
    exact fun d hd => (hdigit d (hlt d hd)).1
  have hback : (textOf ds).map digitValue = ds := by
    rw [textOf, List.map_map]
    exact (List.map_congr_left fun d hd => (hdigit d (hlt d hd)).2).trans (List.map_id ds)
  rw [parseDigits, if_pos ⟨by simpa [textOf] using hne, hall⟩, hback]

theorem textOf_char {ds : List Nat} (hlt : ∀ d ∈ ds, d < 10) : ∀ c ∈ textOf ds, c ≠ 'e' ∧ c ≠ '.' := by
  have hdigit : ∀ d, d < 10 → Nat.digitChar d ≠ 'e' ∧ Nat.digitChar d ≠ '.' := by decide
  intro c hc
  obtain ⟨d, hd, rfl⟩ := List.mem_map.mp hc
  exact hdigit d (hlt d hd)

theorem ofChars_exponential (whole fraction places : List Nat) (hwhole : ∀ d ∈ whole, d < 10)
    (hfraction : ∀ d ∈ fraction, d < 10) (hplaces : ∀ d ∈ places, d < 10) (hne : whole ≠ [])
    (hp : places ≠ []) (hle : fraction.length ≤ value places) (point : List Char)
    (hpoint : point = '.' :: textOf fraction ∨ (point = [] ∧ fraction = [])) :
    ofChars (textOf whole ++ point ++ 'e' :: '+' :: textOf places) =
      some (value (whole ++ fraction) * 10 ^ (value places - fraction.length)) := by
  have hbefore : ∀ c ∈ textOf whole ++ point, c ≠ 'e' := by
    intro c hc
    rcases List.mem_append.mp hc with hc | hc
    · exact (textOf_char hwhole c hc).1
    · rcases hpoint with rfl | ⟨rfl, -⟩
      · rcases List.mem_cons.mp hc with rfl | hc
        · decide
        · exact (textOf_char hfraction c hc).1
      · cases hc
  have hmantissa : (textOf whole ++ point ++ 'e' :: '+' :: textOf places).takeWhile
      (fun c => decide (c ≠ 'e')) = textOf whole ++ point := by
    rw [List.takeWhile_append_of_pos fun c hc => decide_eq_true (hbefore c hc)]
    simp
  have hrest : (textOf whole ++ point ++ 'e' :: '+' :: textOf places).dropWhile
      (fun c => decide (c ≠ 'e')) = 'e' :: '+' :: textOf places := by
    rw [List.dropWhile_append_of_pos fun c hc => decide_eq_true (hbefore c hc)]
    simp
  have hw : (textOf whole ++ point).takeWhile (fun c => decide (c ≠ '.')) = textOf whole := by
    rw [List.takeWhile_append_of_pos fun c hc => decide_eq_true (textOf_char hwhole c hc).2]
    rcases hpoint with rfl | ⟨rfl, -⟩ <;> simp
  have hf : ((textOf whole ++ point).dropWhile fun c => decide (c ≠ '.')).drop 1 = textOf fraction := by
    rw [List.dropWhile_append_of_pos fun c hc => decide_eq_true (textOf_char hwhole c hc).2]
    rcases hpoint with rfl | ⟨rfl, rfl⟩ <;> simp [textOf]
  have hdigits : textOf whole ++ textOf fraction = textOf (whole ++ fraction) := by
    rw [textOf, textOf, textOf, List.map_append]
  have hall : ∀ d ∈ whole ++ fraction, d < 10 := by
    intro d hd
    rcases List.mem_append.mp hd with hd | hd
    · exact hwhole d hd
    · exact hfraction d hd
  have hlen : (textOf fraction).length = fraction.length := List.length_map _
  simp only [ofChars, hmantissa, hrest, hw, hf, hdigits, hlen]
  rw [parseDigits_textOf hp hplaces, parseDigits_textOf (by simp [hne]) hall]
  simp [hle]

theorem ofChars_eq_parseDigits {cs : List Char} (hcs : ∀ c ∈ cs, c ≠ 'e' ∧ c ≠ '.') :
    ofChars cs = parseDigits cs := by
  have hmantissa : cs.takeWhile (fun c => decide (c ≠ 'e')) = cs :=
    List.takeWhile_eq_self_iff.mpr fun c hc => decide_eq_true (hcs c hc).1
  have hrest : cs.dropWhile (fun c => decide (c ≠ 'e')) = [] :=
    List.dropWhile_eq_nil_iff.mpr fun c hc => decide_eq_true (hcs c hc).1
  have hwhole : cs.takeWhile (fun c => decide (c ≠ '.')) = cs :=
    List.takeWhile_eq_self_iff.mpr fun c hc => decide_eq_true (hcs c hc).2
  have hfraction : cs.dropWhile (fun c => decide (c ≠ '.')) = [] :=
    List.dropWhile_eq_nil_iff.mpr fun c hc => decide_eq_true (hcs c hc).2
  simp only [ofChars, hmantissa, hrest, hwhole, hfraction, List.drop_nil, List.append_nil]
  cases parseDigits cs <;> simp

theorem ofChars_textOf {ds : List Nat} (hne : ds ≠ []) (hlt : ∀ d ∈ ds, d < 10) :
    ofChars (textOf ds) = some (value ds) := by
  rw [ofChars_eq_parseDigits (textOf_char hlt), parseDigits_textOf hne hlt]

theorem ofString_plain (n : Nat) : ofString (plain n) = some n := by
  rw [ofString, plain, String.toList_ofList, ofChars_textOf (digits_ne_nil n) (digits_lt n), value_digits]

theorem significant_ne_nil {n : Nat} (hn : n ≠ 0) : significant (digits n) ≠ [] := by
  intro h
  obtain ⟨z, hz⟩ := significant_split (digits n)
  rw [h, List.nil_append] at hz
  have hv := value_digits n
  rw [hz, value_zeros] at hv
  exact hn hv.symm

theorem ofString_toString (n : Nat) : ofString (toString n) = some n := by
  rw [toString]
  split
  · exact ofString_plain n
  · next hlong =>
      rw [ofString, String.toList_ofList]
      have hn : n ≠ 0 := by
        rintro rfl
        exact hlong (by decide)
      obtain ⟨z, hz⟩ := significant_split (digits n)
      have hlt : ∀ d ∈ significant (digits n), d < 10 := by
        intro d hd
        exact digits_lt n d (by rw [hz]; exact List.mem_append_left _ hd)
      have hvalue : value (significant (digits n)) * 10 ^ z = n := by
        have hv := value_digits n
        rw [hz, value_append, value_zeros, List.length_replicate, Nat.add_zero] at hv
        exact hv
      have hlength : (digits n).length - 1 = (significant (digits n)).length - 1 + z := by
        have hl := congrArg List.length hz
        rw [List.length_append, List.length_replicate] at hl
        have := List.length_pos_of_ne_nil (significant_ne_nil hn)
        omega
      have hplaces := digits_lt ((digits n).length - 1)
      have hne := digits_ne_nil ((digits n).length - 1)
      have hexp := value_digits ((digits n).length - 1)
      rw [exponential]
      rcases hs : significant (digits n) with _ | ⟨d, _ | ⟨d', rest⟩⟩
      · exact absurd hs (significant_ne_nil hn)
      · rw [hs] at hlt hvalue hlength
        have h := ofChars_exponential [d] [] _ hlt (by simp) hplaces (by simp) hne (by simp) []
          (Or.inr ⟨rfl, rfl⟩)
        rw [List.append_nil] at h
        rw [h, hexp, hlength]
        simpa using hvalue
      · rw [hs] at hlt hvalue hlength
        have h := ofChars_exponential [d] (d' :: rest) _ (by simp [hlt d])
          (fun x hx => hlt x (List.mem_cons_of_mem _ hx)) hplaces (by simp) hne
          (by rw [hexp, hlength]; simp) _ (Or.inl rfl)
        rw [h, hexp, hlength]
        simpa using hvalue

theorem digits_length_le_iff (n : Nat) {places : Nat} (hplaces : 0 < places) :
    (digits n).length ≤ places ↔ n < 10 ^ places := by
  rw [digits]
  split
  · next h => simp [h, Nat.succ_le_iff, hplaces]
  · rw [List.length_reverse, Nat.digits_length_le_iff (by decide)]

theorem exponential_mem {n : Nat} (hn : n ≠ 0) : 'e' ∈ exponential (digits n) := by
  rw [exponential]
  rcases hs : significant (digits n) with _ | ⟨d, _ | ⟨d', rest⟩⟩
  · exact absurd hs (significant_ne_nil hn)
  · simp
  · simp

theorem toString_eq_plain_iff (n : Nat) : toString n = plain n ↔ n < 10 ^ 21 := by
  rw [← digits_length_le_iff n (by decide), toString]
  split
  · next h => exact iff_of_true rfl h
  · next h =>
      refine iff_of_false ?_ h
      intro heq
      have hn : n ≠ 0 := by
        rintro rfl
        exact h (by decide)
      have hmem := exponential_mem hn
      rw [plain, String.ofList_inj] at heq
      rw [heq] at hmem
      exact (textOf_char (digits_lt n) 'e' hmem).1 rfl

theorem plus_eq {a b : String} {m n : Nat} (ha : ofString a = some m) (hb : ofString b = some n) :
    ofString (plus a b) = some (m + n) := by
  rw [plus, ha, hb]
  exact ofString_toString (m + n)

section Signed

def ofNullable (text : Option String) : Option Int := (text.bind ofString).map Int.ofNat

def signedPlus : Option Int → Option Int → Option Int
  | some m, some n => some (m + n)
  | _, _ => none

def signedMinus : Option Int → Option Int → Option Int
  | some m, some n => some (m - n)
  | _, _ => none

def withSign (magnitude : Nat → String) (z : Int) : String :=
  if z < 0 then "-" ++ magnitude z.natAbs else magnitude z.natAbs

def signedToString : Option Int → String
  | some z => withSign toString z
  | none => "NaN"

def decimal (z : Int) : String := withSign plain z

theorem ofNullable_plain (n : Nat) : ofNullable (some (plain n)) = some (n : Int) := by
  rw [ofNullable, Option.bind_some, ofString_plain]
  rfl

theorem signedToString_eq_decimal_iff (z : Int) :
    signedToString (some z) = decimal z ↔ z.natAbs < 10 ^ 21 := by
  rw [← toString_eq_plain_iff, signedToString, decimal, withSign, withSign]
  split
  · exact String.append_right_inj "-"
  · exact Iff.rfl

theorem decimal_char (z : Int) : ∀ c ∈ (decimal z).toList, c = '-' ∨ c.isDigit = true := by
  have hdigit : ∀ d, d < 10 → (Nat.digitChar d).isDigit = true := by decide
  have hplain : ∀ n, ∀ c ∈ (plain n).toList, c.isDigit = true := by
    intro n c hc
    rw [plain, String.toList_ofList] at hc
    obtain ⟨d, hd, rfl⟩ := List.mem_map.mp hc
    exact hdigit d (digits_lt n d hd)
  intro c hc
  rw [decimal, withSign] at hc
  split at hc
  · rw [String.toList_append, List.mem_append] at hc
    rcases hc with hc | hc
    · exact Or.inl (List.mem_singleton.mp hc)
    · exact Or.inr (hplain _ c hc)
  · exact Or.inr (hplain _ c hc)

theorem signedToString_none_ne_decimal (z : Int) : signedToString none ≠ decimal z := by
  intro h
  have hmem : 'N' ∈ (signedToString none).toList := by decide
  rw [h] at hmem
  rcases decimal_char z 'N' hmem with hN | hN
  · exact absurd hN (by decide)
  · exact absurd hN (by decide)

end Signed

end CardanoGraphql.BigNumber
