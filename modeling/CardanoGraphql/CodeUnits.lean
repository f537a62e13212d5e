import Mathlib.Algebra.Order.Field.Rat
import Mathlib.Data.List.Induction
import Mathlib.Tactic.Positivity
import CardanoGraphql.BigNumber

namespace CardanoGraphql

/-- A string of JavaScript, whose code units may be any. -/
abbrev CodeUnits := List UInt16

namespace CodeUnits

open BigNumber (value)

def unit (c : Char) : UInt16 := UInt16.ofNat c.toNat

def encode (c : Char) : CodeUnits :=
  if c.toNat < 0x10000 then [unit c]
  else [UInt16.ofNat (0xD800 + (c.toNat - 0x10000) / 0x400),
    UInt16.ofNat (0xDC00 + (c.toNat - 0x10000) % 0x400)]

def ofString (s : String) : CodeUnits := s.toList.flatMap encode

def isDigit (u : UInt16) : Bool := decide (48 ≤ u.toNat) && decide (u.toNat ≤ 57)

def digit (d : Nat) : UInt16 := UInt16.ofNat (48 + d)

def digitValue (u : UInt16) : Nat := u.toNat - 48

def number (us : CodeUnits) : Nat := value (us.map digitValue)

def decimal (n : Nat) : CodeUnits := (BigNumber.digits n).map digit

def padded : Nat → Nat → CodeUnits
  | 0, _ => []
  | width + 1, n => padded width (n / 10) ++ [digit (n % 10)]

def fractionText (fraction : CodeUnits) : CodeUnits := if fraction = [] then [] else unit '.' :: fraction

theorem isDigit_iff {u : UInt16} : isDigit u = true ↔ 48 ≤ u.toNat ∧ u.toNat ≤ 57 := by
  rw [isDigit, Bool.and_eq_true, decide_eq_true_iff, decide_eq_true_iff]

theorem digit_toNat {d : Nat} (h : d < 10) : (digit d).toNat = 48 + d := by
  rw [digit, UInt16.toNat_ofNat']
  omega

theorem digitValue_digit {d : Nat} (h : d < 10) : digitValue (digit d) = d := by
  rw [digitValue, digit_toNat h]
  omega

theorem isDigit_digit {d : Nat} (h : d < 10) : isDigit (digit d) = true := by
  rw [isDigit_iff, digit_toNat h]
  omega

theorem digitValue_lt {u : UInt16} (h : isDigit u = true) : digitValue u < 10 := by
  have := isDigit_iff.mp h
  rw [digitValue]
  omega

theorem digit_digitValue {u : UInt16} (h : isDigit u = true) : digit (digitValue u) = u := by
  apply UInt16.toNat_inj.mp
  rw [digit_toNat (digitValue_lt h), digitValue]
  have := isDigit_iff.mp h
  omega

theorem number_append (us vs : CodeUnits) : number (us ++ vs) = number us * 10 ^ vs.length + number vs := by
  rw [number, List.map_append, BigNumber.value_append, List.length_map]
  rfl

theorem number_append_digit (us : CodeUnits) {d : Nat} (h : d < 10) :
    number (us ++ [digit d]) = number us * 10 + d := by
  have hdigit : number [digit d] = d := by
    rw [number, List.map_singleton, digitValue_digit h, value, List.foldl_cons, Nat.zero_mul, Nat.zero_add]
    rfl
  rw [number_append, hdigit]
  rfl

theorem number_lt {us : CodeUnits} (h : ∀ u ∈ us, isDigit u = true) : number us < 10 ^ us.length := by
  induction us using List.reverseRecOn with
  | nil => decide
  | append_singleton us u ih =>
      have hu : isDigit u = true := h u (List.mem_append_right us List.mem_cons_self)
      have := ih fun v hv => h v (List.mem_append_left [u] hv)
      have := digitValue_lt hu
      rw [← digit_digitValue hu, number_append_digit us (digitValue_lt hu), List.length_append,
        List.length_singleton, Nat.pow_succ]
      omega

theorem fraction_lt {us : CodeUnits} (h : ∀ u ∈ us, isDigit u = true) : (number us : ℚ) / 10 ^ us.length < 1 := by
  rw [div_lt_one (by positivity)]
  exact_mod_cast number_lt h

theorem decimal_digits (n : Nat) : ∀ u ∈ decimal n, isDigit u = true := by
  intro u hu
  obtain ⟨d, hd, rfl⟩ := List.mem_map.mp hu
  exact isDigit_digit (BigNumber.digits_lt n d hd)

theorem decimal_ne_nil (n : Nat) : decimal n ≠ [] := by
  rw [decimal, Ne, List.map_eq_nil_iff]
  exact BigNumber.digits_ne_nil n

theorem number_decimal (n : Nat) : number (decimal n) = n := by
  have hback : (BigNumber.digits n).map (digitValue ∘ digit) = BigNumber.digits n := by
    refine (List.map_congr_left fun d hd => ?_).trans (List.map_id _)
    exact digitValue_digit (BigNumber.digits_lt n d hd)
  rw [number, decimal, List.map_map, hback, BigNumber.value_digits]

theorem decimal_number {us : CodeUnits} (hne : us ≠ []) (h : ∀ u ∈ us, isDigit u = true)
    (hhead : us.length = 1 ∨ us.head? ≠ some (digit 0)) : decimal (number us) = us := by
  have hback : us.map (digit ∘ digitValue) = us :=
    (List.map_congr_left fun u hu => digit_digitValue (h u hu)).trans (List.map_id us)
  rw [decimal, number, BigNumber.digits_value, List.map_map, hback]
  · rwa [Ne, List.map_eq_nil_iff]
  · intro d hd
    obtain ⟨u, hu, rfl⟩ := List.mem_map.mp hd
    exact digitValue_lt (h u hu)
  · rw [List.length_map, List.head?_map]
    refine hhead.imp_right fun hzero hmap => hzero ?_
    obtain ⟨u, hu, hvalue⟩ := Option.map_eq_some_iff.mp hmap
    rw [hu, ← digit_digitValue (h u (List.mem_of_mem_head? hu)), hvalue]

theorem decimal_head (n : Nat) : (decimal n).length = 1 ∨ (decimal n).head? ≠ some (digit 0) := by
  rw [decimal, List.length_map, List.head?_map]
  refine (BigNumber.digits_head n).imp_right fun hzero hmap => hzero ?_
  obtain ⟨d, hd, hdigit⟩ := Option.map_eq_some_iff.mp hmap
  have hlt : d < 10 := BigNumber.digits_lt n d (List.mem_of_mem_head? hd)
  rw [hd, ← digitValue_digit hlt, hdigit, digitValue_digit (by decide)]

theorem decimal_length_le_iff (n : Nat) {places : Nat} (h : 0 < places) :
    (decimal n).length ≤ places ↔ n < 10 ^ places := by
  rw [decimal, List.length_map, BigNumber.digits_length_le_iff n h]

theorem padded_length (width n : Nat) : (padded width n).length = width := by
  induction width generalizing n with
  | zero => rfl
  | succ width ih => rw [padded, List.length_append, ih, List.length_singleton]

theorem padded_digits (width n : Nat) : ∀ u ∈ padded width n, isDigit u = true := by
  induction width generalizing n with
  | zero =>
      intro u hu
      cases hu
  | succ width ih =>
      intro u hu
      rw [padded, List.mem_append] at hu
      rcases hu with hu | hu
      · exact ih (n / 10) u hu
      · rw [List.mem_singleton.mp hu]
        exact isDigit_digit (Nat.mod_lt n (by decide))

theorem number_padded (width n : Nat) : number (padded width n) = n % 10 ^ width := by
  induction width generalizing n with
  | zero =>
      rw [Nat.pow_zero, Nat.mod_one]
      rfl
  | succ width ih =>
      rw [padded, number_append_digit _ (Nat.mod_lt n (by decide)), ih, Nat.pow_succ', Nat.mod_mul,
        Nat.add_comm, Nat.mul_comm]

theorem padded_number {us : CodeUnits} (h : ∀ u ∈ us, isDigit u = true) :
    padded us.length (number us) = us := by
  induction us using List.reverseRecOn with
  | nil => rfl
  | append_singleton us u ih =>
      have hu : isDigit u = true := h u (List.mem_append_right us List.mem_cons_self)
      have hlt := digitValue_lt hu
      have hnumber : number (us ++ [u]) = number us * 10 + digitValue u := by
        conv_lhs => rw [← digit_digitValue hu]
        exact number_append_digit us hlt
      have hhead : (number us * 10 + digitValue u) / 10 = number us := by omega
      have hlast : (number us * 10 + digitValue u) % 10 = digitValue u := by omega
      rw [hnumber, List.length_append, List.length_singleton, padded, hhead, hlast, digit_digitValue hu,
        ih fun v hv => h v (List.mem_append_left [u] hv)]

end CodeUnits

end CardanoGraphql
