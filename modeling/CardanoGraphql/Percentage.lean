import Mathlib.Data.List.Chain
import CardanoGraphql.JsNumber
import CardanoGraphql.RegExp

namespace CardanoGraphql.Percentage

open CodeUnits RegExp JsNumber

def fractionOf (p : UInt16 → Bool) : RegExp UInt16 := .opt (.seq (chr '.') (.seq (.cls p) (.opt (.cls p))))

def hundred : RegExp UInt16 :=
  .seq .start (.seq (seqs [chr '1', chr '0', chr '0'] (fractionOf fun u => decide (u = unit '0'))) .finish)

def belowHundred : RegExp UInt16 :=
  .seq .start (.seq (.seq (.alt (.seq (between '1' '9') (.opt (.cls isDigit))) (chr '0'))
    (fractionOf isDigit)) .finish)

/-- `REGEX`, the one object that all calls share. -/
def regex : RegExp UInt16 := .alt hundred belowHundred

def roundFloat (x : JsNumber) : JsNumber := parseFloat (toFixed x)

def roundFloatFromString (value : CodeUnits) : JsNumber := roundFloat (parseFloat value)

/-- `serialize` of a number, whose text `parseFloat` reads back. -/
def serialize (value : JsNumber) : Except String JsNumber :=
  let rounded := roundFloat value
  if lt (.finite 100) rounded || lt rounded (.finite 0) then
    .error "Percentage must be a number between 0 - 100.00"
  else .ok rounded

/-- The value of a variable; of one that is neither a string nor a number, what `String` makes
of it or throws. -/
inductive Value
  | string (value : CodeUnits)
  | number (x : JsNumber)
  | other (text : Except String CodeUnits)

inductive Literal
  | string (value : CodeUnits)
  | float (value : CodeUnits)
  | int (value : CodeUnits)
  | other

inductive Call
  | parseValue (value : Value)
  | parseLiteral (ast : Literal)

inductive Outcome
  | number (x : JsNumber)
  | text (text : CodeUnits)
  | undefined
  | thrown (message : String)
deriving DecidableEq, Repr

def Outcome.accepted : Outcome → Bool
  | .number _ | .text _ => true
  | .undefined | .thrown _ => false

def requiresRegex : String :=
  "Percentage requires Regex: /(^100(\\.0\x7b1,2\x7d)?$)|(^([1-9]([0-9])?|0)(\\.[0-9]\x7b1,2\x7d)?$)/g"

def parseString (lastIndex : Nat) (value : CodeUnits) : Outcome × Nat :=
  let (found, next) := testGlobal regex lastIndex value
  (if found then .number (roundFloatFromString value) else .thrown requiresRegex, next)

/-- A call where the pattern has that `lastIndex`; its outcome and the `lastIndex` it leaves. -/
def perform (lastIndex : Nat) : Call → Outcome × Nat
  | .parseValue (.string value) => parseString lastIndex value
  | .parseValue (.number x) => (.text (toFixed x), lastIndex)
  | .parseValue (.other (.ok text)) => (.text (toFixed (parseFloat text)), lastIndex)
  | .parseValue (.other (.error message)) => (.thrown message, lastIndex)
  | .parseLiteral (.string value) => parseString lastIndex value
  | .parseLiteral (.float value) => (.text (toFixed (parseFloat value)), lastIndex)
  | .parseLiteral (.int value) => (.text (toFixed (parseFloat value)), lastIndex)
  | .parseLiteral .other => (.undefined, lastIndex)

def outcomes : Nat → List Call → List Outcome
  | _, [] => []
  | lastIndex, call :: calls => (perform lastIndex call).1 :: outcomes (perform lastIndex call).2 calls

def firstOutcome (call : Call) : Outcome := (perform 0 call).1

def stringOf : Call → Option CodeUnits
  | .parseValue (.string value) | .parseLiteral (.string value) => some value
  | _ => none

def numberOf : Call → Option JsNumber
  | .parseValue (.number x) => some x
  | .parseLiteral (.float value) | .parseLiteral (.int value) => some (parseFloat value)
  | _ => none

/-- A decimal between 0 and 100 with at most two fraction digits. -/
def IsPercentage (s : CodeUnits) : Prop :=
  ∃ (whole : Nat) (fraction : CodeUnits), s = decimal whole ++ fractionText fraction ∧
    (∀ u ∈ fraction, isDigit u = true) ∧ fraction.length ≤ 2 ∧
    (whole : ℚ) + number fraction / 10 ^ fraction.length ≤ 100

def InRange (x : JsNumber) : Prop := ∃ q : ℚ, x = .finite q ∧ 0 ≤ q ∧ q ≤ 100

def strings (calls : List Call) : List CodeUnits := calls.filterMap stringOf

structure ParsesAlike (calls : List Call) : Prop where
  memoryless : outcomes 0 calls = calls.map firstOutcome
  strings : ∀ s, (parseString 0 s).1.accepted = true ↔ IsPercentage s
  numbers : ∀ call ∈ calls, ∀ x, numberOf call = some x → ((firstOutcome call).accepted = true ↔ InRange x)

section Grammar

theorem word_fractionOf {length : Nat} {p : UInt16 → Bool} {word after : CodeUnits} :
    Word length (fractionOf p) word after ↔
      ∃ fraction, word = fractionText fraction ∧ fraction.length ≤ 2 ∧ ∀ u ∈ fraction, p u = true := by
  constructor
  · rintro (hword | rfl)
    · obtain ⟨rest, rfl, hrest⟩ := word_chr_seq.mp hword
      obtain ⟨a, second, rfl, ha, hsecond⟩ := word_cls_seq.mp hrest
      rcases hsecond with ⟨b, rfl, hb⟩ | rfl
      · exact ⟨[a, b], rfl, Nat.le_refl 2, by simp [ha, hb]⟩
      · exact ⟨[a], rfl, Nat.le_succ 1, by simp [ha]⟩
    · exact ⟨[], rfl, Nat.zero_le 2, by simp⟩
  · rintro ⟨fraction, rfl, hlength, hall⟩
    match fraction with
    | [] => exact Or.inr rfl
    | a :: second =>
        obtain ⟨ha, hsecond⟩ := List.forall_mem_cons.mp hall
        refine Or.inl (word_chr_seq.mpr ⟨a :: second, rfl, word_cls_seq.mpr ⟨a, second, rfl, ha, ?_⟩⟩)
        match second with
        | [] => exact Or.inr rfl
        | [b] => exact Or.inl ⟨b, rfl, hsecond b List.mem_cons_self⟩
        | _ :: _ :: _ =>
            rw [List.length_cons, List.length_cons, List.length_cons] at hlength
            omega

theorem leading_iff (u : UInt16) :
    (decide ((unit '1').toNat ≤ u.toNat) && decide (u.toNat ≤ (unit '9').toNat)) = true ↔
      isDigit u = true ∧ u ≠ digit 0 := by
  have hone : (unit '1').toNat = 49 := rfl
  have hnine : (unit '9').toNat = 57 := rfl
  have hzero : (digit 0).toNat = 48 := rfl
  rw [Bool.and_eq_true, decide_eq_true_iff, decide_eq_true_iff, isDigit_iff, Ne, ← UInt16.toNat_inj, hone, hnine,
    hzero]
  omega

theorem word_whole {length : Nat} {word after : CodeUnits} :
    Word length (.alt (.seq (between '1' '9') (.opt (.cls isDigit))) (chr '0')) word after ↔
      ∃ whole < 100, word = decimal whole := by
  constructor
  · have hwhole : ∀ a rest, a ≠ digit 0 → (∀ u ∈ a :: rest, isDigit u = true) → (a :: rest).length ≤ 2 →
        ∃ whole < 100, a :: rest = decimal whole := by
      intro a rest ha hall hlength
      refine ⟨number (a :: rest), ?_, (decimal_number (List.cons_ne_nil a rest) hall (Or.inr ?_)).symm⟩
      · exact lt_of_lt_of_le (number_lt hall) (Nat.pow_le_pow_right (by decide) hlength)
      · exact fun h => ha (Option.some.inj h)
    rintro (hword | hword)
    · obtain ⟨a, rest, rfl, ha, hrest⟩ := word_cls_seq.mp hword
      obtain ⟨hdigit, hne⟩ := (leading_iff a).mp ha
      rcases hrest with ⟨b, rfl, hb⟩ | rfl
      · exact hwhole a [b] hne (by simp [hdigit, hb]) (Nat.le_refl 2)
      · exact hwhole a [] hne (by simp [hdigit]) (Nat.le_succ 1)
    · exact ⟨0, by decide, word_chr.mp hword⟩
  · rintro ⟨whole, hlt, rfl⟩
    have hlength : (decimal whole).length ≤ 2 := (decimal_length_le_iff whole (by decide)).mpr hlt
    have hdigits := decimal_digits whole
    have hhead := decimal_head whole
    obtain ⟨a, rest, hword⟩ := List.exists_cons_of_ne_nil (decimal_ne_nil whole)
    rw [hword] at hlength hdigits hhead ⊢
    obtain ⟨ha, hrest⟩ := List.forall_mem_cons.mp hdigits
    by_cases hzero : a = digit 0
    · rcases hhead with hone | hhead
      · rw [List.eq_nil_of_length_eq_zero (Nat.succ.inj hone), hzero]
        exact Or.inr (word_chr.mpr rfl)
      · exact absurd (congrArg some hzero) hhead
    · refine Or.inl (word_cls_seq.mpr ⟨a, rest, rfl, (leading_iff a).mpr ⟨ha, hzero⟩, ?_⟩)
      match rest with
      | [] => exact Or.inr rfl
      | [b] => exact Or.inl ⟨b, rfl, hrest b List.mem_cons_self⟩
      | _ :: _ :: _ =>
          rw [List.length_cons, List.length_cons, List.length_cons] at hlength
          omega

theorem number_zeros {fraction : CodeUnits} (h : ∀ u ∈ fraction, decide (u = unit '0') = true) :
    number fraction = 0 := by
  have hmap : fraction.map digitValue = List.replicate fraction.length 0 := by
    rw [List.eq_replicate_iff]
    refine ⟨List.length_map _, ?_⟩
    intro d hd
    obtain ⟨u, hu, rfl⟩ := List.mem_map.mp hd
    rw [of_decide_eq_true (h u hu)]
    rfl
  rw [number, hmap, BigNumber.value_zeros]

theorem zeros_of_number {fraction : CodeUnits} (hdigits : ∀ u ∈ fraction, isDigit u = true)
    (h : number fraction = 0) : ∀ u ∈ fraction, decide (u = unit '0') = true := by
  induction fraction using List.reverseRecOn with
  | nil =>
      intro u hu
      cases hu
  | append_singleton fraction u ih =>
      have hu : isDigit u = true := hdigits u (List.mem_append_right fraction List.mem_cons_self)
      rw [← digit_digitValue hu, number_append_digit fraction (digitValue_lt hu)] at h
      have hvalue : digitValue u = 0 := by omega
      intro v hv
      rcases List.mem_append.mp hv with hv | hv
      · exact ih (fun w hw => hdigits w (List.mem_append_left [u] hw)) (by omega) v hv
      · rw [List.mem_singleton.mp hv, ← digit_digitValue hu, hvalue]
        rfl

theorem word_hundred {length : Nat} {word after : CodeUnits} :
    Word length hundred word after ↔ word.length = length ∧ after = [] ∧
      ∃ fraction, word = decimal 100 ++ fractionText fraction ∧ fraction.length ≤ 2 ∧
        ∀ u ∈ fraction, decide (u = unit '0') = true := by
  have hdecimal : decimal 100 = [unit '1', unit '0', unit '0'] := by decide
  rw [hundred, word_start_seq, word_seq_finish, hdecimal]
  constructor
  · rintro ⟨hlength, rfl, hword⟩
    obtain ⟨_, rfl, hone⟩ := word_chr_seq.mp hword
    obtain ⟨_, rfl, hzero⟩ := word_chr_seq.mp hone
    obtain ⟨_, rfl, hlast⟩ := word_chr_seq.mp hzero
    obtain ⟨fraction, rfl, hfraction⟩ := word_fractionOf.mp hlast
    exact ⟨by rw [← hlength, List.append_nil], rfl, fraction, rfl, hfraction⟩
  · rintro ⟨hlength, rfl, fraction, rfl, hfraction⟩
    refine ⟨by rw [List.append_nil, hlength], rfl, ?_⟩
    apply word_chr_seq.mpr ⟨_, rfl, ?_⟩
    apply word_chr_seq.mpr ⟨_, rfl, ?_⟩
    apply word_chr_seq.mpr ⟨_, rfl, ?_⟩
    exact word_fractionOf.mpr ⟨fraction, rfl, hfraction⟩

theorem word_belowHundred {length : Nat} {word after : CodeUnits} :
    Word length belowHundred word after ↔ word.length = length ∧ after = [] ∧
      ∃ whole < 100, ∃ fraction, word = decimal whole ++ fractionText fraction ∧ fraction.length ≤ 2 ∧
        ∀ u ∈ fraction, isDigit u = true := by
  rw [belowHundred, word_start_seq, word_seq_finish]
  constructor
  · rintro ⟨hlength, rfl, u, v, rfl, hu, hv⟩
    obtain ⟨whole, hlt, rfl⟩ := word_whole.mp hu
    obtain ⟨fraction, rfl, hfraction⟩ := word_fractionOf.mp hv
    exact ⟨by rw [← hlength, List.append_nil], rfl, whole, hlt, fraction, rfl, hfraction⟩
  · rintro ⟨hlength, rfl, whole, hlt, fraction, rfl, hfraction⟩
    refine ⟨by rw [List.append_nil, hlength], rfl, ?_⟩
    exact ⟨_, _, rfl, word_whole.mpr ⟨whole, hlt, rfl⟩, word_fractionOf.mpr ⟨fraction, rfl, hfraction⟩⟩

theorem word_regex {length : Nat} {word after : CodeUnits} :
    Word length regex word after ↔ word.length = length ∧ after = [] ∧ IsPercentage word := by
  have hsplit : Word length regex word after ↔ Word length hundred word after ∨ Word length belowHundred word after :=
    Iff.rfl
  rw [hsplit, word_hundred, word_belowHundred, ← and_or_left, ← and_or_left]
  refine and_congr_right fun _ => and_congr_right fun _ => ?_
  constructor
  · rintro (⟨fraction, hword, hlength, hzeros⟩ | ⟨whole, hlt, fraction, hword, hlength, hdigits⟩)
    · refine ⟨100, fraction, hword, ?_, hlength, ?_⟩
      · intro u hu
        rw [of_decide_eq_true (hzeros u hu)]
        rfl
      · rw [number_zeros hzeros]
        norm_num
    · refine ⟨whole, fraction, hword, hdigits, hlength, ?_⟩
      have hwhole : (whole : ℚ) ≤ 99 := by exact_mod_cast Nat.le_of_lt_succ hlt
      have := fraction_lt hdigits
      linarith
  · rintro ⟨whole, fraction, hword, hdigits, hlength, hle⟩
    have hnonneg : (0 : ℚ) ≤ number fraction / 10 ^ fraction.length := by positivity
    have hwhole : whole ≤ 100 := by
      have : (whole : ℚ) ≤ 100 := by linarith
      exact_mod_cast this
    rcases hwhole.lt_or_eq with hlt | rfl
    · exact Or.inr ⟨whole, hlt, fraction, hword, hlength, hdigits⟩
    · have hzero : (number fraction : ℚ) / 10 ^ fraction.length = 0 := by
        push_cast at hle
        linarith
      have hnumber : number fraction = 0 := by
        have hpow : (10 : ℚ) ^ fraction.length ≠ 0 := by positivity
        exact_mod_cast (div_eq_zero_iff.mp hzero).resolve_right hpow
      exact Or.inl ⟨fraction, hword, hlength, zeros_of_number hdigits hnumber⟩

end Grammar

section Calls

theorem isPercentage_ne_nil {s : CodeUnits} (h : IsPercentage s) : s ≠ [] := by
  obtain ⟨whole, fraction, rfl, -⟩ := h
  exact fun hnil => decimal_ne_nil whole (List.append_eq_nil_iff.mp hnil).1

theorem testGlobal_zero (s : CodeUnits) :
    (IsPercentage s → testGlobal regex 0 s = (true, s.length)) ∧
      (¬ IsPercentage s → testGlobal regex 0 s = (false, 0)) := by
  have hfound : ∀ rest, search s.length regex s = some rest → IsPercentage s ∧ rest = [] := by
    intro rest hrest
    obtain ⟨before, word, htext, hword⟩ := search_some hrest
    obtain ⟨hlength, rfl, hpercentage⟩ := word_regex.mp hword
    have hbefore : before = [] := by
      apply List.eq_nil_of_length_eq_zero
      have := congrArg List.length htext
      rw [List.append_nil, List.length_append] at this
      omega
    rw [hbefore, List.nil_append, List.append_nil] at htext
    exact ⟨htext ▸ hpercentage, rfl⟩
  rw [testGlobal, if_neg (Nat.not_lt_zero _), List.drop_zero]
  cases hs : search s.length regex s with
  | none =>
      refine ⟨fun h => ?_, fun _ => rfl⟩
      have hsome : (search s.length regex s).isSome = true :=
        search_isSome_iff.mpr ⟨[], s, [], by simp, word_regex.mpr ⟨rfl, rfl, h⟩⟩
      rw [hs] at hsome
      cases hsome
  | some rest =>
      obtain ⟨hpercentage, rfl⟩ := hfound rest hs
      exact ⟨fun _ => rfl, fun h => absurd hpercentage h⟩

theorem testGlobal_later {lastIndex : Nat} (h : lastIndex ≠ 0) (s : CodeUnits) :
    testGlobal regex lastIndex s = (false, 0) := by
  rw [testGlobal]
  split
  · rfl
  · next hle =>
      have hnone : search s.length regex (s.drop lastIndex) = none := by
        rw [← Option.not_isSome_iff_eq_none, search_isSome_iff]
        rintro ⟨before, word, after, htext, hword⟩
        obtain ⟨hlength, -⟩ := word_regex.mp hword
        have := congrArg List.length htext
        rw [List.length_drop, List.length_append, List.length_append] at this
        omega
      rw [hnone]

theorem parseString_zero (s : CodeUnits) :
    (IsPercentage s → parseString 0 s = (.number (roundFloatFromString s), s.length)) ∧
      (¬ IsPercentage s → parseString 0 s = (.thrown requiresRegex, 0)) := by
  rw [parseString]
  constructor
  · intro h
    rw [(testGlobal_zero s).1 h]
    rfl
  · intro h
    rw [(testGlobal_zero s).2 h]
    rfl

theorem parseString_later {lastIndex : Nat} (h : lastIndex ≠ 0) (s : CodeUnits) :
    parseString lastIndex s = (.thrown requiresRegex, 0) := by
  rw [parseString, testGlobal_later h]
  rfl

theorem parseString_accepted (s : CodeUnits) :
    (parseString 0 s).1.accepted = true ↔ IsPercentage s := by
  by_cases h : IsPercentage s
  · rw [(parseString_zero s).1 h]
    exact iff_of_true rfl h
  · rw [(parseString_zero s).2 h]
    exact iff_of_false Bool.false_ne_true h

theorem perform_of_none {call : Call} (h : stringOf call = none) (lastIndex : Nat) :
    perform lastIndex call = (firstOutcome call, lastIndex) := by
  match call with
  | .parseValue (.number x) => rfl
  | .parseValue (.other (.ok text)) => rfl
  | .parseValue (.other (.error message)) => rfl
  | .parseLiteral (.float value) => rfl
  | .parseLiteral (.int value) => rfl
  | .parseLiteral .other => rfl

theorem perform_of_some {call : Call} {s : CodeUnits} (h : stringOf call = some s) (lastIndex : Nat) :
    perform lastIndex call = parseString lastIndex s := by
  match call with
  | .parseValue (.string value) | .parseLiteral (.string value) =>
      rw [← Option.some.inj h]
      rfl

def NotBoth (s t : CodeUnits) : Prop := ¬ (IsPercentage s ∧ IsPercentage t)

theorem outcomes_eq_iff (lastIndex : Nat) (calls : List Call) :
    outcomes lastIndex calls = calls.map firstOutcome ↔
      (lastIndex ≠ 0 → ∀ s ∈ (strings calls).head?, ¬ IsPercentage s) ∧ List.IsChain NotBoth (strings calls) := by
  induction calls generalizing lastIndex with
  | nil => simp [outcomes, strings]
  | cons call calls ih =>
      rw [outcomes, List.map_cons, List.cons.injEq]
      cases hcall : stringOf call with
      | none =>
          have hstrings : strings (call :: calls) = strings calls := List.filterMap_cons_none hcall
          rw [perform_of_none hcall, hstrings, ih]
          exact and_iff_right rfl
      | some s =>
          have hstrings : strings (call :: calls) = s :: strings calls := List.filterMap_cons_some hcall
          have hfirst : firstOutcome call = (parseString 0 s).1 := by rw [firstOutcome, perform_of_some hcall]
          rw [perform_of_some hcall, hstrings, ih, hfirst, List.isChain_cons, List.head?_cons]
          by_cases hs : IsPercentage s
          · by_cases hindex : lastIndex = 0
            · have hlength : s.length ≠ 0 := fun h => isPercentage_ne_nil hs (List.eq_nil_of_length_eq_zero h)
              rw [hindex, (parseString_zero s).1 hs]
              simp [hlength, NotBoth, hs]
            · rw [parseString_later hindex, (parseString_zero s).1 hs]
              simp [hindex, hs]
          · have hthrown : parseString lastIndex s = (.thrown requiresRegex, 0) := by
              by_cases hindex : lastIndex = 0
              · rw [hindex, (parseString_zero s).2 hs]
              · exact parseString_later hindex s
            rw [hthrown, (parseString_zero s).2 hs]
            simp [NotBoth, hs]

theorem accepted_of_numberOf {call : Call} {x : JsNumber} (h : numberOf call = some x) :
    (firstOutcome call).accepted = true := by
  match call with
  | .parseValue (.number x) => rfl
  | .parseLiteral (.float value) => rfl
  | .parseLiteral (.int value) => rfl

/-- An accepted string leaves the shared pattern behind its own end, and the range is
enforced for the strings only. -/
theorem parsesAlike_iff (calls : List Call) : ParsesAlike calls ↔
    List.IsChain NotBoth (strings calls) ∧
      ∀ call ∈ calls, ∀ x, numberOf call = some x → InRange x := by
  have houtcomes := outcomes_eq_iff 0 calls
  constructor
  · intro h
    refine ⟨(houtcomes.mp h.memoryless).2, ?_⟩
    intro call hcall x hx
    exact (h.numbers call hcall x hx).mp (accepted_of_numberOf hx)
  · rintro ⟨hchain, hrange⟩
    refine ⟨houtcomes.mpr ⟨fun h => absurd rfl h, hchain⟩, parseString_accepted, ?_⟩
    intro call hcall x hx
    exact iff_of_true (accepted_of_numberOf hx) (hrange call hcall x hx)

def fiftyTwice : List Call :=
  [.parseValue (.string (ofString "50")), .parseLiteral (.string (ofString "50"))]

theorem fiftyTwice_rejected :
    (outcomes 0 fiftyTwice).map Outcome.accepted = [true, false] ∧ ¬ ParsesAlike fiftyTwice := by
  have haccepted : (outcomes 0 fiftyTwice).map Outcome.accepted = [true, false] := by decide
  refine ⟨haccepted, fun h => ?_⟩
  rw [h.memoryless] at haccepted
  revert haccepted
  decide

end Calls

end CardanoGraphql.Percentage
