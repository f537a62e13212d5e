import Mathlib.Tactic.Linarith
import Mathlib.Tactic.Positivity
import Mathlib.Tactic.Ring
import CardanoGraphql.BoolExp

namespace CardanoGraphql.QueryCost

open QueryComplexity BoolExp

section OrderBy

mutual

def isOrderByValue : Json → Bool
  | .str _ | .null => true
  | .obj fields => isOrderByFields fields
  | .bool _ | .num _ | .arr _ => false

def isOrderByFields : List (String × Json) → Bool
  | [] => true
  | (_, value) :: rest => isOrderByValue value && isOrderByFields rest

end

def isOrderBy (orderBy : Option (List Json)) : Bool :=
  (orderBy.getD []).all fun field =>
    match field with
    | .null => true
    | .obj fields => isOrderByFields fields
    | _ => false

def IsOk (cost : Except String Nat) : Prop := ∃ n, cost = .ok n

theorem isOk_plus (a b : Except String Nat) : IsOk (plus a b) ↔ IsOk a ∧ IsOk b := by
  cases a with
  | error e => exact iff_of_false nofun nofun
  | ok m =>
      cases b with
      | error e => exact iff_of_false nofun nofun
      | ok n => exact iff_of_true ⟨m + n, rfl⟩ ⟨⟨m, rfl⟩, ⟨n, rfl⟩⟩

theorem isOk_map (a : Except String Nat) (f : Nat → Nat) : IsOk (a.map f) ↔ IsOk a := by
  cases a with
  | error e => exact iff_of_false nofun nofun
  | ok n => exact iff_of_true ⟨f n, rfl⟩ ⟨n, rfl⟩

theorem orderByFields_isOk {fields : List (String × Json)}
    (ih : ∀ f ∈ fields, isOrderByValue f.2 = true → (IsOk (orderByEntry f.2) ↔ f.2.nullFree = true))
    (h : isOrderByFields fields = true) :
    IsOk (orderByFields fields) ↔ Json.fieldsNullFree fields = true := by
  induction fields with
  | nil => exact iff_of_true ⟨0, rfl⟩ rfl
  | cons f fields ihl =>
      obtain ⟨key, value⟩ := f
      rw [isOrderByFields, Bool.and_eq_true] at h
      obtain ⟨hf, hfields⟩ := List.forall_mem_cons.mp ih
      rw [orderByFields, isOk_plus, hf h.1, ihl hfields h.2, Json.fieldsNullFree, Bool.and_eq_true]

theorem orderByEntry_isOk (value : Json) :
    isOrderByValue value = true → (IsOk (orderByEntry value) ↔ value.nullFree = true) := by
  induction value using Json.induction with
  | null => exact fun _ => iff_of_false nofun nofun
  | bool b => exact nofun
  | num text => exact nofun
  | str s => exact fun _ => iff_of_true ⟨1, rfl⟩ rfl
  | arr elements ih => exact nofun
  | obj fields ih =>
      intro h
      rw [orderByEntry, isOk_map, Json.nullFree]
      exact orderByFields_isOk ih h

theorem orderBy_isOk {fields : List Json} (h : isOrderBy (some fields) = true) :
    (∃ costs, fields.mapM calculateOrderByFieldComplexity = Except.ok costs) ↔
      Json.elementsNullFree fields = true := by
  induction fields with
  | nil => exact iff_of_true ⟨[], rfl⟩ rfl
  | cons field fields ih =>
      have hcons : isOrderBy (some [field]) = true ∧ isOrderBy (some fields) = true := by
        simpa [isOrderBy] using h
      have hfield : IsOk (calculateOrderByFieldComplexity field) ↔ field.nullFree = true := by
        cases field with
        | obj entries =>
            have hentries : isOrderByFields entries = true := by simpa [isOrderBy] using hcons.1
            rw [calculateOrderByFieldComplexity, Json.nullFree]
            exact orderByFields_isOk (fun f _ => orderByEntry_isOk f.2) hentries
        | null => exact iff_of_false nofun nofun
        | bool | num | str | arr => simp [isOrderBy] at hcons
      rw [List.mapM_cons, Json.elementsNullFree, Bool.and_eq_true, ← hfield, ← ih hcons.2]
      cases calculateOrderByFieldComplexity field with
      | error e => exact iff_of_false nofun nofun
      | ok m =>
          cases fields.mapM calculateOrderByFieldComplexity with
          | error e => exact iff_of_false nofun nofun
          | ok ms => exact iff_of_true ⟨m :: ms, rfl⟩ ⟨⟨m, rfl⟩, ⟨ms, rfl⟩⟩

theorem calculateOrderByComplexity_isOk {orderBy : Option (List Json)} (h : isOrderBy orderBy = true) :
    IsOk (calculateOrderByComplexity orderBy) ↔ Json.elementsNullFree (orderBy.getD []) = true := by
  cases orderBy with
  | none => exact iff_of_true ⟨0, rfl⟩ rfl
  | some fields =>
      rw [Option.getD_some, ← orderBy_isOk h, calculateOrderByComplexity]
      cases fields.mapM calculateOrderByFieldComplexity with
      | error e => exact iff_of_false nofun nofun
      | ok costs => exact iff_of_true ⟨costs.sum, rfl⟩ ⟨costs, rfl⟩

end OrderBy

section Estimate

theorem offset_factor (offset : Option Int) :
    (1 ≤ calculateOffsetComplexity offset + 1 ↔ -100 < offset.getD 0) ∧
      (0 ≤ calculateOffsetComplexity offset + 1 ↔ -200 < offset.getD 0) := by
  cases offset with
  | none => exact ⟨by decide, by decide⟩
  | some n =>
      simp only [calculateOffsetComplexity, Option.getD_some]
      by_cases hn : n = 0
      · rw [if_pos hn, hn]
        exact ⟨by decide, by decide⟩
      · rw [if_neg hn]
        constructor <;> omega

theorem le_product_iff {base c filter factor order : ℚ} (hbase : 1 ≤ base) (hc : 0 ≤ c)
    (hfilter : 0 ≤ filter) (horder : 1 ≤ order) (hint : 1 ≤ factor ∨ factor = 0 ∨ factor ≤ -1) :
    c ≤ base * ((c + filter) * factor * order) ↔ 1 ≤ factor ∨ (c = 0 ∧ (0 ≤ factor ∨ filter = 0)) := by
  have hsum : 0 ≤ c + filter := add_nonneg hc hfilter
  have hpos : 0 < base * order := by positivity
  have hregroup : base * ((c + filter) * factor * order) = base * order * ((c + filter) * factor) := by
    ring
  rw [hregroup]
  rcases hint with hone | rfl | hneg
  · refine iff_of_true ?_ (Or.inl hone)
    have hscale : 1 ≤ base * order := one_le_mul_of_one_le_of_one_le hbase horder
    calc c ≤ c + filter := le_add_of_nonneg_right hfilter
      _ ≤ (c + filter) * factor := le_mul_of_one_le_right hsum hone
      _ ≤ base * order * ((c + filter) * factor) :=
          le_mul_of_one_le_left (mul_nonneg hsum (by linarith)) hscale
  · rw [mul_zero, mul_zero]
    constructor
    · intro h
      exact Or.inr ⟨le_antisymm h hc, Or.inl le_rfl⟩
    · rintro (h | ⟨h, -⟩)
      · linarith
      · exact h.le
  · constructor
    · intro h
      have hle : base * order * ((c + filter) * factor) ≤ 0 :=
        mul_nonpos_of_nonneg_of_nonpos hpos.le (mul_nonpos_of_nonneg_of_nonpos hsum (by linarith))
      have hc0 : c = 0 := le_antisymm (h.trans hle) hc
      subst hc0
      have hzero : (0 + filter) * factor = 0 := by
        have hge : 0 ≤ (0 + filter) * factor := nonneg_of_mul_nonneg_right h hpos
        have hle : (0 + filter) * factor ≤ 0 := mul_nonpos_of_nonneg_of_nonpos hsum (by linarith)
        exact le_antisymm hle hge
      rcases mul_eq_zero.mp hzero with hz | hz
      · exact Or.inr ⟨rfl, Or.inr (by linarith)⟩
      · linarith
    · rintro (h | ⟨rfl, h | rfl⟩)
      · linarith
      · linarith
      · simp

/-- The estimate is a number that covers the cost of the children, and with it a further
root field adds to the total of the operation or leaves it. -/
def CostKept (baseQueryCost : ℚ) (args : Args) (childComplexity : ℚ) : Prop :=
  ∃ cost, getDefaultQueryComplexity baseQueryCost args childComplexity = .ok cost ∧
    childComplexity ≤ cost ∧ 0 ≤ cost ∧
    ∀ before after, operationComplexity (before ++ after) ≤ operationComplexity (before ++ cost :: after)

theorem where_cost_isOk {value : Json} (h : isWhere value = true) :
    Costs (calculateWhereComplexity value) (costless value) := by
  cases value with
  | null => exact ⟨0, rfl, by simp [costless]⟩
  | obj fields => exact (where_cost (.obj fields)).1 h
  | bool | num | str | arr => cases h

theorem operationComplexity_insert (before after : List ℚ) (cost : ℚ) :
    operationComplexity (before ++ cost :: after) = operationComplexity (before ++ after) + cost := by
  simp only [operationComplexity, List.sum_append, List.sum_cons]
  ring

theorem cost_eq {baseQueryCost : ℚ} {args : Args} {childComplexity : ℚ} {n m : Nat}
    (hn : calculateWhereComplexity args.whereArg = .ok n)
    (hm : calculateOrderByComplexity args.orderBy = .ok m) :
    getDefaultQueryComplexity baseQueryCost args childComplexity =
      .ok ((if baseQueryCost < 1 then 1 else baseQueryCost) *
        ((childComplexity + n) * ((calculateOffsetComplexity args.offset + 1 : Int) : ℚ) * (m + 1))) := by
  simp only [getDefaultQueryComplexity, hn, hm, Int.cast_add, Int.cast_one]
  rfl

/-- What the arguments of a query must be for its cost to be kept. -/
theorem cost_kept_iff (baseQueryCost : ℚ) (args : Args) (childComplexity : ℚ) (hc : 0 ≤ childComplexity)
    (hwhere : isWhere args.whereArg = true) (horder : isOrderBy args.orderBy = true) :
    CostKept baseQueryCost args childComplexity ↔
      Json.elementsNullFree (args.orderBy.getD []) = true ∧
        (-100 < args.offset.getD 0 ∨
          (childComplexity = 0 ∧ (-200 < args.offset.getD 0 ∨ costless args.whereArg = true))) := by
  obtain ⟨n, hn, hfree⟩ := where_cost_isOk hwhere
  have hok := calculateOrderByComplexity_isOk horder
  cases hm : calculateOrderByComplexity args.orderBy with
  | error e =>
      rw [hm] at hok
      refine iff_of_false ?_ fun h => ?_
      · rintro ⟨cost, hcost, -⟩
        rw [getDefaultQueryComplexity, hn, hm] at hcost
        cases hcost
      · obtain ⟨m, hm⟩ := hok.mpr h.1
        cases hm
  | ok m =>
      rw [hm] at hok
      rw [and_iff_right (hok.mp ⟨m, rfl⟩)]
      have hbase : (1 : ℚ) ≤ if baseQueryCost < 1 then 1 else baseQueryCost := by
        split
        · exact le_rfl
        · linarith
      have hint : (1 : ℚ) ≤ ((calculateOffsetComplexity args.offset + 1 : Int) : ℚ) ∨
          ((calculateOffsetComplexity args.offset + 1 : Int) : ℚ) = 0 ∨
          ((calculateOffsetComplexity args.offset + 1 : Int) : ℚ) ≤ -1 := by
        norm_cast
        omega
      have hle := le_product_iff (c := childComplexity) hbase hc (Nat.cast_nonneg n)
        (le_add_of_nonneg_left (Nat.cast_nonneg m)) hint
      have hkept : CostKept baseQueryCost args childComplexity ↔
          childComplexity ≤ (if baseQueryCost < 1 then 1 else baseQueryCost) *
            ((childComplexity + n) * ((calculateOffsetComplexity args.offset + 1 : Int) : ℚ) * (m + 1)) := by
        constructor
        · rintro ⟨cost, hcost, hkeep, -⟩
          rw [cost_eq hn hm] at hcost
          cases hcost
          exact hkeep
        · intro h
          refine ⟨_, cost_eq hn hm, h, hc.trans h, fun before after => ?_⟩
          rw [operationComplexity_insert]
          exact le_add_of_nonneg_right (hc.trans h)
      obtain ⟨hone, hzero⟩ := offset_factor args.offset
      rw [hkept, hle, ← hone, ← hzero, ← hfree]
      norm_cast

end Estimate

def negativeOffset : Args :=
  { whereArg := .null
    offset := some (-100100)
    orderBy := none }

theorem negative_cost :
    getDefaultQueryComplexity 1 negativeOffset 5 = .ok (-5000) ∧
      operationComplexity [5500, -5000] = 500 ∧ ¬ CostKept 1 negativeOffset 5 := by
  have hcost : getDefaultQueryComplexity 1 negativeOffset 5 = .ok (-5000) := by decide +kernel
  refine ⟨hcost, by decide +kernel, ?_⟩
  rintro ⟨cost, h, hle, -⟩
  rw [hcost] at h
  cases h
  revert hle
  decide +kernel

theorem negativeOffset_iff :
    CostKept 1 negativeOffset 5 ↔
      Json.elementsNullFree (negativeOffset.orderBy.getD []) = true ∧
        (-100 < negativeOffset.offset.getD 0 ∨
          ((5 : ℚ) = 0 ∧ (-200 < negativeOffset.offset.getD 0 ∨ costless negativeOffset.whereArg = true))) :=
  cost_kept_iff 1 negativeOffset 5 (by norm_num) (by decide) (by decide)

end CardanoGraphql.QueryCost
