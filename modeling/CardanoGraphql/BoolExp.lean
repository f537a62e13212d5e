import CardanoGraphql.QueryComplexity

namespace CardanoGraphql.BoolExp

open QueryComplexity

section Shapes

def isComparison : Json → Bool
  | .obj operators => operators.all fun f => isOperator f.1 &&
      match f.2 with
      | .null | .obj _ => false
      | .arr elements => isListOperator f.1 && Json.elementsNullFree elements
      | .bool _ | .num _ | .str _ => !isListOperator f.1
  | _ => false

mutual

/-- A null-free value of a `bool_exp` type. -/
def isBoolExp : Json → Bool
  | .obj fields => boolExpFields fields
  | _ => false

def boolExpFields : List (String × Json) → Bool
  | [] => true
  | (key, value) :: rest =>
      (if key = "_not" then isBoolExp value
        else if key = "_or" || key = "_and" then isConditions value
        else !isOperator key && (isComparison value || isBoolExp value)) && boolExpFields rest

def isConditions : Json → Bool
  | .arr conditions => boolExps conditions
  | _ => false

def boolExps : List Json → Bool
  | [] => true
  | condition :: rest => isBoolExp condition && boolExps rest

end

def isWhere (value : Json) : Bool :=
  match value with
  | .null => true
  | value => isBoolExp value

def costlessComparison : Json → Bool
  | .obj operators => !operators.isEmpty && operators.all fun f => isListOperator f.1 &&
      match f.2 with
      | .arr [] => true
      | _ => false
  | _ => false

mutual

/-- A filter of nothing but logical operators around comparisons with empty lists. -/
def costless : Json → Bool
  | .obj fields => costlessFields fields
  | _ => true

def costlessFields : List (String × Json) → Bool
  | [] => true
  | (key, value) :: rest =>
      (if key = "_not" then costless value
        else if key = "_or" || key = "_and" then costlessConditions value
        else costlessComparison value) && costlessFields rest

def costlessConditions : Json → Bool
  | .arr conditions => costlessAll conditions
  | _ => true

def costlessAll : List Json → Bool
  | [] => true
  | condition :: rest => costless condition && costlessAll rest

end

end Shapes

section Filters

theorem boolExpFields_no_operator {fields : List (String × Json)} (h : boolExpFields fields = true) :
    (fields.any fun f => isOperator f.1) = false := by
  induction fields with
  | nil => rfl
  | cons f fields ih =>
      obtain ⟨key, value⟩ := f
      rw [boolExpFields, Bool.and_eq_true] at h
      rw [List.any_cons, ih h.2, Bool.or_false]
      by_cases hnot : key = "_not"
      · rw [hnot]
        exact (by decide : isOperator "_not" = false)
      · by_cases hlist : (key = "_or" || key = "_and") = true
        · rcases Bool.or_eq_true _ _ ▸ hlist with hk | hk
          · rw [of_decide_eq_true hk]
            exact (by decide : isOperator "_or" = false)
          · rw [of_decide_eq_true hk]
            exact (by decide : isOperator "_and" = false)
        · have hkey := h.1
          rw [if_neg hnot, if_neg hlist, Bool.and_eq_true] at hkey
          simpa using hkey.1

theorem comparison_cost {operators : List (String × Json)} (h : isComparison (.obj operators) = true)
    (hne : operators ≠ []) (nested : Except String Nat) :
    filterCost (.obj operators) nested = .ok ((operators.map fun f => operationCost f.1 f.2).sum) := by
  have hany : (operators.any fun f => isOperator f.1) = true := by
    obtain ⟨f, hf⟩ := List.exists_mem_of_ne_nil _ hne
    have hall := List.all_eq_true.mp h f hf
    rw [Bool.and_eq_true] at hall
    exact List.any_eq_true.mpr ⟨f, hf, hall.1⟩
  rw [filterCost, if_pos hany]

theorem operationCost_eq_zero_iff {operator : String} {value : Json} (hop : isOperator operator = true)
    (hv : isListOperator operator = true → ∃ elements, value = .arr elements) :
    operationCost operator value = 0 ↔ isListOperator operator = true ∧ value = .arr [] := by
  have hcost : ∃ cost, booleanOperatorsCostMapping.lookup operator = some cost ∧ cost ≠ 0 := by
    have hall : ∀ entry ∈ booleanOperatorsCostMapping,
        ∃ cost, booleanOperatorsCostMapping.lookup entry.1 = some cost ∧ cost ≠ 0 := by
      intro entry he
      simp only [booleanOperatorsCostMapping, List.mem_cons, List.not_mem_nil, or_false] at he
      rcases he with rfl | rfl | rfl | rfl | rfl | rfl | rfl | rfl | rfl | rfl | rfl | rfl | rfl | rfl | rfl <;>
        exact ⟨_, rfl, by decide⟩
    obtain ⟨entry, he, hname⟩ := List.any_eq_true.mp hop
    rw [← of_decide_eq_true hname]
    exact hall entry he
  obtain ⟨cost, hlookup, hpos⟩ := hcost
  rw [operationCost, hlookup]
  cases hl : isListOperator operator with
  | false => simp [hpos]
  | true =>
      obtain ⟨elements, rfl⟩ := hv hl
      simp [hpos]

theorem isOperator_of_isListOperator {operator : String} (h : isListOperator operator = true) :
    isOperator operator = true := by
  rcases Bool.or_eq_true _ _ ▸ h with h | h
  · rw [of_decide_eq_true h]
    decide
  · rw [of_decide_eq_true h]
    decide

theorem comparison_operator {operators : List (String × Json)} (h : isComparison (.obj operators) = true)
    {f : String × Json} (hf : f ∈ operators) : isOperator f.1 = true := by
  have hone := List.all_eq_true.mp h f hf
  rw [Bool.and_eq_true] at hone
  exact hone.1

theorem comparison_operand {operators : List (String × Json)} (h : isComparison (.obj operators) = true)
    {f : String × Json} (hf : f ∈ operators) (hl : isListOperator f.1 = true) :
    ∃ elements, f.2 = .arr elements := by
  have hone := List.all_eq_true.mp h f hf
  rw [Bool.and_eq_true] at hone
  rcases hv : f.2 with _ | _ | _ | _ | elements | _
  case arr => exact ⟨elements, rfl⟩
  all_goals simp [hv, hl] at hone

theorem comparison_costless {operators : List (String × Json)} (h : isComparison (.obj operators) = true)
    (hne : operators ≠ []) :
    (operators.map fun f => operationCost f.1 f.2).sum = 0 ↔ costlessComparison (.obj operators) = true := by
  have hone : ∀ f ∈ operators, operationCost f.1 f.2 = 0 ↔ (isListOperator f.1 &&
      match f.2 with
      | .arr [] => true
      | _ => false) = true := by
    intro f hf
    have harr := comparison_operand h hf
    rw [operationCost_eq_zero_iff (comparison_operator h hf) harr, Bool.and_eq_true]
    refine and_congr_right fun hl => ?_
    obtain ⟨elements, he⟩ := harr hl
    rw [he]
    cases elements <;> simp
  have hemp : operators.isEmpty = false := by simpa using hne
  rw [List.sum_eq_zero_iff_forall_eq_nat, costlessComparison, hemp, Bool.not_false, Bool.true_and, List.all_eq_true]
  constructor
  · intro hz f hf
    exact (hone f hf).mp (hz _ (List.mem_map_of_mem hf))
  · intro hc n hn
    obtain ⟨f, hf, rfl⟩ := List.mem_map.mp hn
    exact (hone f hf).mpr (hc f hf)

def Costs (cost : Except String Nat) (free : Bool) : Prop := ∃ n, cost = .ok n ∧ (n = 0 ↔ free = true)

theorem filter_costs {value : Json} (h : isComparison value = true ∨ isBoolExp value = true)
    (hnested : isBoolExp value = true → Costs (calculateWhereComplexity value) (costless value)) :
    Costs (filterCost value (calculateWhereComplexity value)) (costlessComparison value) := by
  have hrelation : isBoolExp value = true →
      Costs (filterCost value (calculateWhereComplexity value)) (costlessComparison value) := by
    intro hb
    obtain ⟨n, hn, -⟩ := hnested hb
    cases value with
    | obj fields =>
        have hno := boolExpFields_no_operator hb
        refine ⟨1 + n, by rw [filterCost, hno, hn]; rfl, ?_⟩
        refine iff_of_false (by omega) fun hc => ?_
        rw [costlessComparison, Bool.and_eq_true, List.all_eq_true] at hc
        obtain ⟨f, hf⟩ := List.exists_mem_of_ne_nil fields (by simpa using hc.1)
        have hl := hc.2 f hf
        rw [Bool.and_eq_true] at hl
        have := List.any_eq_false.mp hno f hf
        exact this (isOperator_of_isListOperator hl.1)
    | null | bool | num | str | arr => cases hb
  rcases h with h | h
  · cases value with
    | obj operators =>
        by_cases hne : operators = []
        · subst hne
          exact hrelation rfl
        · exact ⟨_, comparison_cost h hne _, comparison_costless h hne⟩
    | null | bool | num | str | arr => cases h
  · exact hrelation h

theorem costs_plus {a b : Except String Nat} {x y : Bool} (ha : Costs a x) (hb : Costs b y) :
    Costs (plus a b) (x && y) := by
  obtain ⟨m, rfl, hm⟩ := ha
  obtain ⟨n, rfl, hn⟩ := hb
  refine ⟨m + n, rfl, ?_⟩
  rw [Bool.and_eq_true, ← hm, ← hn]
  omega

theorem conditions_cost {conditions : List Json}
    (ih : ∀ x ∈ conditions, isBoolExp x = true → Costs (calculateWhereComplexity x) (costless x))
    (h : boolExps conditions = true) : Costs (conditionCosts conditions) (costlessAll conditions) := by
  induction conditions with
  | nil => exact ⟨0, rfl, by simp [costlessAll]⟩
  | cons x conditions ihl =>
      rw [boolExps, Bool.and_eq_true] at h
      obtain ⟨hx, hxs⟩ := List.forall_mem_cons.mp ih
      rw [conditionCosts, costlessAll]
      exact costs_plus (hx h.1) (ihl hxs h.2)

theorem fields_cost {fields : List (String × Json)}
    (ih : ∀ f ∈ fields, (isBoolExp f.2 = true → Costs (calculateWhereComplexity f.2) (costless f.2)) ∧
      (isConditions f.2 = true → Costs (conditionsCost f.2) (costlessConditions f.2)))
    (h : boolExpFields fields = true) : Costs (fieldCosts fields) (costlessFields fields) := by
  induction fields with
  | nil => exact ⟨0, rfl, by simp [costlessFields]⟩
  | cons f fields ihl =>
      obtain ⟨key, value⟩ := f
      rw [boolExpFields, Bool.and_eq_true] at h
      obtain ⟨⟨hfilter, hconditions⟩, hrest⟩ := List.forall_mem_cons.mp ih
      rw [fieldCosts, costlessFields]
      refine costs_plus ?_ (ihl hrest h.2)
      have hv := h.1
      by_cases hnot : key = "_not"
      · rw [if_pos hnot] at hv ⊢
        rw [if_pos hnot]
        exact hfilter hv
      · by_cases hlist : (key = "_or" || key = "_and") = true
        · rw [if_neg hnot, if_pos hlist] at hv ⊢
          rw [if_neg hnot, if_pos hlist]
          exact hconditions hv
        · rw [if_neg hnot, if_neg hlist] at hv ⊢
          rw [if_neg hnot, if_neg hlist]
          rw [Bool.and_eq_true, Bool.or_eq_true] at hv
          exact filter_costs hv.2 hfilter

/-- The cost of a filter is always a number, and which filters cost nothing. -/
theorem where_cost (value : Json) :
    (isBoolExp value = true → Costs (calculateWhereComplexity value) (costless value)) ∧
      (isConditions value = true → Costs (conditionsCost value) (costlessConditions value)) := by
  induction value using Json.induction with
  | null => exact ⟨nofun, nofun⟩
  | bool b => exact ⟨nofun, nofun⟩
  | num text => exact ⟨nofun, nofun⟩
  | str s => exact ⟨nofun, nofun⟩
  | arr elements ih =>
      refine ⟨nofun, fun h => ?_⟩
      exact conditions_cost (fun x hx => (ih x hx).1) h
  | obj fields ih =>
      refine ⟨fun h => ?_, nofun⟩
      exact fields_cost ih h

end Filters

end CardanoGraphql.BoolExp
