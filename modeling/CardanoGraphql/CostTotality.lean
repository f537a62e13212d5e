import CardanoGraphql.QueryCost

namespace CardanoGraphql.CostTotality

open QueryComplexity BoolExp QueryCost

section Shapes

def isNullableComparison : Json → Bool
  | .obj operators => operators.all fun f => isOperator f.1 &&
      match f.2 with
      | .null => true
      | .obj _ => false
      | .arr _ => isListOperator f.1
      | .bool _ | .num _ | .str _ => !isListOperator f.1
  | _ => false

mutual

/-- A value of a nullable `bool_exp` type, with nulls wherever the schema has them. -/
def isNullableBoolExp : Json → Bool
  | .null => true
  | .obj fields => nullableFields fields
  | _ => false

def nullableFields : List (String × Json) → Bool
  | [] => true
  | (key, value) :: rest =>
      (if key = "_not" then isNullableBoolExp value
        else if key = "_or" || key = "_and" then isNullableConditions value
        else !isOperator key && (isNullableComparison value || isNullableBoolExp value)) && nullableFields rest

def isNullableConditions : Json → Bool
  | .null => true
  | .arr conditions => nullableBoolExps conditions
  | _ => false

def nullableBoolExps : List Json → Bool
  | [] => true
  | condition :: rest => isNullableBoolExp condition && nullableBoolExps rest

end

def fieldGuarded (value : Json) (nested : Bool) : Bool :=
  match value with
  | .null => false
  | .obj operators => (operators.any fun f => isOperator f.1) || nested
  | _ => nested

mutual

def guarded : Json → Bool
  | .obj fields => guardedFields fields
  | _ => true

def guardedFields : List (String × Json) → Bool
  | [] => true
  | (key, value) :: rest =>
      (if key = "_not" then guarded value
        else if key = "_or" || key = "_and" then guardedConditions value
        else fieldGuarded value (guarded value)) && guardedFields rest

def guardedConditions : Json → Bool
  | .null => false
  | .arr conditions => allGuarded conditions
  | _ => true

def allGuarded : List Json → Bool
  | [] => true
  | condition :: rest => guarded condition && allGuarded rest

end

end Shapes

section Filters

theorem filter_isOk {value : Json} (h : isNullableComparison value = true ∨ isNullableBoolExp value = true)
    (hnested : isNullableBoolExp value = true →
      (IsOk (calculateWhereComplexity value) ↔ guarded value = true)) :
    IsOk (filterCost value (calculateWhereComplexity value)) ↔ fieldGuarded value (guarded value) = true := by
  cases value with
  | null =>
      refine iff_of_false ?_ Bool.false_ne_true
      rintro ⟨n, hn⟩
      cases hn
  | obj operators =>
      cases hany : operators.any fun f => isOperator f.1 with
      | true =>
          rw [filterCost, if_pos hany, fieldGuarded, hany, Bool.true_or]
          exact iff_of_true ⟨_, rfl⟩ rfl
      | false =>
          have hbool : isNullableBoolExp (.obj operators) = true := by
            rcases h with hcomparison | hbool
            · cases operators with
              | nil => rfl
              | cons f operators =>
                  have hf := List.all_eq_true.mp hcomparison f List.mem_cons_self
                  rw [Bool.and_eq_true] at hf
                  exact absurd hf.1 (List.any_eq_false.mp hany f List.mem_cons_self)
            · exact hbool
          rw [filterCost, hany, fieldGuarded, hany, Bool.false_or, if_neg Bool.false_ne_true, isOk_map]
          exact hnested hbool
  | bool | num | str | arr => rcases h with h | h <;> cases h

theorem nullableConditions_isOk {conditions : List Json}
    (ih : ∀ x ∈ conditions, isNullableBoolExp x = true →
      (IsOk (calculateWhereComplexity x) ↔ guarded x = true))
    (h : nullableBoolExps conditions = true) :
    IsOk (conditionCosts conditions) ↔ allGuarded conditions = true := by
  induction conditions with
  | nil => exact iff_of_true ⟨0, rfl⟩ rfl
  | cons x conditions ihl =>
      rw [nullableBoolExps, Bool.and_eq_true] at h
      obtain ⟨hx, hxs⟩ := List.forall_mem_cons.mp ih
      rw [conditionCosts, isOk_plus, hx h.1, ihl hxs h.2, allGuarded, Bool.and_eq_true]

theorem nullableFields_isOk {fields : List (String × Json)}
    (ih : ∀ f ∈ fields,
      (isNullableBoolExp f.2 = true → (IsOk (calculateWhereComplexity f.2) ↔ guarded f.2 = true)) ∧
        (isNullableConditions f.2 = true → (IsOk (conditionsCost f.2) ↔ guardedConditions f.2 = true)))
    (h : nullableFields fields = true) : IsOk (fieldCosts fields) ↔ guardedFields fields = true := by
  induction fields with
  | nil => exact iff_of_true ⟨0, rfl⟩ rfl
  | cons f fields ihl =>
      obtain ⟨key, value⟩ := f
      rw [nullableFields, Bool.and_eq_true] at h
      obtain ⟨⟨hfilter, hconditions⟩, hrest⟩ := List.forall_mem_cons.mp ih
      rw [fieldCosts, isOk_plus, ihl hrest h.2, guardedFields, Bool.and_eq_true]
      refine and_congr_left fun _ => ?_
      have hv := h.1
      by_cases hnot : key = "_not"
      · rw [if_pos hnot] at hv
        rw [if_pos hnot, if_pos hnot]
        exact hfilter hv
      · by_cases hlist : (key = "_or" || key = "_and") = true
        · rw [if_neg hnot, if_pos hlist] at hv
          rw [if_neg hnot, if_pos hlist, if_neg hnot, if_pos hlist]
          exact hconditions hv
        · rw [if_neg hnot, if_neg hlist, Bool.and_eq_true, Bool.or_eq_true] at hv
          rw [if_neg hnot, if_neg hlist, if_neg hnot, if_neg hlist]
          exact filter_isOk hv.2 hfilter

theorem where_isOk (value : Json) :
    (isNullableBoolExp value = true → (IsOk (calculateWhereComplexity value) ↔ guarded value = true)) ∧
      (isNullableConditions value = true → (IsOk (conditionsCost value) ↔ guardedConditions value = true)) := by
  induction value using Json.induction with
  | null =>
      refine ⟨fun _ => iff_of_true ⟨0, rfl⟩ rfl, fun _ => iff_of_false ?_ Bool.false_ne_true⟩
      rintro ⟨n, hn⟩
      cases hn
  | bool | num | str =>
      constructor
      · intro h
        cases h
      · intro h
        cases h
  | arr elements ih =>
      constructor
      · intro h
        cases h
      · exact nullableConditions_isOk fun x hx => (ih x hx).1
  | obj fields ih =>
      constructor
      · exact nullableFields_isOk ih
      · intro h
        cases h

end Filters

theorem cost_isOk_iff (baseQueryCost : ℚ) (args : Args) (childComplexity : ℚ) :
    (∃ cost, getDefaultQueryComplexity baseQueryCost args childComplexity = .ok cost) ↔
      IsOk (calculateWhereComplexity args.whereArg) ∧ IsOk (calculateOrderByComplexity args.orderBy) := by
  constructor
  · rintro ⟨cost, hcost⟩
    rw [getDefaultQueryComplexity] at hcost
    cases hn : calculateWhereComplexity args.whereArg with
    | error e =>
        rw [hn] at hcost
        cases hcost
    | ok n =>
        cases hm : calculateOrderByComplexity args.orderBy with
        | error e =>
            rw [hn, hm] at hcost
            cases hcost
        | ok m => exact ⟨⟨n, rfl⟩, ⟨m, rfl⟩⟩
  · rintro ⟨⟨n, hn⟩, ⟨m, hm⟩⟩
    exact ⟨_, cost_eq hn hm⟩

/-- Where a null throws: under `_and`, `_or` and a field of the filter, and in the order. -/
theorem cost_total_iff (baseQueryCost : ℚ) (args : Args) (childComplexity : ℚ)
    (hwhere : isNullableBoolExp args.whereArg = true) (horder : isOrderBy args.orderBy = true) :
    (∃ cost, getDefaultQueryComplexity baseQueryCost args childComplexity = .ok cost) ↔
      guarded args.whereArg = true ∧ Json.elementsNullFree (args.orderBy.getD []) = true := by
  rw [cost_isOk_iff, (where_isOk args.whereArg).1 hwhere, calculateOrderByComplexity_isOk horder]

def nullConditions : Args :=
  { whereArg := .obj [("_and", .null)]
    offset := none
    orderBy := none }

theorem nullConditions_throws :
    isNullableBoolExp nullConditions.whereArg = true ∧ isOrderBy nullConditions.orderBy = true ∧
      getDefaultQueryComplexity 1 nullConditions 5 =
        .error "Cannot convert undefined or null to object" := by
  decide +kernel

theorem nullConditions_iff :
    (∃ cost, getDefaultQueryComplexity 1 nullConditions 5 = .ok cost) ↔
      guarded nullConditions.whereArg = true ∧
        Json.elementsNullFree (nullConditions.orderBy.getD []) = true :=
  cost_total_iff 1 nullConditions 5 (by decide) (by decide)

end CardanoGraphql.CostTotality
