import Mathlib.Algebra.Order.Archimedean.Basic
import CardanoGraphql.QueryCost

namespace CardanoGraphql.FilterGrowth

open QueryComplexity BoolExp QueryCost

/-- One key more in one of the objects of a value, or one element more at the end of one of
its lists. -/
inductive Grows : Json → Json → Prop
  | addKey (before after : List (String × Json)) (key : String) (value : Json)
      (fresh : key ∉ (before ++ after).map Prod.fst) :
      Grows (.obj (before ++ after)) (.obj (before ++ (key, value) :: after))
  | append (elements : List Json) (value : Json) : Grows (.arr elements) (.arr (elements ++ [value]))
  | inField (before after : List (String × Json)) (key : String) {v v' : Json} (h : Grows v v') :
      Grows (.obj (before ++ (key, v) :: after)) (.obj (before ++ (key, v') :: after))
  | inElement (before after : List Json) {v v' : Json} (h : Grows v v') :
      Grows (.arr (before ++ v :: after)) (.arr (before ++ v' :: after))

/-- The step that gives an empty object under a field a comparison with an empty list. -/
inductive EmptyListAdded : Json → Json → Prop
  | here (operator : String) (h : isListOperator operator = true) :
      EmptyListAdded (.obj []) (.obj [(operator, .arr [])])
  | inField (before after : List (String × Json)) (key : String) (hkey : isOperator key = false) {v v' : Json}
      (h : EmptyListAdded v v') : EmptyListAdded (.obj (before ++ (key, v) :: after)) (.obj (before ++ (key, v') :: after))
  | inElement (before after : List Json) {v v' : Json} (h : EmptyListAdded v v') :
      EmptyListAdded (.arr (before ++ v :: after)) (.arr (before ++ v' :: after))

section Sums

def amount (cost : Except String Nat) : Nat := cost.toOption.getD 0

def whereAmount (value : Json) : Nat := amount (calculateWhereComplexity value)

def filterAmount (value : Json) : Nat := amount (filterCost value (calculateWhereComplexity value))

def fieldAmount (f : String × Json) : Nat :=
  if f.1 = "_not" then whereAmount f.2
  else if f.1 = "_or" || f.1 = "_and" then amount (conditionsCost f.2)
  else filterAmount f.2

def isFilter (value : Json) : Bool := isComparison value || isBoolExp value

theorem where_ok {value : Json} (h : isBoolExp value = true) :
    calculateWhereComplexity value = .ok (whereAmount value) := by
  obtain ⟨n, hn, -⟩ := (where_cost value).1 h
  rw [whereAmount, hn]
  rfl

theorem conditions_ok {value : Json} (h : isConditions value = true) :
    conditionsCost value = .ok (amount (conditionsCost value)) := by
  obtain ⟨n, hn, -⟩ := (where_cost value).2 h
  rw [hn]
  rfl

theorem filter_ok {value : Json} (h : isFilter value = true) :
    filterCost value (calculateWhereComplexity value) = .ok (filterAmount value) := by
  obtain ⟨n, hn, -⟩ := filter_costs (Bool.or_eq_true _ _ ▸ h) (where_cost value).1
  rw [filterAmount, hn]
  rfl

theorem fieldCosts_eq {fields : List (String × Json)} (h : boolExpFields fields = true) :
    fieldCosts fields = .ok ((fields.map fieldAmount).sum) := by
  induction fields with
  | nil => rfl
  | cons f fields ih =>
      obtain ⟨key, value⟩ := f
      rw [boolExpFields, Bool.and_eq_true] at h
      have hhead : (if key = "_not" then calculateWhereComplexity value
          else if key = "_or" || key = "_and" then conditionsCost value
          else filterCost value (calculateWhereComplexity value)) = .ok (fieldAmount (key, value)) := by
        have hv := h.1
        rw [fieldAmount]
        by_cases hnot : key = "_not"
        · rw [if_pos hnot] at hv ⊢
          rw [if_pos hnot]
          exact where_ok hv
        · by_cases hlist : (key = "_or" || key = "_and") = true
          · rw [if_neg hnot, if_pos hlist] at hv ⊢
            rw [if_neg hnot, if_pos hlist]
            exact conditions_ok hv
          · rw [if_neg hnot, if_neg hlist] at hv ⊢
            rw [if_neg hnot, if_neg hlist]
            exact filter_ok ((Bool.and_eq_true _ _).mp hv).2
      rw [fieldCosts, hhead, ih h.2]
      rfl

theorem whereAmount_obj {fields : List (String × Json)} (h : boolExpFields fields = true) :
    whereAmount (.obj fields) = (fields.map fieldAmount).sum := by
  rw [whereAmount, calculateWhereComplexity, fieldCosts_eq h]
  rfl

theorem conditionsAmount_arr {conditions : List Json} (h : boolExps conditions = true) :
    amount (conditionsCost (.arr conditions)) = (conditions.map whereAmount).sum := by
  have hcosts : conditionCosts conditions = .ok ((conditions.map whereAmount).sum) := by
    induction conditions with
    | nil => rfl
    | cons x conditions ih =>
        rw [boolExps, Bool.and_eq_true] at h
        rw [conditionCosts, where_ok h.1, ih h.2]
        rfl
  rw [conditionsCost, hcosts]
  rfl

theorem filterAmount_comparison {operators : List (String × Json)}
    (h : isComparison (.obj operators) = true) (hne : operators ≠ []) :
    filterAmount (.obj operators) = (operators.map fun f => operationCost f.1 f.2).sum := by
  rw [filterAmount, comparison_cost h hne]
  rfl

theorem filterAmount_relation {fields : List (String × Json)} (h : boolExpFields fields = true) :
    filterAmount (.obj fields) = 1 + whereAmount (.obj fields) := by
  rw [filterAmount, filterCost, boolExpFields_no_operator h, if_neg Bool.false_ne_true,
    @where_ok (.obj fields) h]
  rfl

theorem check_append {α : Type} {check : List α → Bool} (hnil : check [] = true)
    (hcons : ∀ x xs, check (x :: xs) = (check [x] && check xs)) (before after : List α) :
    check (before ++ after) = true ↔ check before = true ∧ check after = true := by
  induction before with
  | nil => exact (and_iff_right hnil).symm
  | cons x before ih =>
      rw [List.cons_append, hcons, hcons x before, Bool.and_eq_true, Bool.and_eq_true, ih, and_assoc]

theorem boolExpFields_split {before after : List (String × Json)} :
    boolExpFields (before ++ after) = true ↔ boolExpFields before = true ∧ boolExpFields after = true := by
  apply check_append rfl
  rintro ⟨key, value⟩ fields
  rw [boolExpFields, boolExpFields, boolExpFields, Bool.and_true]

theorem boolExps_split {before after : List Json} :
    boolExps (before ++ after) = true ↔ boolExps before = true ∧ boolExps after = true := by
  apply check_append rfl
  intro x conditions
  rw [boolExps, boolExps, boolExps, Bool.and_true]

theorem sum_middle {α : Type} (f : α → Nat) (before after : List α) (x : α) :
    ((before ++ x :: after).map f).sum = f x + ((before ++ after).map f).sum := by
  rw [List.map_append, List.map_cons, List.sum_append, List.sum_cons, List.map_append, List.sum_append]
  omega

end Sums

section Steps

variable {R : Nat → Nat → Prop}

structure Steps (R : Nat → Nat → Prop) (v v' : Json) : Prop where
  filter : isBoolExp v = true → isBoolExp v' = true → R (whereAmount v) (whereAmount v')
  conditions : isConditions v = true → isConditions v' = true →
    R (amount (conditionsCost v)) (amount (conditionsCost v'))
  field : isFilter v = true → isFilter v' = true → R (filterAmount v) (filterAmount v')

theorem fieldAmount_steps (key : String) {v v' : Json} (hsteps : Steps R v v')
    (h : boolExpFields [(key, v)] = true) (h' : boolExpFields [(key, v')] = true) :
    R (fieldAmount (key, v)) (fieldAmount (key, v')) := by
  rw [boolExpFields, Bool.and_eq_true] at h h'
  have hv := h.1
  have hv' := h'.1
  rw [fieldAmount, fieldAmount]
  by_cases hnot : key = "_not"
  · rw [if_pos hnot] at hv hv'
    rw [if_pos hnot, if_pos hnot]
    exact hsteps.filter hv hv'
  · by_cases hlist : (key = "_or" || key = "_and") = true
    · rw [if_neg hnot, if_pos hlist] at hv hv'
      rw [if_neg hnot, if_pos hlist, if_neg hnot, if_pos hlist]
      exact hsteps.conditions hv hv'
    · rw [if_neg hnot, if_neg hlist, Bool.and_eq_true] at hv hv'
      rw [if_neg hnot, if_neg hlist, if_neg hnot, if_neg hlist]
      exact hsteps.field hv.2 hv'.2

theorem not_isOperator_of_boolExp {fields : List (String × Json)} (h : boolExpFields fields = true)
    {f : String × Json} (hf : f ∈ fields) : isOperator f.1 = false :=
  eq_false_of_ne_true (List.any_eq_false.mp (boolExpFields_no_operator h) f hf)

theorem isComparison_of_mem {fields : List (String × Json)} (h : isFilter (.obj fields) = true)
    {f : String × Json} (hf : f ∈ fields) (hop : isOperator f.1 = true) : isComparison (.obj fields) = true := by
  refine (Bool.or_eq_true _ _ ▸ h).resolve_right fun hbool => ?_
  have hfalse := not_isOperator_of_boolExp hbool hf
  rw [hop] at hfalse
  cases hfalse

theorem boolExpFields_of_mem {fields : List (String × Json)} (h : isFilter (.obj fields) = true)
    {f : String × Json} (hf : f ∈ fields) (hop : isOperator f.1 = false) : boolExpFields fields = true := by
  refine (Bool.or_eq_true _ _ ▸ h).resolve_left fun hcomparison => ?_
  have htrue := comparison_operator hcomparison hf
  rw [hop] at htrue
  cases htrue

theorem inField_steps (hR : ∀ m n k, R m n → R (m + k) (n + k)) (before after : List (String × Json))
    (key : String) {v v' : Json} (hsteps : isOperator key = false → Steps R v v')
    (hoperand : isOperator key = true → R (operationCost key v) (operationCost key v')) :
    Steps R (.obj (before ++ (key, v) :: after)) (.obj (before ++ (key, v') :: after)) := by
  have hmem : ∀ x, (key, x) ∈ before ++ (key, x) :: after := fun x =>
    List.mem_append_right before List.mem_cons_self
  have hfilter : isBoolExp (.obj (before ++ (key, v) :: after)) = true →
      isBoolExp (.obj (before ++ (key, v') :: after)) = true →
      R (whereAmount (.obj (before ++ (key, v) :: after))) (whereAmount (.obj (before ++ (key, v') :: after))) := by
    intro h h'
    have hone : ∀ x, boolExpFields (before ++ (key, x) :: after) = true → boolExpFields [(key, x)] = true := by
      intro x hx
      have hafter : boolExpFields ([(key, x)] ++ after) = true := (boolExpFields_split.mp hx).2
      exact (boolExpFields_split.mp hafter).1
    have hkey : isOperator key = false := not_isOperator_of_boolExp h (hmem v)
    rw [whereAmount_obj h, whereAmount_obj h', sum_middle, sum_middle]
    exact hR _ _ _ (fieldAmount_steps key (hsteps hkey) (hone v h) (hone v' h'))
  constructor
  · exact hfilter
  · intro h
    cases h
  · intro h h'
    have hne : ∀ x, before ++ (key, x) :: after ≠ [] := fun x => List.ne_nil_of_mem (hmem x)
    cases hkey : isOperator key with
    | true =>
        have hcomparison := isComparison_of_mem h (hmem v) hkey
        have hcomparison' := isComparison_of_mem h' (hmem v') hkey
        rw [filterAmount_comparison hcomparison (hne v), filterAmount_comparison hcomparison' (hne v'), sum_middle,
          sum_middle]
        exact hR _ _ _ (hoperand hkey)
    | false =>
        have hv := boolExpFields_of_mem h (hmem v) hkey
        have hv' := boolExpFields_of_mem h' (hmem v') hkey
        rw [filterAmount_relation hv, filterAmount_relation hv', Nat.add_comm 1, Nat.add_comm 1]
        exact hR _ _ _ (hfilter hv hv')

theorem inElement_steps (hR : ∀ m n k, R m n → R (m + k) (n + k)) (before after : List Json) {v v' : Json}
    (hsteps : Steps R v v') : Steps R (.arr (before ++ v :: after)) (.arr (before ++ v' :: after)) := by
  constructor
  · intro h
    cases h
  · intro h h'
    have hone : ∀ x, boolExps (before ++ x :: after) = true → isBoolExp x = true := by
      intro x hx
      have hafter := (boolExps_split.mp hx).2
      rw [boolExps, Bool.and_eq_true] at hafter
      exact hafter.1
    rw [conditionsAmount_arr h, conditionsAmount_arr h', sum_middle, sum_middle]
    exact hR _ _ _ (hsteps.filter (hone v h) (hone v' h'))
  · intro h
    cases h

theorem emptyListAdded_steps {v v' : Json} (h : EmptyListAdded v v') :
    Steps (fun m n => m = n + 1) v v' := by
  have hR : ∀ m n k : Nat, m = n + 1 → m + k = n + k + 1 := by omega
  induction h with
  | here operator hlist =>
      have hop := isOperator_of_isListOperator hlist
      have hcomparison : isComparison (.obj [(operator, .arr [])]) = true := by
        rw [isComparison, List.all_cons, hop, hlist]
        rfl
      constructor
      · intro _ h'
        have hfalse := not_isOperator_of_boolExp h' (f := (operator, .arr [])) List.mem_cons_self
        rw [hop] at hfalse
        cases hfalse
      · intro h
        cases h
      · intro _ _
        have hzero : operationCost operator (.arr []) = 0 :=
          (operationCost_eq_zero_iff hop fun _ => ⟨[], rfl⟩).mpr ⟨hlist, rfl⟩
        rw [filterAmount_comparison hcomparison (List.cons_ne_nil _ _), @filterAmount_relation [] rfl,
          List.map_singleton, List.sum_singleton, hzero]
        rfl
  | inField before after key hkey _ ih =>
      apply inField_steps hR before after key fun _ => ih
      intro htrue
      rw [hkey] at htrue
      cases htrue
  | inElement before after _ ih => exact inElement_steps hR before after ih

theorem operand_grows (operator : String) {v v' : Json} (h : Grows v v') :
    operationCost operator v ≤ operationCost operator v' := by
  rw [operationCost, operationCost]
  cases booleanOperatorsCostMapping.lookup operator with
  | none => exact Nat.le_refl 0
  | some cost =>
      dsimp only
      split
      · cases h with
        | addKey | inField => exact Nat.le_refl 0
        | append elements value =>
            dsimp only
            rw [List.length_append]
            exact Nat.mul_le_mul_left cost (Nat.le_add_right _ _)
        | inElement before after =>
            dsimp only
            rw [List.length_append, List.length_append, List.length_cons, List.length_cons]
      · exact Nat.le_refl cost

theorem addKey_steps (before after : List (String × Json)) (key : String) (value : Json)
    (h : ¬ EmptyListAdded (.obj (before ++ after)) (.obj (before ++ (key, value) :: after))) :
    Steps (· ≤ ·) (.obj (before ++ after)) (.obj (before ++ (key, value) :: after)) := by
  have hfilter : isBoolExp (.obj (before ++ after)) = true →
      isBoolExp (.obj (before ++ (key, value) :: after)) = true →
      whereAmount (.obj (before ++ after)) ≤ whereAmount (.obj (before ++ (key, value) :: after)) := by
    intro hv hv'
    rw [whereAmount_obj hv, whereAmount_obj hv', sum_middle]
    exact Nat.le_add_left _ _
  have hmem : (key, value) ∈ before ++ (key, value) :: after :=
    List.mem_append_right before List.mem_cons_self
  have hold : ∀ f ∈ before ++ after, f ∈ before ++ (key, value) :: after := by
    intro f hf
    rcases List.mem_append.mp hf with hf | hf
    · exact List.mem_append_left _ hf
    · exact List.mem_append_right before (List.mem_cons_of_mem _ hf)
  constructor
  · exact hfilter
  · intro hv
    cases hv
  · intro hv hv'
    rcases Bool.or_eq_true _ _ ▸ hv' with hcomparison | hbool
    · rw [filterAmount_comparison hcomparison (List.ne_nil_of_mem hmem), sum_middle]
      rcases List.eq_nil_or_concat' (before ++ after) with hnil | ⟨rest, last, hlast⟩
      · have hcost : operationCost key value ≠ 0 := by
          intro hzero
          obtain ⟨hlist, rfl⟩ := (operationCost_eq_zero_iff (comparison_operator hcomparison hmem)
            (comparison_operand hcomparison hmem)).mp hzero
          obtain ⟨rfl, rfl⟩ := List.append_eq_nil_iff.mp hnil
          exact h (.here key hlist)
        rw [hnil, @filterAmount_relation [] rfl]
        exact Nat.le_add_right_of_le (Nat.one_le_iff_ne_zero.mpr hcost)
      · have hlastMem : last ∈ before ++ after := by simp [hlast]
        have hop : isOperator last.1 = true := comparison_operator hcomparison (hold last hlastMem)
        rw [filterAmount_comparison (isComparison_of_mem hv hlastMem hop) (List.ne_nil_of_mem hlastMem)]
        exact Nat.le_add_left _ _
    · have hbefore : boolExpFields (before ++ after) = true := by
        obtain ⟨hb, ha⟩ := boolExpFields_split.mp hbool
        rw [boolExpFields, Bool.and_eq_true] at ha
        exact boolExpFields_split.mpr ⟨hb, ha.2⟩
      rw [filterAmount_relation hbefore, filterAmount_relation hbool]
      exact Nat.add_le_add_left (hfilter hbefore hbool) 1

theorem grows_steps {v v' : Json} (hgrows : Grows v v') (h : ¬ EmptyListAdded v v') : Steps (· ≤ ·) v v' := by
  have hR : ∀ m n k : Nat, m ≤ n → m + k ≤ n + k := fun m n k hle => Nat.add_le_add_right hle k
  induction hgrows with
  | addKey before after key value => exact addKey_steps before after key value h
  | append elements value =>
      constructor
      · intro hv
        cases hv
      · intro hv hv'
        rw [conditionsAmount_arr hv, conditionsAmount_arr hv', sum_middle, List.append_nil]
        exact Nat.le_add_left _ _
      · intro hv
        cases hv
  | inField before after key hgrows ih =>
      apply inField_steps hR before after key
      · intro hkey
        exact ih fun hadded => h (.inField before after key hkey hadded)
      · intro _
        exact operand_grows key hgrows
  | inElement before after _ ih =>
      exact inElement_steps hR before after (ih fun hadded => h (.inElement before after hadded))

theorem where_grows {w w' : Json} (hw : isBoolExp w = true) (hw' : isBoolExp w' = true) (h : Grows w w') :
    whereAmount w ≤ whereAmount w' ↔ ¬ EmptyListAdded w w' := by
  constructor
  · intro hle hadded
    have := (emptyListAdded_steps hadded).filter hw hw'
    omega
  · intro hadded
    exact (grows_steps h hadded).filter hw hw'

end Steps

section Orders

def entryAmount (value : Json) : Nat := amount (orderByEntry value)

def isOrder (orderBy : Option (List Json)) : Bool :=
  isOrderBy orderBy && Json.elementsNullFree (orderBy.getD [])

theorem orderByFields_eq {fields : List (String × Json)} (h : isOrderByFields fields = true)
    (hfree : Json.fieldsNullFree fields = true) :
    orderByFields fields = .ok ((fields.map fun f => entryAmount f.2).sum) := by
  induction fields with
  | nil => rfl
  | cons f fields ih =>
      obtain ⟨key, value⟩ := f
      rw [isOrderByFields, Bool.and_eq_true] at h
      rw [Json.fieldsNullFree, Bool.and_eq_true] at hfree
      obtain ⟨n, hn⟩ := (orderByEntry_isOk value h.1).mpr hfree.1
      have hentry : orderByEntry value = .ok (entryAmount value) := by
        rw [entryAmount, hn]
        rfl
      rw [orderByFields, hentry, ih h.2 hfree.2]
      rfl

theorem orderByFields_split {before after : List (String × Json)} :
    isOrderByFields (before ++ after) = true ↔ isOrderByFields before = true ∧ isOrderByFields after = true := by
  apply check_append rfl
  rintro ⟨key, value⟩ fields
  rw [isOrderByFields, isOrderByFields, isOrderByFields, Bool.and_true]

theorem fieldsNullFree_split {before after : List (String × Json)} :
    Json.fieldsNullFree (before ++ after) = true ↔
      Json.fieldsNullFree before = true ∧ Json.fieldsNullFree after = true := by
  apply check_append rfl
  rintro ⟨key, value⟩ fields
  rw [Json.fieldsNullFree, Json.fieldsNullFree, Json.fieldsNullFree, Bool.and_true]

theorem entryAmount_obj {fields : List (String × Json)} (h : isOrderByFields fields = true)
    (hfree : Json.fieldsNullFree fields = true) :
    entryAmount (.obj fields) = 1 + (fields.map fun f => entryAmount f.2).sum := by
  rw [entryAmount, orderByEntry, orderByFields_eq h hfree]
  rfl

theorem entry_grows {v v' : Json} (h : Grows v v') (hv : isOrderByValue v = true) (hfree : v.nullFree = true)
    (hv' : isOrderByValue v' = true) (hfree' : v'.nullFree = true) : entryAmount v ≤ entryAmount v' := by
  induction h with
  | addKey before after key value =>
      rw [isOrderByValue] at hv hv'
      rw [Json.nullFree] at hfree hfree'
      rw [entryAmount_obj hv hfree, entryAmount_obj hv' hfree', sum_middle]
      omega
  | inField before after key _ ih =>
      rw [isOrderByValue] at hv hv'
      rw [Json.nullFree] at hfree hfree'
      have hone : ∀ x, isOrderByFields (before ++ (key, x) :: after) = true →
          Json.fieldsNullFree (before ++ (key, x) :: after) = true →
          isOrderByValue x = true ∧ x.nullFree = true := by
        intro x hx hxfree
        have hshape := (orderByFields_split.mp hx).2
        have hnull := (fieldsNullFree_split.mp hxfree).2
        rw [isOrderByFields, Bool.and_eq_true] at hshape
        rw [Json.fieldsNullFree, Bool.and_eq_true] at hnull
        exact ⟨hshape.1, hnull.1⟩
      obtain ⟨hx, hxfree⟩ := hone _ hv hfree
      obtain ⟨hx', hxfree'⟩ := hone _ hv' hfree'
      have := ih hx hxfree hx' hxfree'
      rw [entryAmount_obj hv hfree, entryAmount_obj hv' hfree', sum_middle, sum_middle]
      dsimp only
      omega
  | append | inElement => cases hv

def orderFieldAmount (field : Json) : Nat := amount (calculateOrderByFieldComplexity field)

theorem orderFieldAmount_obj {fields : List (String × Json)} (h : isOrderByFields fields = true)
    (hfree : Json.fieldsNullFree fields = true) : entryAmount (.obj fields) = 1 + orderFieldAmount (.obj fields) := by
  rw [entryAmount_obj h hfree, orderFieldAmount, calculateOrderByFieldComplexity, orderByFields_eq h hfree]
  rfl

theorem isOrder_cons {field : Json} {fields : List Json} (h : isOrder (some (field :: fields)) = true) :
    (∃ entries, field = .obj entries ∧ isOrderByFields entries = true ∧ Json.fieldsNullFree entries = true) ∧
      isOrder (some fields) = true := by
  rw [isOrder, Bool.and_eq_true, isOrderBy, Option.getD_some, List.all_cons, Bool.and_eq_true,
    Json.elementsNullFree, Bool.and_eq_true] at h
  obtain ⟨⟨hfield, hfields⟩, hfree, hrest⟩ := h
  refine ⟨?_, ?_⟩
  · cases field with
    | obj entries => exact ⟨entries, rfl, hfield, hfree⟩
    | null => cases hfree
    | bool | num | str | arr => cases hfield
  · rw [isOrder, Bool.and_eq_true, isOrderBy, Option.getD_some]
    exact ⟨hfields, hrest⟩

theorem isOrder_append {before after : List Json} (h : isOrder (some (before ++ after)) = true) :
    isOrder (some after) = true := by
  induction before with
  | nil => exact h
  | cons field before ih => exact ih (isOrder_cons h).2

theorem order_eq {orderBy : Option (List Json)} (h : isOrder orderBy = true) :
    calculateOrderByComplexity orderBy = .ok (((orderBy.getD []).map orderFieldAmount).sum) := by
  cases orderBy with
  | none => rfl
  | some fields =>
      have hcosts : fields.mapM calculateOrderByFieldComplexity = .ok (fields.map orderFieldAmount) := by
        induction fields with
        | nil => rfl
        | cons field fields ih =>
            obtain ⟨⟨entries, rfl, hentries, hfree⟩, hfields⟩ := isOrder_cons h
            have hfield : calculateOrderByFieldComplexity (.obj entries) = .ok (orderFieldAmount (.obj entries)) := by
              rw [orderFieldAmount, calculateOrderByFieldComplexity, orderByFields_eq hentries hfree]
              rfl
            rw [List.mapM_cons, hfield, ih hfields]
            rfl
      rw [calculateOrderByComplexity, hcosts]
      rfl

theorem order_grows {fields fields' : List Json} (h : Grows (.arr fields) (.arr fields'))
    (hfields : isOrder (some fields) = true) (hfields' : isOrder (some fields') = true) :
    (fields.map orderFieldAmount).sum ≤ (fields'.map orderFieldAmount).sum := by
  cases h with
  | append elements value =>
      rw [sum_middle, List.append_nil]
      exact Nat.le_add_left _ _
  | inElement before after hgrows =>
      obtain ⟨⟨entries, rfl, hentries, hfree⟩, -⟩ := isOrder_cons (isOrder_append hfields)
      obtain ⟨⟨entries', rfl, hentries', hfree'⟩, -⟩ := isOrder_cons (isOrder_append hfields')
      have hle := entry_grows hgrows hentries hfree hentries' hfree'
      rw [orderFieldAmount_obj hentries hfree, orderFieldAmount_obj hentries' hfree'] at hle
      rw [sum_middle, sum_middle]
      omega

end Orders

section Estimate

def EstimateLe (estimate estimate' : Except String ℚ) : Prop :=
  ∃ cost cost', estimate = .ok cost ∧ estimate' = .ok cost' ∧ cost ≤ cost'

def ChildMonotone (baseQueryCost : ℚ) (args : Args) : Prop :=
  ∀ childComplexity childComplexity', childComplexity ≤ childComplexity' →
    EstimateLe (getDefaultQueryComplexity baseQueryCost args childComplexity)
      (getDefaultQueryComplexity baseQueryCost args childComplexity')

def OffsetMonotone (baseQueryCost : ℚ) (orderBy : Option (List Json)) (childComplexity : ℚ) : Prop :=
  ∀ whereArg, isWhere whereArg = true → ∀ offset offset' : Int, 0 ≤ offset → offset ≤ offset' →
    EstimateLe (getDefaultQueryComplexity baseQueryCost ⟨whereArg, some offset, orderBy⟩ childComplexity)
      (getDefaultQueryComplexity baseQueryCost ⟨whereArg, some offset', orderBy⟩ childComplexity)

def OrderMonotone (baseQueryCost : ℚ) (offset : Option Int) (childComplexity : ℚ) : Prop :=
  ∀ whereArg, isWhere whereArg = true → ∀ orderBy orderBy', isOrder orderBy = true → isOrder orderBy' = true →
    Grows (.arr (orderBy.getD [])) (.arr (orderBy'.getD [])) →
    EstimateLe (getDefaultQueryComplexity baseQueryCost ⟨whereArg, offset, orderBy⟩ childComplexity)
      (getDefaultQueryComplexity baseQueryCost ⟨whereArg, offset, orderBy'⟩ childComplexity)

def orderAmount (orderBy : Option (List Json)) : Nat := ((orderBy.getD []).map orderFieldAmount).sum

theorem where_arg_ok {value : Json} (h : isWhere value = true) :
    calculateWhereComplexity value = .ok (whereAmount value) := by
  obtain ⟨n, hn, -⟩ := where_cost_isOk h
  rw [whereAmount, hn]
  rfl

theorem estimateLe_iff (baseQueryCost : ℚ) {args args' : Args} {childComplexity childComplexity' : ℚ}
    (hwhere : isWhere args.whereArg = true) (hwhere' : isWhere args'.whereArg = true)
    (horder : isOrder args.orderBy = true) (horder' : isOrder args'.orderBy = true) :
    EstimateLe (getDefaultQueryComplexity baseQueryCost args childComplexity)
        (getDefaultQueryComplexity baseQueryCost args' childComplexity') ↔
      (childComplexity + whereAmount args.whereArg) *
          ((calculateOffsetComplexity args.offset + 1 : Int) : ℚ) * (orderAmount args.orderBy + 1) ≤
        (childComplexity' + whereAmount args'.whereArg) *
          ((calculateOffsetComplexity args'.offset + 1 : Int) : ℚ) * (orderAmount args'.orderBy + 1) := by
  have hbase : (0 : ℚ) < if baseQueryCost < 1 then 1 else baseQueryCost := by
    split
    · exact one_pos
    · linarith
  rw [EstimateLe, cost_eq (where_arg_ok hwhere) (order_eq horder), cost_eq (where_arg_ok hwhere') (order_eq horder')]
  constructor
  · rintro ⟨cost, cost', hcost, hcost', hle⟩
    rw [← Except.ok.inj hcost, ← Except.ok.inj hcost'] at hle
    exact le_of_mul_le_mul_left hle hbase
  · intro hle
    exact ⟨_, _, rfl, rfl, mul_le_mul_of_nonneg_left hle hbase.le⟩

theorem orderFactor_pos (orderBy : Option (List Json)) : (0 : ℚ) < orderAmount orderBy + 1 := by positivity

theorem childMonotone_iff (baseQueryCost : ℚ) {args : Args} (hwhere : isWhere args.whereArg = true)
    (horder : isOrder args.orderBy = true) :
    ChildMonotone baseQueryCost args ↔ -200 < args.offset.getD 0 := by
  have hfactor := (offset_factor args.offset).2
  have hpos := orderFactor_pos args.orderBy
  rw [← hfactor]
  constructor
  · intro h
    have hle := (estimateLe_iff baseQueryCost hwhere hwhere horder horder).mp (h 0 1 zero_le_one)
    have hscaled := le_of_mul_le_mul_right hle hpos
    have hnonneg : (0 : ℚ) ≤ ((calculateOffsetComplexity args.offset + 1 : Int) : ℚ) := by linarith
    exact_mod_cast hnonneg
  · intro h childComplexity childComplexity' hle
    have hcast : (0 : ℚ) ≤ ((calculateOffsetComplexity args.offset + 1 : Int) : ℚ) := by exact_mod_cast h
    apply (estimateLe_iff baseQueryCost hwhere hwhere horder horder).mpr
    gcongr

theorem offset_ceil (n : Int) : calculateOffsetComplexity (some n) = -(-n / 100) := by
  rw [calculateOffsetComplexity]
  split
  next h => rw [h]; rfl
  next => rfl

theorem offsetMonotone_iff (baseQueryCost : ℚ) {orderBy : Option (List Json)} (childComplexity : ℚ)
    (horder : isOrder orderBy = true) : OffsetMonotone baseQueryCost orderBy childComplexity ↔ 0 ≤ childComplexity := by
  have hpos := orderFactor_pos orderBy
  constructor
  · intro h
    have hle := (estimateLe_iff baseQueryCost rfl rfl horder horder).mp
      (h .null rfl 0 100 (by decide) (by decide))
    have hscaled := le_of_mul_le_mul_right hle hpos
    have hzero : whereAmount .null = 0 := rfl
    have hone : calculateOffsetComplexity (some 0) + 1 = 1 := by decide
    have htwo : calculateOffsetComplexity (some 100) + 1 = 2 := by decide
    simp only [hzero, hone, htwo] at hscaled
    push_cast at hscaled
    linarith
  · intro h whereArg hwhere offset offset' hoffset hle
    apply (estimateLe_iff baseQueryCost hwhere hwhere horder horder).mpr
    have hceil : calculateOffsetComplexity (some offset) + 1 ≤ calculateOffsetComplexity (some offset') + 1 := by
      rw [offset_ceil, offset_ceil]
      omega
    have hcast : ((calculateOffsetComplexity (some offset) + 1 : Int) : ℚ) ≤
        ((calculateOffsetComplexity (some offset') + 1 : Int) : ℚ) := by exact_mod_cast hceil
    dsimp only
    gcongr

def filterOfCost (n : Nat) : Json :=
  .obj [("number", .obj [("_in", .arr (List.replicate n (.num "0")))])]

theorem filterOfCost_spec (n : Nat) : isWhere (filterOfCost n) = true ∧ whereAmount (filterOfCost n) = n := by
  have hfree : Json.elementsNullFree (List.replicate n (.num "0")) = true := by
    induction n with
    | zero => rfl
    | succ n ih =>
        rw [List.replicate_succ, Json.elementsNullFree, ih]
        rfl
  have hcomparison : isComparison (.obj [("_in", .arr (List.replicate n (.num "0")))]) = true := by
    rw [isComparison, List.all_cons]
    dsimp only
    rw [hfree]
    rfl
  have hfields : boolExpFields [("number", .obj [("_in", .arr (List.replicate n (.num "0")))])] = true := by
    rw [boolExpFields, hcomparison]
    rfl
  refine ⟨hfields, ?_⟩
  rw [filterOfCost, whereAmount_obj hfields]
  have hfield : fieldAmount ("number", .obj [("_in", .arr (List.replicate n (.num "0")))]) =
      filterAmount (.obj [("_in", .arr (List.replicate n (.num "0")))]) := rfl
  rw [List.map_singleton, List.sum_singleton, hfield, filterAmount_comparison hcomparison (List.cons_ne_nil _ _),
    List.map_singleton, List.sum_singleton]
  have hcost : operationCost "_in" (.arr (List.replicate n (.num "0"))) = 1 * (List.replicate n (Json.num "0")).length :=
    rfl
  rw [hcost, List.length_replicate, Nat.one_mul]

theorem orderMonotone_iff (baseQueryCost : ℚ) (offset : Option Int) (childComplexity : ℚ) :
    OrderMonotone baseQueryCost offset childComplexity ↔
      (-200 < offset.getD 0 ∧ offset.getD 0 ≤ -100) ∨ (-100 < offset.getD 0 ∧ 0 ≤ childComplexity) := by
  obtain ⟨hone, hzero⟩ := offset_factor offset
  have hcases : ((-200 < offset.getD 0 ∧ offset.getD 0 ≤ -100) ↔ calculateOffsetComplexity offset + 1 = 0) := by
    omega
  rw [hcases, ← hone]
  constructor
  · intro h
    have hproduct : ∀ n : Nat, 0 ≤ (childComplexity + n) * ((calculateOffsetComplexity offset + 1 : Int) : ℚ) := by
      intro n
      obtain ⟨hwhere, hamount⟩ := filterOfCost_spec n
      have hasc : isOrder (some [.obj [("hash", .str "asc")]]) = true := by decide
      have hle := (estimateLe_iff baseQueryCost hwhere hwhere rfl hasc).mp
        (h (filterOfCost n) hwhere none (some [.obj [("hash", .str "asc")]]) rfl hasc (.append [] _))
      have hempty : orderAmount none = 0 := rfl
      have hentry : orderAmount (some [.obj [("hash", .str "asc")]]) = 1 := by decide
      simp only [hamount, hempty, hentry] at hle
      push_cast at hle ⊢
      linarith
    rcases lt_trichotomy (calculateOffsetComplexity offset + 1) 0 with hneg | heq | hpos
    · obtain ⟨n, hn⟩ := exists_nat_gt (-childComplexity)
      have hcast : ((calculateOffsetComplexity offset + 1 : Int) : ℚ) < 0 := by exact_mod_cast hneg
      have hsum : 0 < childComplexity + n := by linarith
      exact absurd (hproduct n) (not_le.mpr (mul_neg_of_pos_of_neg hsum hcast))
    · exact Or.inl heq
    · have hcast : (0 : ℚ) < ((calculateOffsetComplexity offset + 1 : Int) : ℚ) := by exact_mod_cast hpos
      have hchild := nonneg_of_mul_nonneg_left (hproduct 0) hcast
      rw [Nat.cast_zero, add_zero] at hchild
      exact Or.inr ⟨by omega, hchild⟩
  · intro h whereArg hwhere orderBy orderBy' horder horder' hgrows
    apply (estimateLe_iff baseQueryCost hwhere hwhere horder horder').mpr
    have hsome : ∀ o : Option (List Json), isOrder o = true → isOrder (some (o.getD [])) = true := by
      intro o ho
      cases o <;> exact ho
    have hle : orderAmount orderBy ≤ orderAmount orderBy' :=
      order_grows hgrows (hsome orderBy horder) (hsome orderBy' horder')
    dsimp only
    rcases h with heq | ⟨hpos, hchild⟩
    · rw [heq, Int.cast_zero, mul_zero, zero_mul, zero_mul]
    · have hcast : (0 : ℚ) ≤ ((calculateOffsetComplexity offset + 1 : Int) : ℚ) := by
        exact_mod_cast le_trans zero_le_one hpos
      gcongr

end Estimate

/-- A filter loses one where an empty comparison becomes one with an empty list; the
estimate is kept in order by factors that are not negative. -/
theorem costs_grow {w w' : Json} (hw : isBoolExp w = true) (hw' : isBoolExp w' = true) (hgrows : Grows w w')
    (args : Args) (hwhere : isWhere args.whereArg = true) (horder : isOrder args.orderBy = true)
    (baseQueryCost childComplexity : ℚ) :
    (∃ cost cost', calculateWhereComplexity w = .ok cost ∧ calculateWhereComplexity w' = .ok cost' ∧
      (cost ≤ cost' ↔ ¬ EmptyListAdded w w')) ∧
    (ChildMonotone baseQueryCost args ↔ -200 < args.offset.getD 0) ∧
    (OffsetMonotone baseQueryCost args.orderBy childComplexity ↔ 0 ≤ childComplexity) ∧
    (OrderMonotone baseQueryCost args.offset childComplexity ↔
      (-200 < args.offset.getD 0 ∧ args.offset.getD 0 ≤ -100) ∨
        (-100 < args.offset.getD 0 ∧ 0 ≤ childComplexity)) := by
  refine ⟨?_, ?_, ?_, ?_⟩
  · exact ⟨_, _, where_ok hw, where_ok hw', where_grows hw hw' hgrows⟩
  · exact childMonotone_iff baseQueryCost hwhere horder
  · exact offsetMonotone_iff baseQueryCost childComplexity horder
  · exact orderMonotone_iff baseQueryCost args.offset childComplexity

def emptyComparison : Json := .obj [("number", .obj [])]

def emptyListComparison : Json := .obj [("number", .obj [("_in", .arr [])])]

theorem emptyListComparison_cheaper :
    Grows emptyComparison emptyListComparison ∧ isBoolExp emptyComparison = true ∧
      isBoolExp emptyListComparison = true ∧ calculateWhereComplexity emptyComparison = .ok 1 ∧
      calculateWhereComplexity emptyListComparison = .ok 0 := by
  refine ⟨?_, by decide, by decide, by decide +kernel, by decide +kernel⟩
  exact .inField [] [] "number" (.addKey [] [] "_in" (.arr []) (by decide))

def emptyComparisonArgs : Args :=
  { whereArg := emptyComparison
    offset := none
    orderBy := none }

theorem emptyListComparison_iff :
    (∃ cost cost', calculateWhereComplexity emptyComparison = .ok cost ∧
      calculateWhereComplexity emptyListComparison = .ok cost' ∧
      (cost ≤ cost' ↔ ¬ EmptyListAdded emptyComparison emptyListComparison)) ∧
    (ChildMonotone 1 emptyComparisonArgs ↔ -200 < emptyComparisonArgs.offset.getD 0) ∧
    (OffsetMonotone 1 emptyComparisonArgs.orderBy 5 ↔ 0 ≤ (5 : ℚ)) ∧
    (OrderMonotone 1 emptyComparisonArgs.offset 5 ↔
      (-200 < emptyComparisonArgs.offset.getD 0 ∧ emptyComparisonArgs.offset.getD 0 ≤ -100) ∨
        (-100 < emptyComparisonArgs.offset.getD 0 ∧ 0 ≤ (5 : ℚ))) :=
  costs_grow (by decide) (by decide) (.inField [] [] "number" (.addKey [] [] "_in" (.arr []) (by decide)))
    emptyComparisonArgs (by decide) (by decide) 1 5

end CardanoGraphql.FilterGrowth
