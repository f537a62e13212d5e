import Mathlib.Data.Rat.Floor
import CardanoGraphql.Fallible
import CardanoGraphql.QueryCost

namespace CardanoGraphql.SelectionCost

open QueryComplexity QueryCost

inductive Complexity
  | number (c : ℚ)
  | estimator (f : Args → ℚ → Except String ℚ)

structure ComplexityExtension where
  complexity : Option Complexity
  baseCost : Option ℚ

abbrev ComplexityMapping := List (String × ComplexityExtension)

abbrev FieldsComplexityMapping := List (String × ComplexityMapping)

inductive AggregateField
  | count
  | max
  | min
  | sum
deriving DecidableEq, Repr

structure AggregateCosts where
  count : Option ℚ
  max : Option ℚ
  min : Option ℚ
  sum : Option ℚ

def AggregateCosts.unset : AggregateCosts := ⟨none, none, none, none⟩

/-- `||`, for which 0 counts as unset. -/
def orElse (cost : Option ℚ) (c : ℚ) : ℚ := if cost.getD 0 = 0 then c else cost.getD 0

def costExtension (c : ℚ) : ComplexityExtension := ⟨some (.number c), none⟩

def aggregateFieldsCosts (pick : List AggregateField) (costs : AggregateCosts) : ComplexityMapping :=
  let defaultCosts : AggregateField → String × ComplexityExtension
    | .count => ("count", costExtension (orElse costs.count 1))
    | .max => ("max", costExtension (orElse costs.max 2))
    | .min => ("min", costExtension (orElse costs.min 2))
    | .sum => ("sum", costExtension (orElse costs.sum 2))
  if pick.isEmpty then [.count, .max, .min, .sum].map defaultCosts else pick.map defaultCosts

def base (c : ℚ) : ComplexityExtension := ⟨none, some c⟩

def defaultComplexity : FieldsComplexityMapping :=
  [("Query",
      [("activeStake_aggregate", base 2),
      ("assets_aggregate", base 2),
      ("blocks_aggregate", base 10),
      ("collateralInputs_aggregate", base 4),
      ("collateralOutputs_aggregate", base 4),
      ("delegations_aggregate", base 2),
      ("epochs_aggregate", base 2),
      ("redeemers_aggregate", base 2),
      ("rewards_aggregate", base 2),
      ("scripts_aggregate", base 2),
      ("stakeDeregistrations_aggregate", base 2),
      ("stakePools_aggregate", base 3),
      ("stakeRegistrations_aggregate", base 2),
      ("tokenMints_aggregate", base 2),
      ("transactions_aggregate", base 5),
      ("utxos_aggregate", base 4),
      ("withdrawals_aggregate", base 2)]),
    ("ActiveStake_aggregate_fields", aggregateFieldsCosts [] .unset),
    ("Asset_aggregate_fields", aggregateFieldsCosts [.count] .unset),
    ("Block_aggregate_fields", aggregateFieldsCosts [] .unset),
    ("CollateralInput_aggregate_fields", aggregateFieldsCosts [] .unset),
    ("CollateralOutput_aggregate_fields", aggregateFieldsCosts [] .unset),
    ("Delegation_aggregate_fields", aggregateFieldsCosts [.count] .unset),
    ("Epoch_aggregate_fields", aggregateFieldsCosts [] .unset),
    ("Redeemer_aggregate_fields", aggregateFieldsCosts [] .unset),
    ("Reward_aggregate_fields", aggregateFieldsCosts [] .unset),
    ("Script_aggregate_fields", aggregateFieldsCosts [] .unset),
    ("StakeDeregistration_aggregate_fields", aggregateFieldsCosts [.count] .unset),
    ("StakePool_aggregate_fields", aggregateFieldsCosts [] .unset),
    ("StakeRegistration_aggregate_fields", aggregateFieldsCosts [.count] .unset),
    ("TokenMint_aggregate_fields", aggregateFieldsCosts [] .unset),
    ("Transaction_aggregate_fields", aggregateFieldsCosts [] .unset),
    ("TransactionInput_aggregate_fields", aggregateFieldsCosts [] .unset),
    ("TransactionOutput_aggregate_fields", aggregateFieldsCosts [] .unset),
    ("Withdrawal_aggregate_fields", aggregateFieldsCosts [] .unset)]

def defaultEstimator (baseCost : Option ℚ) : Complexity :=
  .estimator (getDefaultQueryComplexity (baseCost.getD 1))

def getComplexityExtension (customFieldsComplexity : FieldsComplexityMapping) (operation queryName : String) :
    Complexity :=
  match (customFieldsComplexity.lookup operation).bind (List.lookup queryName) with
  | none => defaultEstimator none
  | some extension =>
      match extension.complexity with
      | some (.estimator f) => .estimator f
      | some (.number c) => if c = 0 then defaultEstimator extension.baseCost else .number c
      | none => defaultEstimator extension.baseCost

/-- The fields of `Query` that the schema resolves. -/
def queryFields : List String :=
  ["activeStake", "activeStake_aggregate", "ada", "assets", "assets_aggregate", "blocks", "blocks_aggregate",
    "cardano", "cardanoDbMeta", "collateralInputs", "collateralInputs_aggregate", "collateralOutputs",
    "collateralOutputs_aggregate", "committees", "committeeMembers", "committeeHashes",
    "committeeRegistration", "committeeDeRegistration", "delegations", "delegationVotes",
    "delegations_aggregate", "drepHashes", "epochs", "epochs_aggregate", "genesis", "offChainVoteData",
    "offChainVoteAuthor", "offChainVoteReference", "offChainVoteGovActionData", "offChainVoteDrepData",
    "paymentAddresses", "redeemers", "redeemers_aggregate", "rewards", "rewards_aggregate", "scripts",
    "scripts_aggregate", "stakeDeregistrations", "stakeDeregistrations_aggregate", "stakePools",
    "stakePools_aggregate", "stakeRegistrations", "stakeRegistrations_aggregate", "transactions",
    "transactions_aggregate", "tokenMints", "tokenMints_aggregate", "utxos", "utxos_aggregate", "votingAnchor",
    "withdrawals", "withdrawals_aggregate"]

def resolvedFields : List (String × List String) :=
  [("Mutation", ["submitTransaction"]), ("PaymentAddress", ["summary"]), ("Query", queryFields)]

def extensionOf (customFieldsComplexity : FieldsComplexityMapping) (parent name : String) : Option Complexity :=
  match resolvedFields.lookup parent with
  | some fields =>
      if fields.contains name then some (getComplexityExtension customFieldsComplexity parent name) else none
  | none => ((customFieldsComplexity.lookup parent).bind (List.lookup name)).bind ComplexityExtension.complexity

/-- What a document selects once `@skip` and `@include` are resolved, a field with the type
that it is of. `metaField` is one such as `__typename`, which no type declares. A fragment is
on the type it stands in, as the schema has neither interfaces nor unions. -/
inductive Selection
  | metaField
  | field (parent name : String) (args : Args) (selections : List Selection)
  | fragment (selections : List Selection)

theorem Selection.induction {P : Selection → Prop} (metaField : P .metaField)
    (field : ∀ parent name args selections, (∀ s ∈ selections, P s) → P (.field parent name args selections))
    (fragment : ∀ selections, (∀ s ∈ selections, P s) → P (.fragment selections)) (s : Selection) : P s := by
  refine @Selection.rec P (fun selections => ∀ s ∈ selections, P s) metaField field fragment ?_ ?_ s
  · intro s hs
    cases hs
  · intro s selections hs hselections
    exact List.forall_mem_cons.mpr ⟨hs, hselections⟩

structure Operation where
  name : String
  selections : List Selection

abbrev FieldExtensions := String → String → Option Complexity

/-- What the plugin takes from `graphql-query-complexity` and `graphql-js`: the estimators, the
cost of a selection and of what is selected side by side, and the choice of an operation. They
add in numbers of 64 bits. -/
structure Library where
  Double : ℚ → Prop
  add : ℚ → ℚ → ℚ
  estimate : Option Complexity → Args → ℚ → Except String ℚ
  cost : FieldExtensions → Selection → Except String ℚ
  costs : FieldExtensions → List Selection → Except String ℚ
  getComplexity : FieldExtensions → List Operation → Except String ℚ
  separateOperations : List Operation → String → List Operation

/-- What is relied on of them. A sum is rounded, but a whole one of at most 2^53 is exact; a
number is added to the cost of the children, an estimator is called with it, and a field that
has neither costs one; costs are added one after the other; a total below zero counts as zero. -/
structure Library.Documented (lib : Library) : Prop where
  zero_double : lib.Double 0
  add_double (x y : ℚ) : lib.Double (lib.add x y)
  add_zero (x : ℚ) : lib.Double x → lib.add x 0 = x
  add_mono (x x' y y' : ℚ) : x ≤ x' → y ≤ y' → lib.add x y ≤ lib.add x' y'
  add_whole (m n : ℤ) : |m + n| ≤ 2 ^ 53 → lib.add m n = ((m + n : ℤ) : ℚ)
  number (c : ℚ) (args : Args) (childComplexity : ℚ) :
    lib.estimate (some (.number c)) args childComplexity = .ok (lib.add childComplexity c)
  estimator (f : Args → ℚ → Except String ℚ) (args : Args) (childComplexity : ℚ) :
    lib.estimate (some (.estimator f)) args childComplexity = f args childComplexity
  simple (args : Args) (childComplexity : ℚ) :
    lib.estimate none args childComplexity = .ok (lib.add 1 childComplexity)
  metaField (extensionOf : FieldExtensions) : lib.cost extensionOf .metaField = .ok 0
  field (extensionOf : FieldExtensions) (parent name : String) (args : Args) (selections : List Selection) :
    lib.cost extensionOf (.field parent name args selections) =
      lib.costs extensionOf selections >>= fun childComplexity =>
        lib.estimate (extensionOf parent name) args (max childComplexity 0)
  fragment (extensionOf : FieldExtensions) (selections : List Selection) :
    lib.cost extensionOf (.fragment selections) =
      lib.costs extensionOf selections >>= fun complexity => .ok (max complexity 0)
  nothing (extensionOf : FieldExtensions) : lib.costs extensionOf [] = .ok 0
  selection (extensionOf : FieldExtensions) (before : List Selection) (s : Selection) :
    lib.costs extensionOf (before ++ [s]) =
      lib.costs extensionOf before >>= fun total =>
        lib.cost extensionOf s >>= fun c => .ok (lib.add total c)
  noOperation (extensionOf : FieldExtensions) : lib.getComplexity extensionOf [] = .ok 0
  operation (extensionOf : FieldExtensions) (before : List Operation) (operation : Operation) :
    lib.getComplexity extensionOf (before ++ [operation]) =
      lib.getComplexity extensionOf before >>= fun total =>
        lib.costs extensionOf operation.selections >>= fun c => .ok (lib.add total (max c 0))
  separated (document : List Operation) (operationName : String) :
    lib.separateOperations document operationName =
      document.filter fun operation => operation.name = operationName

section Plugin

variable (lib : Library) (customFieldsComplexity : FieldsComplexityMapping)

def query (operationName : Option String) (document : List Operation) : List Operation :=
  match operationName with
  | none => document
  | some name => if name = "" then document else lib.separateOperations document name

def queryComplexityPlugin (maximumComplexity : ℚ) (operationName : Option String) (document : List Operation) :
    Except String (Except QueryTooComplex Unit) := do
  let complexity ← lib.getComplexity (extensionOf customFieldsComplexity) (query lib operationName document)
  return didResolveOperation maximumComplexity [complexity]

def Admitted (maximumComplexity : ℚ) (operationName : Option String) (document : List Operation) : Prop :=
  queryComplexityPlugin lib customFieldsComplexity maximumComplexity operationName document = .ok (.ok ())

mutual

def charged : Selection → Nat
  | .metaField => 0
  | .field parent name _ selections =>
      (match extensionOf customFieldsComplexity parent name with
        | some (.estimator _) => 0
        | some (.number _) | none => 1) + chargedFields selections
  | .fragment selections => chargedFields selections

def chargedFields : List Selection → Nat
  | [] => 0
  | s :: rest => charged s + chargedFields rest

end

/-- No field with an estimator is asked for a hundred rows back, or more. -/
inductive OffsetsKept : Selection → Prop
  | metaField : OffsetsKept .metaField
  | field (parent name : String) (args : Args) (selections : List Selection)
      (offset : (∃ f, extensionOf customFieldsComplexity parent name = some (.estimator f)) →
        -100 < args.offset.getD 0)
      (kept : ∀ s ∈ selections, OffsetsKept s) : OffsetsKept (.field parent name args selections)
  | fragment (selections : List Selection) (kept : ∀ s ∈ selections, OffsetsKept s) :
      OffsetsKept (.fragment selections)

/-- A number is one at least, and an estimator the one of the repository. -/
structure Fair : Prop where
  number : ∀ parent name c, extensionOf customFieldsComplexity parent name = some (.number c) → 1 ≤ c
  estimator : ∀ parent name f, extensionOf customFieldsComplexity parent name = some (.estimator f) →
    ∃ baseCost, f = getDefaultQueryComplexity baseCost

end Plugin

def fairExtension (extension : ComplexityExtension) : Bool :=
  match extension.complexity with
  | some (.number c) => decide (1 ≤ c)
  | some (.estimator _) => false
  | none => true

theorem lookup_mem {α : Type} {key : String} {entries : List (String × α)} {value : α}
    (h : entries.lookup key = some value) : (key, value) ∈ entries := by
  induction entries with
  | nil => cases h
  | cons entry rest ih =>
      rw [List.lookup_cons] at h
      split at h
      next hkey =>
        obtain rfl := Option.some.inj h
        rw [beq_iff_eq] at hkey
        exact hkey ▸ List.mem_cons_self
      next => exact List.mem_cons_of_mem _ (ih h)

theorem extensionOf_fair {customFieldsComplexity : FieldsComplexityMapping}
    (h : (customFieldsComplexity.all fun m => m.2.all fun entry => fairExtension entry.2) = true)
    {parent name : String} {complexity : Complexity}
    (hextension : extensionOf customFieldsComplexity parent name = some complexity) :
    (∃ c, complexity = .number c ∧ 1 ≤ c) ∨
      ∃ baseCost, complexity = .estimator (getDefaultQueryComplexity baseCost) := by
  have hentry : ∀ parent name extension,
      (customFieldsComplexity.lookup parent).bind (List.lookup name) = some extension →
        fairExtension extension = true := by
    intro parent name extension hlookup
    obtain ⟨m, hm, hname⟩ := Option.bind_eq_some_iff.mp hlookup
    exact List.all_eq_true.mp (List.all_eq_true.mp h _ (lookup_mem hm)) _ (lookup_mem hname)
  rw [extensionOf] at hextension
  split at hextension
  next fields hfields =>
    split at hextension
    next =>
      obtain rfl := Option.some.inj hextension
      rw [getComplexityExtension]
      split
      next => exact Or.inr ⟨_, rfl⟩
      next extension hlookup =>
        have hfair := hentry _ _ _ hlookup
        rw [fairExtension] at hfair
        split
        next f hf =>
          rw [hf] at hfair
          cases hfair
        next c hc =>
          rw [hc] at hfair
          split
          next => exact Or.inr ⟨_, rfl⟩
          next => exact Or.inl ⟨c, rfl, of_decide_eq_true hfair⟩
        next => exact Or.inr ⟨_, rfl⟩
    next => cases hextension
  next =>
    obtain ⟨extension, hlookup, hcomplexity⟩ := Option.bind_eq_some_iff.mp hextension
    have hfair := hentry _ _ _ hlookup
    rw [fairExtension, hcomplexity] at hfair
    cases complexity with
    | number c => exact Or.inl ⟨c, rfl, of_decide_eq_true hfair⟩
    | estimator f => cases hfair

theorem fair_of_entries {customFieldsComplexity : FieldsComplexityMapping}
    (h : (customFieldsComplexity.all fun m => m.2.all fun entry => fairExtension entry.2) = true) :
    Fair customFieldsComplexity := by
  refine ⟨fun parent name c hc => ?_, fun parent name f hf => ?_⟩
  · rcases extensionOf_fair h hc with ⟨c', hc', hle⟩ | ⟨baseCost, hb⟩
    · obtain rfl := Complexity.number.inj hc'
      exact hle
    · cases hb
  · rcases extensionOf_fair h hf with ⟨c', hc', -⟩ | ⟨baseCost, hb⟩
    · cases hc'
    · exact ⟨baseCost, Complexity.estimator.inj hb⟩

theorem defaultComplexity_fair : Fair defaultComplexity := fair_of_entries (by decide +kernel)

theorem default_cost {baseCost : ℚ} {args : Args} {childComplexity c : ℚ}
    (h : getDefaultQueryComplexity baseCost args childComplexity = .ok c) :
    ∃ (base : ℚ) (n m : Nat), 1 ≤ base ∧
      c = base * ((childComplexity + n) * ((calculateOffsetComplexity args.offset + 1 : Int) : ℚ) * (m + 1)) ∧
      ∀ child, getDefaultQueryComplexity baseCost args child =
        .ok (base * ((child + n) * ((calculateOffsetComplexity args.offset + 1 : Int) : ℚ) * (m + 1))) := by
  cases hn : calculateWhereComplexity args.whereArg with
  | error e =>
      rw [getDefaultQueryComplexity, hn] at h
      cases h
  | ok n =>
      cases hm : calculateOrderByComplexity args.orderBy with
      | error e =>
          rw [getDefaultQueryComplexity, hn, hm] at h
          cases h
      | ok m =>
          rw [cost_eq hn hm] at h
          refine ⟨if baseCost < 1 then 1 else baseCost, n, m, ?_, (Except.ok.inj h).symm, fun child => cost_eq hn hm⟩
          split
          · exact le_rfl
          · linarith

theorem offset_kept {args : Args} (h : -100 < args.offset.getD 0) :
    (1 : ℚ) ≤ ((calculateOffsetComplexity args.offset + 1 : Int) : ℚ) := by
  exact_mod_cast (offset_factor args.offset).1.mpr h

section Sums

variable {lib : Library} {extensionOf : FieldExtensions}

def addAll (lib : Library) (extensionOf : FieldExtensions) : ℚ → List Selection → Except String ℚ
  | total, [] => .ok total
  | total, s :: rest => lib.cost extensionOf s >>= fun c => addAll lib extensionOf (lib.add total c) rest

theorem costs_append (hlib : lib.Documented) (before after : List Selection) :
    lib.costs extensionOf (before ++ after) =
      lib.costs extensionOf before >>= fun total => addAll lib extensionOf total after := by
  induction after generalizing before with
  | nil =>
      rw [List.append_nil]
      cases lib.costs extensionOf before <;> rfl
  | cons s rest ih =>
      rw [List.append_cons, ih, hlib.selection, bind_assoc]
      congr 1
      funext total
      rw [addAll, bind_assoc]
      rfl

theorem costs_double (hlib : lib.Documented) {selections : List Selection} {c : ℚ}
    (h : lib.costs extensionOf selections = .ok c) : lib.Double c := by
  rcases List.eq_nil_or_concat selections with rfl | ⟨before, s, rfl⟩
  · rw [hlib.nothing] at h
    exact Except.ok.inj h ▸ hlib.zero_double
  · rw [List.concat_eq_append, hlib.selection] at h
    obtain ⟨total, -, h⟩ := Fallible.bind_ok_iff.mp h
    obtain ⟨x, -, h⟩ := Fallible.bind_ok_iff.mp h
    exact Except.ok.inj h ▸ hlib.add_double total x

theorem le_add (hlib : lib.Documented) {x y : ℚ} (hx : lib.Double x) (hy : 0 ≤ y) : x ≤ lib.add x y := by
  calc x = lib.add x 0 := (hlib.add_zero x hx).symm
    _ ≤ lib.add x y := hlib.add_mono x x 0 y le_rfl hy

/-- The number covers a count, as far as whole numbers are exact. -/
def Covers (n : Nat) (c : ℚ) : Prop := ((min n (2 ^ 53) : Nat) : ℚ) ≤ c

theorem covers_zero {c : ℚ} (h : 0 ≤ c) : Covers 0 c := by
  rw [Covers, Nat.zero_min, Nat.cast_zero]
  exact h

theorem Covers.mono {n : Nat} {c d : ℚ} (h : Covers n c) (hle : c ≤ d) : Covers n d := le_trans h hle

theorem Covers.add (hlib : lib.Documented) {m n : Nat} {x y : ℚ} (hx : Covers m x) (hy : Covers n y) :
    Covers (m + n) (lib.add x y) := by
  obtain ⟨k, hk, hkn, hsum⟩ : ∃ k, k ≤ n ∧ k ≤ 2 ^ 53 ∧ min m (2 ^ 53) + k = min (m + n) (2 ^ 53) :=
    ⟨min (m + n) (2 ^ 53) - min m (2 ^ 53), by omega, by omega, by omega⟩
  have hwhole := hlib.add_whole ((min m (2 ^ 53) : Nat) : ℤ) (k : ℤ) (by
    rw [abs_of_nonneg (by positivity)]
    have hbound : min m (2 ^ 53) + k ≤ 2 ^ 53 := hsum ▸ Nat.min_le_right _ _
    exact_mod_cast hbound)
  have hyk : ((k : ℤ) : ℚ) ≤ y := by
    refine le_trans ?_ hy
    exact_mod_cast le_min hk hkn
  calc ((min (m + n) (2 ^ 53) : Nat) : ℚ) = ((((min m (2 ^ 53) : Nat) : ℤ) + (k : ℤ) : ℤ) : ℚ) := by
        rw [← hsum]
        push_cast
        rfl
    _ = lib.add (((min m (2 ^ 53) : Nat) : ℤ) : ℚ) ((k : ℤ) : ℚ) := hwhole.symm
    _ ≤ lib.add x y := hlib.add_mono _ _ _ _ (by exact_mod_cast hx) hyk

theorem covers_one : Covers 1 1 := by
  rw [Covers]
  norm_num

end Sums

section Bounds

variable {lib : Library} {customFieldsComplexity : FieldsComplexityMapping}

theorem estimate_covers (hlib : lib.Documented) (hfair : Fair customFieldsComplexity) {parent name : String}
    {args : Args} {n : Nat} {childComplexity c : ℚ} (hchild : 0 ≤ childComplexity) (hn : Covers n childComplexity)
    (hoffset : (∃ f, extensionOf customFieldsComplexity parent name = some (.estimator f)) →
      -100 < args.offset.getD 0)
    (h : lib.estimate (extensionOf customFieldsComplexity parent name) args childComplexity = .ok c) :
    Covers ((match extensionOf customFieldsComplexity parent name with
      | some (.estimator _) => 0
      | some (.number _) | none => 1) + n) c := by
  cases hextension : extensionOf customFieldsComplexity parent name with
  | none =>
      rw [hextension, hlib.simple] at h
      exact Except.ok.inj h ▸ covers_one.add hlib hn
  | some complexity =>
      rw [hextension] at h
      cases complexity with
      | number b =>
          have hone := covers_one.mono (hfair.number _ _ _ hextension)
          rw [hlib.number] at h
          rw [Nat.add_comm]
          exact Except.ok.inj h ▸ hn.add hlib hone
      | estimator f =>
          obtain ⟨baseCost, rfl⟩ := hfair.estimator _ _ _ hextension
          rw [hlib.estimator] at h
          obtain ⟨base, filter, order, hbase, rfl, -⟩ := default_cost h
          have hkept := offset_kept (hoffset ⟨_, hextension⟩)
          have hle := (le_product_iff hbase hchild (Nat.cast_nonneg filter)
            (le_add_of_nonneg_left (Nat.cast_nonneg order)) (Or.inl hkept)).mpr (Or.inl hkept)
          rw [Nat.zero_add]
          exact hn.mono hle

theorem chargedFields_concat (selections : List Selection) (s : Selection) :
    chargedFields customFieldsComplexity (selections ++ [s]) =
      chargedFields customFieldsComplexity selections + charged customFieldsComplexity s := by
  induction selections with
  | nil => simp [chargedFields]
  | cons t rest ih => rw [List.cons_append, chargedFields, ih, chargedFields, Nat.add_assoc]

theorem charged_costs (hlib : lib.Documented) {selections : List Selection}
    (h : ∀ s ∈ selections, ∀ c, lib.cost (extensionOf customFieldsComplexity) s = .ok c →
      Covers (charged customFieldsComplexity s) c)
    {c : ℚ} (hc : lib.costs (extensionOf customFieldsComplexity) selections = .ok c) :
    Covers (chargedFields customFieldsComplexity selections) c := by
  induction selections using List.reverseRecOn generalizing c with
  | nil =>
      rw [hlib.nothing] at hc
      exact Except.ok.inj hc ▸ covers_zero le_rfl
  | append_singleton before s ih =>
      rw [hlib.selection] at hc
      obtain ⟨x, hx, hc⟩ := Fallible.bind_ok_iff.mp hc
      obtain ⟨y, hy, hc⟩ := Fallible.bind_ok_iff.mp hc
      have hbefore := ih (fun t ht => h t (List.mem_append_left _ ht)) hx
      have hs := h s (List.mem_append_right _ List.mem_cons_self) y hy
      rw [chargedFields_concat]
      exact Except.ok.inj hc ▸ hbefore.add hlib hs

theorem charged_covered (hlib : lib.Documented) (hfair : Fair customFieldsComplexity) (s : Selection)
    (hkept : OffsetsKept customFieldsComplexity s) :
    ∀ c, lib.cost (extensionOf customFieldsComplexity) s = .ok c → Covers (charged customFieldsComplexity s) c := by
  induction s using Selection.induction with
  | metaField =>
      intro c hc
      rw [hlib.metaField] at hc
      exact Except.ok.inj hc ▸ covers_zero le_rfl
  | field parent name args selections ih =>
      intro c hc
      cases hkept with
      | field parent name args selections hoffset hselections =>
          rw [hlib.field] at hc
          obtain ⟨total, htotal, hc⟩ := Fallible.bind_ok_iff.mp hc
          have hcharged := charged_costs hlib (fun s hs => ih s hs (hselections s hs)) htotal
          rw [charged]
          exact estimate_covers hlib hfair (le_max_right total 0) (hcharged.mono (le_max_left total 0)) hoffset hc
  | fragment selections ih =>
      intro c hc
      cases hkept with
      | fragment selections hselections =>
          rw [hlib.fragment] at hc
          obtain ⟨total, htotal, hc⟩ := Fallible.bind_ok_iff.mp hc
          have hcharged := charged_costs hlib (fun s hs => ih s hs (hselections s hs)) htotal
          rw [charged]
          exact Except.ok.inj hc ▸ hcharged.mono (le_max_left total 0)

end Bounds

section Growth

/-- One selection more, at any depth. -/
inductive Grows : List Selection → List Selection → Prop
  | here (before after : List Selection) (s : Selection) : Grows (before ++ after) (before ++ s :: after)
  | field (before after : List Selection) (parent name : String) (args : Args) {xs ys : List Selection}
      (inner : Grows xs ys) :
      Grows (before ++ .field parent name args xs :: after) (before ++ .field parent name args ys :: after)
  | fragment (before after : List Selection) {xs ys : List Selection} (inner : Grows xs ys) :
      Grows (before ++ .fragment xs :: after) (before ++ .fragment ys :: after)

variable {lib : Library} {customFieldsComplexity : FieldsComplexityMapping}

theorem addAll_mono (hlib : lib.Documented) {extensionOf : FieldExtensions} {selections : List Selection}
    {x y c : ℚ} (hxy : x ≤ y) (h : addAll lib extensionOf y selections = .ok c) :
    ∃ c', addAll lib extensionOf x selections = .ok c' ∧ c' ≤ c := by
  induction selections generalizing x y with
  | nil => exact ⟨x, rfl, Except.ok.inj h ▸ hxy⟩
  | cons s rest ih =>
      rw [addAll] at h
      obtain ⟨d, hd, h⟩ := Fallible.bind_ok_iff.mp h
      obtain ⟨c', hc', hle⟩ := ih (hlib.add_mono x y d d hxy le_rfl) h
      refine ⟨c', ?_, hle⟩
      rw [addAll, hd]
      exact hc'

theorem costs_around (hlib : lib.Documented) {extensionOf : FieldExtensions} {before after : List Selection}
    {s t : Selection} {c : ℚ} (h : lib.costs extensionOf (before ++ t :: after) = .ok c)
    (hless : ∀ d, lib.cost extensionOf t = .ok d → ∃ d', lib.cost extensionOf s = .ok d' ∧ d' ≤ d) :
    ∃ c', lib.costs extensionOf (before ++ s :: after) = .ok c' ∧ c' ≤ c := by
  rw [costs_append hlib] at h ⊢
  obtain ⟨total, htotal, h⟩ := Fallible.bind_ok_iff.mp h
  rw [addAll] at h
  obtain ⟨d, hd, h⟩ := Fallible.bind_ok_iff.mp h
  obtain ⟨d', hd', hle⟩ := hless d hd
  obtain ⟨c', hc', hcle⟩ := addAll_mono hlib (hlib.add_mono total total d' d le_rfl hle) h
  refine ⟨c', ?_, hcle⟩
  rw [htotal]
  show addAll lib extensionOf total (s :: after) = .ok c'
  rw [addAll, hd']
  exact hc'

theorem estimate_mono (hlib : lib.Documented) (hfair : Fair customFieldsComplexity) {parent name : String}
    {args : Args} (hoffset : (∃ f, extensionOf customFieldsComplexity parent name = some (.estimator f)) →
      -100 < args.offset.getD 0) {x y c : ℚ} (hxy : x ≤ y)
    (h : lib.estimate (extensionOf customFieldsComplexity parent name) args y = .ok c) :
    ∃ c', lib.estimate (extensionOf customFieldsComplexity parent name) args x = .ok c' ∧ c' ≤ c := by
  cases hextension : extensionOf customFieldsComplexity parent name with
  | none =>
      rw [hextension, hlib.simple] at h
      exact ⟨_, hlib.simple args x, Except.ok.inj h ▸ hlib.add_mono 1 1 x y le_rfl hxy⟩
  | some complexity =>
      rw [hextension] at h
      cases complexity with
      | number b =>
          rw [hlib.number] at h
          exact ⟨_, hlib.number b args x, Except.ok.inj h ▸ hlib.add_mono x y b b hxy le_rfl⟩
      | estimator f =>
          obtain ⟨baseCost, rfl⟩ := hfair.estimator _ _ _ hextension
          rw [hlib.estimator] at h ⊢
          obtain ⟨base, n, m, hbase, rfl, hcost⟩ := default_cost h
          refine ⟨_, hcost x, ?_⟩
          have hkept := offset_kept (hoffset ⟨_, hextension⟩)
          gcongr

theorem cost_nonneg (hlib : lib.Documented) (hfair : Fair customFieldsComplexity) {s : Selection} {c : ℚ}
    (hkept : OffsetsKept customFieldsComplexity s)
    (h : lib.cost (extensionOf customFieldsComplexity) s = .ok c) : 0 ≤ c :=
  le_trans (Nat.cast_nonneg _) (charged_covered hlib hfair s hkept c h)

/-- No selection that is added lowers the cost, nor makes the estimate of what was there fail. -/
theorem selection_costs_grow (hlib : lib.Documented) (hfair : Fair customFieldsComplexity)
    {xs ys : List Selection} (h : Grows xs ys) (hkept : ∀ s ∈ ys, OffsetsKept customFieldsComplexity s) {c : ℚ}
    (hc : lib.costs (extensionOf customFieldsComplexity) ys = .ok c) :
    ∃ c', lib.costs (extensionOf customFieldsComplexity) xs = .ok c' ∧ c' ≤ c := by
  induction h generalizing c with
  | here before after s =>
      rw [costs_append hlib] at hc ⊢
      obtain ⟨total, htotal, hc⟩ := Fallible.bind_ok_iff.mp hc
      rw [addAll] at hc
      obtain ⟨d, hd, hc⟩ := Fallible.bind_ok_iff.mp hc
      have hnonneg := cost_nonneg hlib hfair (hkept s (List.mem_append_right _ List.mem_cons_self)) hd
      rw [htotal]
      exact addAll_mono hlib (le_add hlib (costs_double hlib htotal) hnonneg) hc
  | field before after parent name args inner ih =>
      refine costs_around hlib hc fun d hd => ?_
      have hfield := hkept _ (List.mem_append_right before List.mem_cons_self)
      cases hfield with
      | field parent name args selections hoffset hselections =>
          rw [hlib.field] at hd ⊢
          obtain ⟨total, htotal, hd⟩ := Fallible.bind_ok_iff.mp hd
          obtain ⟨total', htotal', hle⟩ := ih hselections htotal
          rw [htotal']
          exact estimate_mono hlib hfair hoffset (max_le_max_right 0 hle) hd
  | fragment before after inner ih =>
      refine costs_around hlib hc fun d hd => ?_
      have hfragment := hkept _ (List.mem_append_right before List.mem_cons_self)
      cases hfragment with
      | fragment selections hselections =>
          rw [hlib.fragment] at hd ⊢
          obtain ⟨total, htotal, hd⟩ := Fallible.bind_ok_iff.mp hd
          obtain ⟨total', htotal', hle⟩ := ih hselections htotal
          rw [htotal']
          exact ⟨max total' 0, rfl, Except.ok.inj hd ▸ max_le_max_right 0 hle⟩

end Growth

def noArgs : Args := ⟨.null, none, none⟩

def blockHashes (offset : Option Int) : Selection :=
  .field "Query" "blocks" ⟨.null, offset, none⟩ [.field "Block" "hash" noArgs []]

theorem blocks_extension : extensionOf defaultComplexity "Query" "blocks" = some (defaultEstimator none) := rfl

theorem hash_extension : extensionOf defaultComplexity "Block" "hash" = none := rfl

section Offsets

variable {lib : Library}

theorem blockHashes_cost (hlib : lib.Documented) (offset : Option Int) :
    lib.cost (extensionOf defaultComplexity) (blockHashes offset) =
      .ok ((calculateOffsetComplexity offset + 1 : Int) : ℚ) := by
  have hone : lib.add 1 0 = 1 := by simpa using hlib.add_whole 1 0 (by norm_num)
  have hsum : lib.add 0 1 = 1 := by simpa using hlib.add_whole 0 1 (by norm_num)
  have hhash : lib.cost (extensionOf defaultComplexity) (.field "Block" "hash" noArgs []) = .ok 1 := by
    rw [hlib.field, hlib.nothing, hash_extension]
    show lib.estimate none noArgs (max 0 0) = .ok 1
    rw [hlib.simple, max_self, hone]
  have hchild : lib.costs (extensionOf defaultComplexity) ([] ++ [.field "Block" "hash" noArgs []]) = .ok 1 := by
    rw [hlib.selection, hlib.nothing, hhash]
    exact congrArg Except.ok hsum
  rw [List.nil_append] at hchild
  rw [blockHashes, hlib.field, hchild, blocks_extension]
  show lib.estimate (some (defaultEstimator none)) ⟨.null, offset, none⟩ (max 1 0) = _
  rw [defaultEstimator, hlib.estimator]
  have hwhere : calculateWhereComplexity (Args.mk .null offset none).whereArg = .ok 0 := rfl
  have horder : calculateOrderByComplexity (Args.mk .null offset none).orderBy = .ok 0 := rfl
  rw [cost_eq hwhere horder]
  norm_num

theorem addAll_back (hlib : lib.Documented) {n : Nat} (hn : n ≤ 2 ^ 53) :
    addAll lib (extensionOf defaultComplexity) n (List.replicate n (blockHashes (some (-200)))) = .ok 0 := by
  induction n with
  | zero => exact congrArg Except.ok Nat.cast_zero
  | succ n ih =>
      have hback : lib.cost (extensionOf defaultComplexity) (blockHashes (some (-200))) = .ok ((-1 : ℤ) : ℚ) := by
        rw [blockHashes_cost hlib]
        norm_num [calculateOffsetComplexity]
      have hsum : lib.add ((n + 1 : Nat) : ℚ) ((-1 : ℤ) : ℚ) = (n : ℚ) := by
        have hwhole := hlib.add_whole ((n + 1 : Nat) : ℤ) (-1) (by
          rw [Nat.cast_succ, Int.add_neg_cancel_right, abs_of_nonneg (Int.natCast_nonneg n)]
          exact_mod_cast (Nat.le_of_succ_le hn))
        rw [Nat.cast_succ, Int.add_neg_cancel_right] at hwhole
        push_cast at hwhole ⊢
        exact hwhole
      rw [List.replicate_succ, addAll, hback]
      show addAll lib _ (lib.add ((n + 1 : Nat) : ℚ) ((-1 : ℤ) : ℚ)) _ = .ok 0
      rw [hsum]
      exact ih (Nat.le_of_succ_le hn)

theorem admitted_single (hlib : lib.Documented) {customFieldsComplexity : FieldsComplexityMapping}
    {selections : List Selection} {maximumComplexity c : ℚ} (hmaximum : 0 ≤ maximumComplexity)
    (hc : lib.costs (extensionOf customFieldsComplexity) selections = .ok c) (hzero : c ≤ 0) :
    Admitted lib customFieldsComplexity maximumComplexity none [⟨"", selections⟩] := by
  have hcomplexity : lib.getComplexity (extensionOf customFieldsComplexity) ([] ++ [⟨"", selections⟩]) = .ok 0 := by
    rw [hlib.operation, hlib.noOperation, hc]
    show Except.ok (lib.add 0 (max c 0)) = Except.ok 0
    rw [max_eq_right hzero, hlib.add_zero 0 hlib.zero_double]
  have hresolved : didResolveOperation maximumComplexity [0] = .ok () := by
    rw [didResolveOperation, if_neg]
    rw [operationComplexity, List.sum_singleton, not_lt]
    exact hmaximum
  rw [List.nil_append] at hcomplexity
  rw [Admitted, queryComplexityPlugin, query, hcomplexity]
  exact congrArg Except.ok hresolved

/-- With `blocks(offset: -200) { hash }` often enough every operation is admitted. -/
theorem always_admitted (hlib : lib.Documented) {maximumComplexity : ℚ} (hmaximum : 0 ≤ maximumComplexity)
    {selections : List Selection} {total : ℤ} (hbound : total ≤ 2 ^ 53)
    (htotal : lib.costs (extensionOf defaultComplexity) selections = .ok total) :
    ∃ n, Admitted lib defaultComplexity maximumComplexity none
      [⟨"", selections ++ List.replicate n (blockHashes (some (-200)))⟩] := by
  rcases le_or_gt total 0 with hle | hpos
  · refine ⟨0, admitted_single hlib hmaximum ?_ (by exact_mod_cast hle : (total : ℚ) ≤ 0)⟩
    rw [List.replicate_zero, List.append_nil]
    exact htotal
  · obtain ⟨n, rfl⟩ : ∃ n : Nat, total = n := ⟨total.toNat, (Int.toNat_of_nonneg hpos.le).symm⟩
    refine ⟨n, admitted_single hlib hmaximum ?_ le_rfl⟩
    rw [costs_append hlib, htotal]
    exact addAll_back hlib (by exact_mod_cast hbound)

end Offsets

section Exact

def exactEstimate (complexity : Option Complexity) (args : Args) (childComplexity : ℚ) : Except String ℚ :=
  match complexity with
  | some (.number c) => .ok (childComplexity + c)
  | some (.estimator f) => f args childComplexity
  | none => .ok (1 + childComplexity)

mutual

def exactCost (extensionOf : FieldExtensions) : Selection → Except String ℚ
  | .metaField => .ok 0
  | .field parent name args selections =>
      exactCosts extensionOf selections >>= fun childComplexity =>
        exactEstimate (extensionOf parent name) args (max childComplexity 0)
  | .fragment selections => exactCosts extensionOf selections >>= fun complexity => .ok (max complexity 0)

def exactCosts (extensionOf : FieldExtensions) : List Selection → Except String ℚ
  | [] => .ok 0
  | s :: rest => exactCost extensionOf s >>= fun c => exactCosts extensionOf rest >>= fun cs => .ok (c + cs)

end

def exactComplexity (extensionOf : FieldExtensions) : List Operation → Except String ℚ
  | [] => .ok 0
  | operation :: rest =>
      exactCosts extensionOf operation.selections >>= fun c =>
        exactComplexity extensionOf rest >>= fun cs => .ok (max c 0 + cs)

/-- The packages, where every number is taken to be one of 64 bits. -/
def exactLibrary : Library where
  Double := fun _ => True
  add := fun x y => x + y
  estimate := exactEstimate
  cost := exactCost
  costs := exactCosts
  getComplexity := exactComplexity
  separateOperations := fun document operationName =>
    document.filter fun operation => operation.name = operationName

theorem exactCosts_concat (extensionOf : FieldExtensions) (before : List Selection) (s : Selection) :
    exactCosts extensionOf (before ++ [s]) =
      exactCosts extensionOf before >>= fun total =>
        exactCost extensionOf s >>= fun c => .ok (total + c) := by
  induction before with
  | nil =>
      simp only [List.nil_append, exactCosts]
      cases exactCost extensionOf s with
      | error e => rfl
      | ok c => simp [bind, Except.bind]
  | cons t rest ih =>
      rw [List.cons_append, exactCosts, ih, exactCosts]
      cases exactCost extensionOf t with
      | error e => rfl
      | ok x =>
          cases exactCosts extensionOf rest with
          | error e => rfl
          | ok y =>
              cases exactCost extensionOf s with
              | error e => rfl
              | ok z => exact congrArg Except.ok (add_assoc x y z).symm

theorem exactComplexity_concat (extensionOf : FieldExtensions) (before : List Operation) (operation : Operation) :
    exactComplexity extensionOf (before ++ [operation]) =
      exactComplexity extensionOf before >>= fun total =>
        exactCosts extensionOf operation.selections >>= fun c => .ok (total + max c 0) := by
  induction before with
  | nil =>
      simp only [List.nil_append, exactComplexity]
      cases exactCosts extensionOf operation.selections with
      | error e => rfl
      | ok c => simp [bind, Except.bind]
  | cons first rest ih =>
      rw [List.cons_append, exactComplexity, ih, exactComplexity]
      cases exactCosts extensionOf first.selections with
      | error e => rfl
      | ok x =>
          cases exactComplexity extensionOf rest with
          | error e => rfl
          | ok y =>
              cases exactCosts extensionOf operation.selections with
              | error e => rfl
              | ok z => exact congrArg Except.ok (add_assoc (max x 0) y (max z 0)).symm

theorem exactLibrary_documented : exactLibrary.Documented where
  zero_double := trivial
  add_double _ _ := trivial
  add_zero x _ := Rat.add_zero x
  add_mono _ _ _ _ hx hy := add_le_add hx hy
  add_whole m n _ := (Int.cast_add m n).symm
  number _ _ _ := rfl
  estimator _ _ _ := rfl
  simple _ _ := rfl
  metaField _ := rfl
  field _ _ _ _ _ := rfl
  fragment _ _ := rfl
  nothing _ := rfl
  selection := exactCosts_concat
  noOperation _ := rfl
  operation := exactComplexity_concat
  separated _ _ := rfl

end Exact

theorem blockHashes_kept : OffsetsKept defaultComplexity (blockHashes none) := by
  refine .field _ _ _ _ (fun _ => by decide) fun t ht => ?_
  obtain rfl := List.mem_singleton.mp ht
  exact .field _ _ _ _ (fun _ => by decide) fun u hu => by cases hu

theorem blockHashes_costs : exactLibrary.costs (extensionOf defaultComplexity) [blockHashes none] = .ok 1 := by
  have hcost := blockHashes_cost exactLibrary_documented none
  rw [← List.nil_append [blockHashes none], exactLibrary_documented.selection, hcost,
    exactLibrary_documented.nothing]
  exact congrArg Except.ok (by norm_num [exactLibrary, calculateOffsetComplexity])

theorem blockHashes_grow :
    ∃ c', exactLibrary.costs (extensionOf defaultComplexity) [] = .ok c' ∧ c' ≤ 1 :=
  selection_costs_grow exactLibrary_documented defaultComplexity_fair (.here [] [] (blockHashes none))
    (fun _ hs => List.mem_singleton.mp hs ▸ blockHashes_kept) blockHashes_costs

theorem blockHashes_always_admitted :
    ∃ n, Admitted exactLibrary defaultComplexity 0 none
      [⟨"", [blockHashes none] ++ List.replicate n (blockHashes (some (-200)))⟩] :=
  always_admitted exactLibrary_documented le_rfl (by norm_num : (1 : ℤ) ≤ 2 ^ 53)
    (blockHashes_costs.trans (congrArg Except.ok Int.cast_one.symm))

end CardanoGraphql.SelectionCost
