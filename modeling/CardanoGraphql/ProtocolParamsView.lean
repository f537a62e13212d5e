import CardanoGraphql.Json
import CardanoGraphql.SqlJoin

namespace CardanoGraphql.ProtocolParamsView

open SqlJoin

structure EpochParamRecord where
  epochNo : Nat
  minFeeA : Nat
  minFeeB : Nat
  maxBlockSize : Nat
  maxTxSize : Nat
  maxBhSize : Nat
  keyDeposit : Nat
  poolDeposit : Nat
  maxEpoch : Nat
  optimalPoolCount : Nat
  influence : Rat
  monetaryExpandRate : Rat
  treasuryGrowthRate : Rat
  decentralisation : Rat
  protocolMajor : Nat
  protocolMinor : Nat
  minUtxoValue : Nat
  minPoolCost : Nat
  costModelId : Option Nat
  priceMem : Option Rat
  priceStep : Option Rat
  maxTxExMem : Option Nat
  maxTxExSteps : Option Nat
  maxBlockExMem : Option Nat
  maxBlockExSteps : Option Nat
  maxValSize : Option Nat
  collateralPercent : Option Nat
  maxCollateralInputs : Option Nat
  extraEntropy : Option String
  coinsPerUtxoSize : Option Nat
deriving DecidableEq, Repr

structure CostModelRecord where
  id : Nat
  costs : Json

structure ParamTables where
  epochParam : List EpochParamRecord
  costModel : List CostModelRecord
  modelIds : (costModel.map (·.id)).Nodup

structure ProtocolVersion where
  major : Nat
  minor : Nat
deriving DecidableEq, Repr

structure ProtocolParams where
  a0 : Rat
  coinsPerUtxoByte : Option Nat
  collateralPercent : Option Nat
  costModels : Option Json
  decentralisationParam : Rat
  maxCollateralInputs : Option Nat
  eMax : Nat
  epochNo : Nat
  extraEntropy : Option String
  keyDeposit : Nat
  maxBlockBodySize : Nat
  maxBlockExMem : Option Nat
  maxBlockExSteps : Option Nat
  maxBlockHeaderSize : Nat
  maxTxExMem : Option Nat
  maxTxExSteps : Option Nat
  maxTxSize : Nat
  maxValSize : Option Nat
  minFeeA : Nat
  minFeeB : Nat
  minPoolCost : Nat
  minUTxOValue : Nat
  nOpt : Nat
  poolDeposit : Nat
  priceMem : Option Rat
  priceStep : Option Rat
  protocolVersion : ProtocolVersion
  rho : Rat
  tau : Rat

def selected (epochParam : EpochParamRecord) (costModel : CostModelRecord) : ProtocolParams :=
  { a0 := epochParam.influence
    coinsPerUtxoByte := epochParam.coinsPerUtxoSize
    collateralPercent := epochParam.collateralPercent
    costModels := some costModel.costs
    decentralisationParam := epochParam.decentralisation
    maxCollateralInputs := epochParam.maxCollateralInputs
    eMax := epochParam.maxEpoch
    epochNo := epochParam.epochNo
    extraEntropy := epochParam.extraEntropy
    keyDeposit := epochParam.keyDeposit
    maxBlockBodySize := epochParam.maxBlockSize
    maxBlockExMem := epochParam.maxBlockExMem
    maxBlockExSteps := epochParam.maxBlockExSteps
    maxBlockHeaderSize := epochParam.maxBhSize
    maxTxExMem := epochParam.maxTxExMem
    maxTxExSteps := epochParam.maxTxExSteps
    maxTxSize := epochParam.maxTxSize
    maxValSize := epochParam.maxValSize
    minFeeA := epochParam.minFeeA
    minFeeB := epochParam.minFeeB
    minPoolCost := epochParam.minPoolCost
    minUTxOValue := epochParam.minUtxoValue
    nOpt := epochParam.optimalPoolCount
    poolDeposit := epochParam.poolDeposit
    priceMem := epochParam.priceMem
    priceStep := epochParam.priceStep
    protocolVersion := { major := epochParam.protocolMajor, minor := epochParam.protocolMajor }
    rho := epochParam.monetaryExpandRate
    tau := epochParam.treasuryGrowthRate }

variable (db : ParamTables)

def references (e : EpochParamRecord) (m : CostModelRecord) : Bool := decide (e.costModelId = some m.id)

def protocolParams : List ProtocolParams :=
  (innerJoin references db.epochParam db.costModel).map fun p => selected p.1 p.2

def referencedCosts (e : EpochParamRecord) : Option Json :=
  (db.costModel.find? (references e)).map (·.costs)

def published (e : EpochParamRecord) : ProtocolParams :=
  { minFeeA := e.minFeeA
    minFeeB := e.minFeeB
    maxBlockBodySize := e.maxBlockSize
    maxTxSize := e.maxTxSize
    maxBlockHeaderSize := e.maxBhSize
    keyDeposit := e.keyDeposit
    poolDeposit := e.poolDeposit
    eMax := e.maxEpoch
    nOpt := e.optimalPoolCount
    a0 := e.influence
    rho := e.monetaryExpandRate
    tau := e.treasuryGrowthRate
    decentralisationParam := e.decentralisation
    extraEntropy := e.extraEntropy
    protocolVersion := ⟨e.protocolMajor, e.protocolMinor⟩
    minUTxOValue := e.minUtxoValue
    minPoolCost := e.minPoolCost
    costModels := referencedCosts db e
    priceMem := e.priceMem
    priceStep := e.priceStep
    maxTxExMem := e.maxTxExMem
    maxTxExSteps := e.maxTxExSteps
    maxBlockExMem := e.maxBlockExMem
    maxBlockExSteps := e.maxBlockExSteps
    maxValSize := e.maxValSize
    collateralPercent := e.collateralPercent
    maxCollateralInputs := e.maxCollateralInputs
    coinsPerUtxoByte := e.coinsPerUtxoSize
    epochNo := e.epochNo }

/-- One row for each set of parameters, with nothing lost of it. -/
def Lossless : Prop := (protocolParams db).Perm (db.epochParam.map (published db))

/-- The version that the view shows of a row, which takes the major one twice. -/
def shown (e : EpochParamRecord) : ProtocolParams :=
  { published db e with protocolVersion := ⟨e.protocolMajor, e.protocolMajor⟩ }

theorem references_iff (e : EpochParamRecord) (m : CostModelRecord) :
    references e m = true ↔ e.costModelId = some m.id := decide_eq_true_iff

theorem references_countP (e : EpochParamRecord) : db.costModel.countP (references e) ≤ 1 := by
  cases h : e.costModelId with
  | none =>
      have hzero : db.costModel.countP (references e) = 0 := by
        rw [List.countP_eq_zero]
        intro m _
        simp [references, h]
      omega
  | some k =>
      refine Nat.le_trans (Nat.le_of_eq ?_) (countP_key_symm db.modelIds k)
      apply List.countP_congr
      intro m _
      simp [references, h]

theorem find?_of_references {e : EpochParamRecord} {m : CostModelRecord} (hm : m ∈ db.costModel)
    (h : references e m = true) : db.costModel.find? (references e) = some m := by
  apply find?_of_unique hm h
  intro m' hm' href
  have hkey : some m'.id = some m.id := by
    rw [← (references_iff e m').mp href, (references_iff e m).mp h]
  exact eq_of_key db.modelIds hm' hm (Option.some.inj hkey)

theorem selected_eq_shown {p : EpochParamRecord × CostModelRecord}
    (h : p ∈ innerJoin references db.epochParam db.costModel) : selected p.1 p.2 = shown db p.1 := by
  obtain ⟨-, hm, href⟩ := (mem_innerJoin references _ _ p.1 p.2).mp h
  have hcosts : referencedCosts db p.1 = some p.2.costs := by
    rw [referencedCosts, find?_of_references db hm href, Option.map_some]
  rw [shown, published, hcosts, selected]

theorem protocolParams_eq : protocolParams db =
    (db.epochParam.filter fun e => db.costModel.any (references e)).map (shown db) := by
  rw [← map_fst_innerJoin (fun e _ => references_countP db e), List.map_map, protocolParams]
  apply List.map_congr_left
  intro p hp
  exact selected_eq_shown db hp

theorem shown_eq_published {e : EpochParamRecord} (h : e.protocolMajor = e.protocolMinor) :
    shown db e = published db e := by
  rw [shown, published, h]

theorem version_of_mem {e : EpochParamRecord} (h : published db e ∈ db.epochParam.map (shown db)) :
    e.protocolMajor = e.protocolMinor := by
  obtain ⟨e', -, hrow⟩ := List.mem_map.mp h
  have hversion : (⟨e'.protocolMajor, e'.protocolMajor⟩ : ProtocolVersion) =
      ⟨e.protocolMajor, e.protocolMinor⟩ := congrArg (·.protocolVersion) hrow
  obtain ⟨hmajor, hminor⟩ := ProtocolVersion.mk.inj hversion
  rw [← hmajor, ← hminor]

/-- The inner join loses the parameters of an epoch without a cost model, and the version
is complete only where both of its numbers agree. -/
theorem lossless_iff : Lossless db ↔
    ∀ e ∈ db.epochParam, (∃ m ∈ db.costModel, e.costModelId = some m.id) ∧
      e.protocolMajor = e.protocolMinor := by
  have hany : ∀ e, db.costModel.any (references e) = true ↔ ∃ m ∈ db.costModel, e.costModelId = some m.id := by
    intro e
    simp [references]
  rw [Lossless, protocolParams_eq]
  constructor
  · intro h
    have hlength : (db.epochParam.filter fun e => db.costModel.any (references e)).length =
        db.epochParam.length := by
      simpa using h.length_eq
    have hall := List.length_filter_eq_length_iff.mp hlength
    rw [List.filter_eq_self.mpr hall] at h
    intro e he
    refine ⟨(hany e).mp (hall e he), version_of_mem db ?_⟩
    exact h.mem_iff.mpr (List.mem_map_of_mem he)
  · intro h
    rw [List.filter_eq_self.mpr fun e he => (hany e).mpr (h e he).1]
    rw [List.map_congr_left fun e he => shown_eq_published db (h e he).2]

def shelleyParams : EpochParamRecord where
  epochNo := 208
  minFeeA := 44
  minFeeB := 155381
  maxBlockSize := 65536
  maxTxSize := 16384
  maxBhSize := 1100
  keyDeposit := 2000000
  poolDeposit := 500000000
  maxEpoch := 18
  optimalPoolCount := 150
  influence := 3 / 10
  monetaryExpandRate := 3 / 1000
  treasuryGrowthRate := 1 / 5
  decentralisation := 1
  protocolMajor := 2
  protocolMinor := 0
  minUtxoValue := 1000000
  minPoolCost := 340000000
  costModelId := none
  priceMem := none
  priceStep := none
  maxTxExMem := none
  maxTxExSteps := none
  maxBlockExMem := none
  maxBlockExSteps := none
  maxValSize := none
  collateralPercent := none
  maxCollateralInputs := none
  extraEntropy := none
  coinsPerUtxoSize := none

def shelleyEra : ParamTables where
  epochParam := [shelleyParams]
  costModel := [⟨1, .obj [("PlutusV1", .arr [])]⟩]
  modelIds := by decide

theorem shelleyEra_lost : protocolParams shelleyEra = [] ∧ ¬ Lossless shelleyEra := by
  refine ⟨rfl, ?_⟩
  intro h
  have hlength : 0 = 1 := h.length_eq
  cases hlength

end CardanoGraphql.ProtocolParamsView
