import CardanoGraphql.BigNumber
import CardanoGraphql.EpochView
import CardanoGraphql.FetchedValues
import CardanoGraphql.StakePoolView

namespace CardanoGraphql.AdaSupply

open SqlJoin DbSync EpochView StakePoolView DataFetcher FetchedValues BigNumber

structure AdaPotsRecord where
  epochNo : Nat
  reserves : Nat
deriving DecidableEq, Repr

structure RewardRecord where
  addrId : Nat
  amount : Nat
deriving DecidableEq, Repr

structure WithdrawalRecord where
  addrId : Nat
  amount : Nat
deriving DecidableEq, Repr

structure Ledger extends Tables, EpochTables where
  adaPots : List AdaPotsRecord
  stakeAddress : List StakeAddressRecord
  reward : List RewardRecord
  withdrawal : List WithdrawalRecord

structure Reward where
  amount : Nat
  address : String
deriving DecidableEq, Repr

structure Withdrawal where
  amount : Nat
  address : String
deriving DecidableEq, Repr

section Views

variable (db : Ledger)

def rewards : List Reward :=
  (innerJoin (fun (r : RewardRecord) (a : StakeAddressRecord) => decide (r.addrId = a.id))
    db.reward db.stakeAddress).map fun p => { amount := p.1.amount, address := p.2.view }

def withdrawals : List Withdrawal :=
  (innerJoin (fun (w : WithdrawalRecord) (a : StakeAddressRecord) => decide (w.addrId = a.id))
    db.withdrawal db.stakeAddress).map fun p => { amount := p.1.amount, address := p.2.view }

def potsOf (e : Epoch) : Option AdaPotsRecord := db.adaPots.find? fun p => decide (e.number = p.epochNo)

def latestPots : Option AdaPotsRecord := (latestEpoch db.toEpochTables).bind (potsOf db)

/-- `aggregate { sum }` of a `numeric` column: `null` over no rows. -/
def aggregateSum (amounts : List Nat) : Option String :=
  if amounts.isEmpty then none else some (plain amounts.sum)

end Views

structure PotsResult where
  epochs : List (Option String)
  rewardsAggregate : Option String
  utxosAggregate : Option String
  withdrawalsAggregate : Option String
deriving DecidableEq, Repr

def requestPots (db : Ledger) : PotsResult :=
  { epochs := (latestEpoch db.toEpochTables).toList.map fun e =>
      (potsOf db e).map fun pots => plain pots.reserves
    rewardsAggregate := aggregateSum ((rewards db).map Reward.amount)
    utxosAggregate := aggregateSum ((utxos db.toTables).map TransactionOutput.value)
    withdrawalsAggregate := aggregateSum ((withdrawals db).map Withdrawal.amount) }

def epochInformationNotYetAvailable : String :=
  "Epoch information not yet available. This is expected during the initial chain-sync."

def getAdaPotsToCalculateSupply (db : Ledger) : Except String AdaPotsToCalculateSupply :=
  let result := requestPots db
  match result.epochs with
  | [] | none :: _ => .error epochInformationNotYetAvailable
  | some reserves :: _ =>
      let rewards := ofNullable result.rewardsAggregate
      let utxos := ofNullable result.utxosAggregate
      let withdrawals := ofNullable result.withdrawalsAggregate
      let withdrawableRewards := signedMinus rewards withdrawals
      .ok
        { circulating := signedToString (signedPlus utxos withdrawableRewards)
          reserves := reserves }

def fetchFrom (db : Ledger) : Fetch AdaPotsToCalculateSupply :=
  match getAdaPotsToCalculateSupply db with
  | .ok adaPots => .value adaPots
  | .error _ => .rejects

def polled (dbs : List Ledger) : HasuraClient :=
  ⟨.initialized, fresh.fetches (dbs.map fun db => fetchAdaPots (fetchFrom db))⟩

/-- The supply of the genesis file: the text that `String` makes of the number, which
`BigNumber` reads. -/
structure ShelleyGenesis where
  maxLovelaceSupply : String
  maxSupply : Nat
  reads : ofString maxLovelaceSupply = some maxSupply

structure AssetSupply where
  circulating : String
  max : String
  total : String
deriving DecidableEq, Repr

def ada (genesis : ShelleyGenesis) (hasuraClient : HasuraClient) : Except String AssetSupply :=
  match hasuraClient.adaPots with
  | none => .error "ada query results are not ready yet. This can occur during startup."
  | some adaPots => .ok
      { circulating := adaPots.circulating
        max := genesis.maxLovelaceSupply
        total := signedToString
          (signedMinus (ofNullable (some genesis.maxLovelaceSupply)) (ofNullable (some adaPots.reserves))) }

def circulation (db : Ledger) : Int :=
  ((utxos db.toTables).map TransactionOutput.value).sum + ((rewards db).map Reward.amount).sum -
    ((withdrawals db).map Withdrawal.amount).sum

def exactSupply (genesis : ShelleyGenesis) (db : Ledger) (pots : AdaPotsRecord) : AssetSupply :=
  { circulating := decimal (circulation db)
    max := genesis.maxLovelaceSupply
    total := decimal (genesis.maxSupply - pots.reserves) }

theorem ofNullable_aggregateSum (amounts : List Nat) :
    ofNullable (aggregateSum amounts) = if amounts = [] then none else some (amounts.sum : Int) := by
  cases amounts with
  | nil => rfl
  | cons a amounts =>
      rw [if_neg (List.cons_ne_nil a amounts)]
      exact ofNullable_plain (a :: amounts).sum

theorem getAdaPots_eq {db : Ledger} {pots : AdaPotsRecord} (h : latestPots db = some pots) :
    getAdaPotsToCalculateSupply db = .ok
      { circulating := signedToString (signedPlus
          (ofNullable (aggregateSum ((utxos db.toTables).map TransactionOutput.value)))
          (signedMinus (ofNullable (aggregateSum ((rewards db).map Reward.amount)))
            (ofNullable (aggregateSum ((withdrawals db).map Withdrawal.amount)))))
        reserves := plain pots.reserves } := by
  obtain ⟨e, he, hpots⟩ := Option.bind_eq_some_iff.mp h
  have hepochs : (requestPots db).epochs = [some (plain pots.reserves)] := by
    rw [requestPots, he, Option.toList_some, List.map_cons, List.map_nil, hpots, Option.map_some]
  rw [getAdaPotsToCalculateSupply]
  simp only [hepochs]
  rfl

theorem adaPots_polled (earlier : List Ledger) {db : Ledger} {adaPots : AdaPotsToCalculateSupply}
    (h : getAdaPotsToCalculateSupply db = .ok adaPots) : (polled (earlier ++ [db])).adaPots = some adaPots := by
  rw [HasuraClient.adaPots, polled, List.map_append, List.map_cons, List.map_nil, fetches_concat, fetchFrom, h]
  rfl

theorem circulating_eq_iff (db : Ledger) :
    signedToString (signedPlus (ofNullable (aggregateSum ((utxos db.toTables).map TransactionOutput.value)))
        (signedMinus (ofNullable (aggregateSum ((rewards db).map Reward.amount)))
          (ofNullable (aggregateSum ((withdrawals db).map Withdrawal.amount))))) = decimal (circulation db) ↔
      (utxos db.toTables ≠ [] ∧ rewards db ≠ [] ∧ withdrawals db ≠ []) ∧
        (circulation db).natAbs < 10 ^ 21 := by
  rw [ofNullable_aggregateSum, ofNullable_aggregateSum, ofNullable_aggregateSum]
  simp only [List.map_eq_nil_iff]
  by_cases hu : utxos db.toTables = []
  · rw [if_pos hu]
    exact iff_of_false (signedToString_none_ne_decimal _) fun h => h.1.1 hu
  by_cases hr : rewards db = []
  · rw [if_pos hr, if_neg hu]
    exact iff_of_false (signedToString_none_ne_decimal _) fun h => h.1.2.1 hr
  by_cases hw : withdrawals db = []
  · rw [if_pos hw, if_neg hu, if_neg hr]
    exact iff_of_false (signedToString_none_ne_decimal _) fun h => h.1.2.2 hw
  have hsum : signedPlus (some (((utxos db.toTables).map TransactionOutput.value).sum : Int))
      (signedMinus (some (((rewards db).map Reward.amount).sum : Int))
        (some (((withdrawals db).map Withdrawal.amount).sum : Int))) = some (circulation db) := by
    rw [signedMinus, signedPlus, circulation, Int.add_sub_assoc]
  rw [if_neg hu, if_neg hr, if_neg hw, hsum, signedToString_eq_decimal_iff]
  exact (and_iff_right ⟨hu, hr, hw⟩).symm

/-- A sum over no rows is `null` and makes the circulation `NaN`; a number from 10^21 on is
not written in digits. -/
theorem supply_exact_iff (genesis : ShelleyGenesis) (earlier : List Ledger) {db : Ledger}
    {pots : AdaPotsRecord} (h : latestPots db = some pots) :
    ada genesis (polled (earlier ++ [db])) = .ok (exactSupply genesis db pots) ↔
      (utxos db.toTables ≠ [] ∧ rewards db ≠ [] ∧ withdrawals db ≠ []) ∧
        (circulation db).natAbs < 10 ^ 21 ∧ ((genesis.maxSupply : Int) - pots.reserves).natAbs < 10 ^ 21 := by
  have hmax : ofNullable (some genesis.maxLovelaceSupply) = some (genesis.maxSupply : Int) := by
    rw [ofNullable, Option.bind_some, genesis.reads]
    rfl
  rw [ada, adaPots_polled earlier (getAdaPots_eq h), ← and_assoc, ← circulating_eq_iff,
    ← signedToString_eq_decimal_iff]
  simp only [hmax, ofNullable_plain, exactSupply, Except.ok.injEq, AssetSupply.mk.injEq, true_and]
  rfl

def shelleyGenesis : ShelleyGenesis where
  maxLovelaceSupply := plain 45000000000000000
  maxSupply := 45000000000000000
  reads := ofString_plain 45000000000000000

def firstEpoch : Ledger where
  block := []
  tx := [{ id := 1, hash := "7a3d", blockId := 1, fee := some 0 }]
  txOut := [{ id := 1, txId := 1, index := 0, address := "addr_test1vz", value := 31000000 }]
  txIn := []
  multiAsset := []
  maTxOut := []
  epoch := [⟨0⟩, ⟨1⟩]
  epochParam := [⟨1, none⟩]
  adaPots := [{ epochNo := 1, reserves := 14000000 }]
  stakeAddress := [{ id := 4, view := "stake_test1up" }]
  reward := []
  withdrawal := []

theorem firstEpoch_nan : ada shelleyGenesis (polled [firstEpoch]) ≠
    .ok (exactSupply shelleyGenesis firstEpoch { epochNo := 1, reserves := 14000000 }) := by
  have hpots : latestPots firstEpoch = some { epochNo := 1, reserves := 14000000 } := by decide
  have hnan : ada shelleyGenesis (polled [firstEpoch]) = .ok
      { circulating := "NaN"
        max := plain 45000000000000000
        total := signedToString (signedMinus (ofNullable (some (plain 45000000000000000)))
          (ofNullable (some (plain 14000000)))) } := by
    rw [ada, ← List.nil_append [firstEpoch], adaPots_polled [] (getAdaPots_eq hpots)]
    rfl
  rw [hnan]
  intro h
  have hcirculating : signedToString none = decimal (circulation firstEpoch) :=
    congrArg AssetSupply.circulating (Except.ok.inj h)
  exact signedToString_none_ne_decimal _ hcirculating

def laterEpoch : Ledger :=
  { firstEpoch with
    reward := [⟨4, 500000⟩, ⟨4, 700000⟩]
    withdrawal := [⟨4, 500000⟩] }

theorem laterEpoch_exact : latestPots laterEpoch = some { epochNo := 1, reserves := 14000000 } ∧
    ada shelleyGenesis (polled ([firstEpoch] ++ [laterEpoch])) =
      .ok (exactSupply shelleyGenesis laterEpoch { epochNo := 1, reserves := 14000000 }) := by
  have hpots : latestPots laterEpoch = some { epochNo := 1, reserves := 14000000 } := by decide
  refine ⟨hpots, (supply_exact_iff shelleyGenesis [firstEpoch] hpots).mpr ?_⟩
  decide

end CardanoGraphql.AdaSupply
