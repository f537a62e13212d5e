import CardanoGraphql.AddressSummary

namespace CardanoGraphql.UnsyncedAssets

open DbSync HasuraClient AddressSummary SqlJoin

variable (assets : List HasuraBackgroundClient.Asset)

def hasRow (assetId : String) : Bool := assets.any fun row => decide (row.assetId = assetId)

def synced (m : MultiAssetRecord) : Bool := hasRow assets (assetIdText m.policy m.name)

/-- The database in which nothing holds the assets that have no row yet. -/
def withoutUnsynced (db : Tables) : Tables :=
  { db with
    multiAsset := db.multiAsset.filter (synced assets)
    maTxOut := db.maTxOut.filter fun t =>
      (db.multiAsset.filter (synced assets)).any fun m => decide (t.ident = m.id) }

structure SameBalances (summary other : PaymentAddressSummary) : Prop where
  ada : balance summary adaAsset.assetId = balance other adaAsset.assetId
  assets : ∀ row ∈ assets, balance summary row.assetId = balance other row.assetId

theorem take_filter {α : Type} (p : α → Bool) {xs : List α} {n : Nat} (h : ∀ x ∈ xs.take n, p x = true) :
    (xs.filter p).take n = xs.take n := by
  induction xs generalizing n with
  | nil => rfl
  | cons x xs ih =>
      cases n with
      | zero => rfl
      | succ n =>
          rw [List.take_succ_cons] at h
          obtain ⟨hx, hrest⟩ := List.forall_mem_cons.mp h
          rw [List.filter_cons_of_pos hx, List.take_succ_cons, List.take_succ_cons, ih hrest]

theorem hasRow_iff (token : TokenInOutput) : hasRow assets token.assetId = true ↔ AssetKnown assets token := by
  simp [hasRow, AssetKnown]

theorem tokensInOutput_withoutUnsynced (db : Tables) :
    tokensInOutput (withoutUnsynced assets db) =
      (tokensInOutput db).filter fun token => hasRow assets token.assetId := by
  rw [tokensInOutput, withoutUnsynced, innerJoin_filter_any, innerJoin_filter_right, tokensInOutput,
    List.filter_map]
  rfl

theorem tokensOf_withoutUnsynced (db : Tables) (utxo : TransactionOutput) :
    tokensOf (withoutUnsynced assets db) utxo =
      (tokensOf db utxo).filter fun token => hasRow assets token.assetId := by
  rw [tokensOf, tokensInOutput_withoutUnsynced, tokensOf, List.filter_filter, List.filter_filter]
  congr 1
  funext token
  exact Bool.and_comm _ _

theorem matchingUtxos_withoutUnsynced (db : Tables) (address : String) (atBlock : Option Int) :
    matchingUtxos (withoutUnsynced assets db) address atBlock = matchingUtxos db address atBlock := rfl

theorem selectUtxos_withoutUnsynced {db : Tables} {address : String} {atBlock : Option Int}
    (hknown : KeptKnown db assets (matchingUtxos db address atBlock)) :
    selectUtxos (withoutUnsynced assets db) assets address atBlock = selectUtxos db assets address atBlock := by
  rw [selectUtxos, selectUtxos, matchingUtxos_withoutUnsynced]
  apply List.map_congr_left
  intro utxo hutxo
  have htokens : (tokensOf (withoutUnsynced assets db) utxo).take selectLimit =
      (tokensOf db utxo).take selectLimit := by
    rw [tokensOf_withoutUnsynced]
    exact take_filter _ fun token htoken => (hasRow_iff assets token).mpr (hknown utxo hutxo token htoken)
  rw [selectUtxo, selectUtxo, htokens]

/-- The summary is as if the unsynced assets were not held exactly where no token that it
reads is of such an asset; with one it is not answered at all. -/
theorem summary_unaffected_iff (db : Database) (address : String) (atBlock : Option Int) :
    (∃ summary other, getPaymentAddressSummary db.toTables assets address atBlock = .ok summary ∧
        getPaymentAddressSummary (withoutUnsynced assets db.toTables) assets address atBlock = .ok other ∧
        SameBalances assets summary other) ↔
      KeptKnown db.toTables assets (matchingUtxos db.toTables address atBlock) := by
  constructor
  · rintro ⟨summary, other, hsummary, -, -⟩
    by_contra hno
    exact summary_throws hno summary hsummary
  · intro hknown
    obtain ⟨summary, hsummary, -⟩ := summary_of_known db assets address atBlock hknown
    refine ⟨summary, summary, hsummary, ?_, rfl, fun row _ => rfl⟩
    rw [getPaymentAddressSummary, selectUtxos_withoutUnsynced assets hknown, matchingUtxos_withoutUnsynced]
    exact hsummary

def justMinted : Database where
  block := [⟨1, "\\xb7", some 1, some 25⟩]
  tx := [⟨1, "\\xa7", 1, none⟩]
  txOut := [⟨1, 1, 0, "addr1", 2000000⟩]
  txIn := []
  multiAsset := [⟨1, "\\xd894897411707efa755a76deb66d26dfd50593f2e70863e1661e98a0", "\\x7370"⟩]
  maTxOut := [⟨1, 5, 1⟩]
  block_id := by decide
  block_hash := by decide
  tx_id := by decide
  tx_hash := by decide
  policy_length := by decide

theorem justMinted_throws :
    getPaymentAddressSummary justMinted.toTables [] "addr1" none =
        .error "Cannot read property 'assetId' of null" ∧
      (getPaymentAddressSummary (withoutUnsynced [] justMinted.toTables) [] "addr1" none).toOption.map
        (fun summary => summary.assetBalances) = some [⟨adaAsset, "2000000"⟩] ∧
      ¬ ∃ summary other, getPaymentAddressSummary justMinted.toTables [] "addr1" none = .ok summary ∧
        getPaymentAddressSummary (withoutUnsynced [] justMinted.toTables) [] "addr1" none = .ok other ∧
        SameBalances [] summary other := by
  have hthrows : getPaymentAddressSummary justMinted.toTables [] "addr1" none =
      .error "Cannot read property 'assetId' of null" := by
    decide +kernel
  refine ⟨hthrows, by decide +kernel, ?_⟩
  rintro ⟨summary, other, hsummary, -, -⟩
  rw [hthrows] at hsummary
  cases hsummary

end CardanoGraphql.UnsyncedAssets
