import CardanoGraphql.AddressSummary

namespace CardanoGraphql.SummaryLimits

open DbSync HasuraClient AddressSummary

section Limits

variable (db : Tables)

def droppedTokens (utxo : TransactionOutput) : List TokenInOutput := (tokensOf db utxo).drop selectLimit

def droppedTotal (rows : List TransactionOutput) (assetId : String) : Nat :=
  assetTotal (droppedTokens db) (rows.take selectLimit) assetId +
    assetTotal (tokensOf db) (rows.drop selectLimit) assetId

theorem adaTotal_append (xs ys : List TransactionOutput) :
    adaTotal (xs ++ ys) = adaTotal xs + adaTotal ys := by
  rw [adaTotal, List.map_append, List.sum_append, adaTotal, adaTotal]

theorem adaTotal_split (rows : List TransactionOutput) :
    adaTotal rows = adaTotal (rows.take selectLimit) + adaTotal (rows.drop selectLimit) := by
  rw [← adaTotal_append, List.take_append_drop]

theorem tokenTotal_split (utxo : TransactionOutput) (assetId : String) :
    tokenTotal (tokensOf db utxo) assetId =
      tokenTotal (keptTokens db utxo) assetId + tokenTotal (droppedTokens db utxo) assetId := by
  rw [tokenTotal, tokenTotal, tokenTotal, keptTokens, droppedTokens, ← List.sum_append, ← List.map_append,
    ← List.filter_append, List.take_append_drop]

theorem assetTotal_split (rows : List TransactionOutput) (assetId : String) :
    assetTotal (tokensOf db) rows assetId =
      assetTotal (keptTokens db) (rows.take selectLimit) assetId + droppedTotal db rows assetId := by
  have hrow : ∀ xs : List TransactionOutput, assetTotal (tokensOf db) xs assetId =
      assetTotal (keptTokens db) xs assetId + assetTotal (droppedTokens db) xs assetId := by
    intro xs
    induction xs with
    | nil => rfl
    | cons utxo xs ih =>
        simp only [assetTotal, List.map_cons, List.sum_cons] at ih ⊢
        have := tokenTotal_split db utxo assetId
        omega
  have happ : assetTotal (tokensOf db) rows assetId = assetTotal (tokensOf db) (rows.take selectLimit) assetId +
      assetTotal (tokensOf db) (rows.drop selectLimit) assetId := by
    rw [assetTotal, assetTotal, assetTotal, ← List.sum_append, ← List.map_append, List.take_append_drop]
  rw [happ, hrow, droppedTotal]
  omega

theorem tokenTotal_eq_zero_iff (tokens : List TokenInOutput) (assetId : String) :
    tokenTotal tokens assetId = 0 ↔ ∀ token ∈ tokens, token.assetId = assetId → token.quantity = 0 := by
  rw [tokenTotal, List.sum_eq_zero_iff_forall_eq_nat]
  constructor
  · intro h token ht hid
    exact h _ (List.mem_map_of_mem (List.mem_filter.mpr ⟨ht, by simpa using hid⟩))
  · intro h n hn
    obtain ⟨token, ht, rfl⟩ := List.mem_map.mp hn
    obtain ⟨ht, hid⟩ := List.mem_filter.mp ht
    exact h token ht (by simpa using hid)

theorem assetTotal_eq_zero_iff (tokens : TransactionOutput → List TokenInOutput)
    (rows : List TransactionOutput) (assetId : String) :
    assetTotal tokens rows assetId = 0 ↔
      ∀ utxo ∈ rows, ∀ token ∈ tokens utxo, token.assetId = assetId → token.quantity = 0 := by
  rw [assetTotal, List.sum_eq_zero_iff_forall_eq_nat]
  constructor
  · intro h utxo hu
    exact (tokenTotal_eq_zero_iff _ _).mp (h _ (List.mem_map_of_mem hu))
  · intro h n hn
    obtain ⟨utxo, hu, rfl⟩ := List.mem_map.mp hn
    exact (tokenTotal_eq_zero_iff _ _).mpr (h utxo hu)

theorem nothingDropped_iff (db : Database) (rows : List TransactionOutput) :
    NothingDropped db.toTables rows ↔ adaTotal (rows.drop selectLimit) = 0 ∧
      ∀ assetId, assetId ≠ adaAsset.assetId → droppedTotal db.toTables rows assetId = 0 := by
  have hids : ∀ utxo, ∀ token ∈ tokensOf db.toTables utxo, token.assetId ≠ adaAsset.assetId := by
    intro utxo token ht
    exact (token_assetId db (List.mem_filter.mp ht).1).2
  have hada : adaTotal (rows.drop selectLimit) = 0 ↔ ∀ utxo ∈ rows.drop selectLimit, utxo.value = 0 := by
    rw [adaTotal, List.sum_eq_zero_iff_forall_eq_nat, List.forall_mem_map]
  simp only [hada, droppedTotal, Nat.add_eq_zero_iff, assetTotal_eq_zero_iff]
  constructor
  · intro h
    refine ⟨fun utxo hu => (h.outputs utxo hu).1, fun assetId _ => ⟨?_, ?_⟩⟩
    · intro utxo hu token ht _
      exact h.tokens utxo hu token ht
    · intro utxo hu token ht _
      exact (h.outputs utxo hu).2 token ht
  · rintro ⟨hvalue, htokens⟩
    constructor
    · intro utxo hu
      refine ⟨hvalue utxo hu, fun token ht => ?_⟩
      exact (htokens token.assetId (hids utxo token ht)).2 utxo hu token ht rfl
    · intro utxo hu token ht
      exact (htokens token.assetId (hids utxo token (List.mem_of_mem_drop ht))).1 utxo hu token ht rfl

end Limits

def addressUtxos (db : Tables) (address : String) : List TransactionOutput :=
  (utxos db).filter fun utxo => decide (utxo.address = address)

theorem matchingUtxos_none (db : Tables) (address : String) :
    matchingUtxos db address none = addressUtxos db address := by
  simp [matchingUtxos, addressUtxos]

/-- A summary accounts for the whole UTxO set of its address exactly when the two limits
of 2500 rows cut off nothing that carries an amount. -/
theorem summary_exact_iff (db : Database) (assets : List HasuraBackgroundClient.Asset) (address : String)
    (hassets : ∀ utxo ∈ addressUtxos db.toTables address, ∀ token ∈ tokensOf db.toTables utxo,
      AssetKnown assets token) :
    (∃ summary, getPaymentAddressSummary db.toTables assets address none = .ok summary ∧
        Exact db.toTables (addressUtxos db.toTables address) summary) ↔
      NothingDropped db.toTables (addressUtxos db.toTables address) := by
  have hknown : KeptKnown db.toTables assets (addressUtxos db.toTables address) :=
    fun utxo hu token ht => hassets utxo (List.mem_of_mem_take hu) token (List.mem_of_mem_take ht)
  have hsplit := adaTotal_split (addressUtxos db.toTables address)
  have hsplits := assetTotal_split db.toTables (addressUtxos db.toTables address)
  rw [accounts_iff, matchingUtxos_none, nothingDropped_iff]
  constructor
  · rintro ⟨-, -, hada, htokens⟩
    refine ⟨by omega, fun assetId hne => ?_⟩
    have := htokens assetId hne
    have := hsplits assetId
    omega
  · rintro ⟨hdropped, hrest⟩
    refine ⟨hknown, rfl, by omega, fun assetId hne => ?_⟩
    rw [hsplits, hrest assetId hne, Nat.add_zero]

def manyOutputs : Database where
  block := [⟨1, "\\xb1", some 1, some 20⟩]
  tx := [⟨1, "\\xa1", 1, none⟩]
  txOut := (List.range 2501).map fun index => ⟨index, 1, index, "addr1", 1⟩
  txIn := []
  multiAsset := []
  maTxOut := []
  block_id := by decide
  block_hash := by decide
  tx_id := by decide
  tx_hash := by decide
  policy_length := by decide

theorem manyOutputs_known : ∀ utxo ∈ addressUtxos manyOutputs.toTables "addr1",
    ∀ token ∈ tokensOf manyOutputs.toTables utxo, AssetKnown [] token := by
  intro utxo _ token ht
  have hnone : tokensInOutput manyOutputs.toTables = [] := rfl
  rw [tokensOf, hnone] at ht
  cases ht

theorem manyOutputs_truncated :
    (∃ summary, getPaymentAddressSummary manyOutputs.toTables [] "addr1" none = .ok summary ∧
      balance summary adaAsset.assetId = some 2500 ∧ summary.utxosCount = 2501) ∧
    adaTotal (addressUtxos manyOutputs.toTables "addr1") = 2501 ∧
    ¬ ∃ summary, getPaymentAddressSummary manyOutputs.toTables [] "addr1" none = .ok summary ∧
      Exact manyOutputs.toTables (addressUtxos manyOutputs.toTables "addr1") summary := by
  have hvalues : (addressUtxos manyOutputs.toTables "addr1").map TransactionOutput.value =
      List.replicate 2501 1 := by
    decide +kernel
  have htotal : adaTotal (addressUtxos manyOutputs.toTables "addr1") = 2501 := by
    rw [adaTotal, hvalues, List.sum_replicate_nat]
  have hcount : (matchingUtxos manyOutputs.toTables "addr1" none).length = 2501 := by
    have hlength := congrArg List.length hvalues
    rwa [List.length_map, List.length_replicate, ← matchingUtxos_none] at hlength
  have hkept : adaTotal ((matchingUtxos manyOutputs.toTables "addr1" none).take selectLimit) = 2500 := by
    rw [matchingUtxos_none, adaTotal, List.map_take, hvalues, selectLimit, List.take_replicate,
      List.sum_replicate_nat]
    rfl
  have hknown : KeptKnown manyOutputs.toTables [] (matchingUtxos manyOutputs.toTables "addr1" none) := by
    rw [matchingUtxos_none]
    intro utxo hu token ht
    exact manyOutputs_known utxo (List.mem_of_mem_take hu) token (List.mem_of_mem_take ht)
  obtain ⟨summary, hsummary, hada, -, hlength⟩ := summary_of_known manyOutputs [] "addr1" none hknown
  rw [hkept] at hada
  rw [hcount] at hlength
  refine ⟨⟨summary, hsummary, hada, hlength⟩, htotal, ?_⟩
  rw [accounts_iff]
  rintro ⟨-, -, hexact, -⟩
  omega

theorem manyOutputs_exact_iff :
    (∃ summary, getPaymentAddressSummary manyOutputs.toTables [] "addr1" none = .ok summary ∧
        Exact manyOutputs.toTables (addressUtxos manyOutputs.toTables "addr1") summary) ↔
      NothingDropped manyOutputs.toTables (addressUtxos manyOutputs.toTables "addr1") :=
  summary_exact_iff manyOutputs [] "addr1" manyOutputs_known

end CardanoGraphql.SummaryLimits
