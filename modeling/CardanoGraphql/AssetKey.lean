import CardanoGraphql.Bytea
import CardanoGraphql.SaveAsset

namespace CardanoGraphql.AssetKey

open Bytea DbSync HasuraBackgroundClient KeyedTable ChainFollower SaveAsset SqlJoin

structure MaTxMintRecord where
  ident : Nat
  quantity : Int
  txId : Nat
deriving DecidableEq, Repr

structure TokenMint where
  assetId : String
  assetName : String
  policyId : String
  quantity : Int
  txId : Nat
deriving DecidableEq, Repr

def tokenMints (maTxMint : List MaTxMintRecord) (multiAsset : List MultiAssetRecord) : List TokenMint :=
  (innerJoin (fun (t : MaTxMintRecord) (m : MultiAssetRecord) => decide (t.ident = m.id))
    maTxMint multiAsset).map fun p =>
      { assetId := assetIdText p.2.policy p.2.name
        assetName := p.2.name
        policyId := p.2.policy
        quantity := p.1.quantity
        txId := p.1.txId }

/-- The call by which the follower saves a mint of these bytes, which the node gives in
hex. An asset without a name comes with an empty one or with none. -/
structure SavesMint (policy name : Bytes) (c : SaveCall) : Prop where
  policyId : c.policyId = hexText policy
  assetName : c.assetName = some (hexText name) ∨ (name = [] ∧ c.assetName = none)

variable {policy name : Bytes}

theorem SavesMint.nameText {c : SaveCall} (h : SavesMint policy name c) :
    c.assetName.getD "" = hexText name := by
  rcases h.assetName with hsome | ⟨rfl, hnone⟩
  · rw [hsome, Option.getD_some]
  · rw [hnone, Option.getD_none, hexText_nil]

theorem entry_key (env : Externals) {c : SaveCall} (h : SavesMint policy name c) :
    (insertInput (c.entry env)).assetId = byteaOut (policy ++ name) := by
  have hid : (c.entry env).assetId = hexText (policy ++ name) := by
    rw [SaveCall.entry, cacheEntry, h.nameText, h.policyId, hexText_append]
  rw [insertInput_assetId, hid]
  rfl

theorem assetIdText_key (policy name : Bytes) :
    assetIdText (byteaOut policy) (byteaOut name) = byteaOut (policy ++ name) := by
  have hdrop : ("\\" ++ byteaOut name).toList.drop 3 = (hexText name).toList := by
    simp [byteaOut]
  rw [assetIdText, hdrop, String.ofList_toList, byteaOut, byteaOut, hexText_append, String.append_assoc]

theorem tokensInOutput_key {db : Tables} {row : TokenInOutput} (hrow : row ∈ tokensInOutput db)
    (hp : row.policyId = byteaOut policy) (hn : row.assetName = byteaOut name) :
    row.assetId = byteaOut (policy ++ name) := by
  obtain ⟨p, -, rfl⟩ := List.mem_map.mp hrow
  rw [← assetIdText_key, ← hp, ← hn]

theorem tokenMints_key {maTxMint : List MaTxMintRecord} {multiAsset : List MultiAssetRecord}
    {row : TokenMint} (hrow : row ∈ tokenMints maTxMint multiAsset)
    (hp : row.policyId = byteaOut policy) (hn : row.assetName = byteaOut name) :
    row.assetId = byteaOut (policy ++ name) := by
  obtain ⟨p, -, rfl⟩ := List.mem_map.mp hrow
  rw [← assetIdText_key, ← hp, ← hn]

theorem save_key (env : Externals) {c : SaveCall} (h : SavesMint policy name c) (s : Follower) :
    ∃ row ∈ settled (save env s c), row.assetId = byteaOut (policy ++ name) := by
  have hsettled := saves_settled env (saveAsset_saves env c.policyId c.assetName c.block c.tip s)
  have hmem : byteaOut (policy ++ name) ∈ (settled (save env s c)).map Asset.assetId := by
    rw [save, hsettled, mem_keys_insertAbsent, List.map_singleton, ← entry_key env h]
    exact Or.inr List.mem_cons_self
  obtain ⟨row, hrow, hid⟩ := List.mem_map.mp hmem
  exact ⟨row, hrow, hid⟩

theorem job_key (key : Bytes) : withHexPrefix (some (stripHexPrefix (byteaOut key))) = byteaOut key := by
  have hstrip : stripHexPrefix (byteaOut key) = hexText key := stripHexPrefix_withHexPrefix (hexText key)
  rw [hstrip]
  rfl

/-- The rows of the follower, of both views and of the worker's queries have one key,
the policy followed by the name, from which both can be read back. -/
theorem assetKey_agrees (env : Externals) (hlen : policy.length = 28) {c : SaveCall}
    (hc : SavesMint policy name c) :
    byteaIn (insertInput (c.entry env)).assetId = some (policy ++ name) ∧
    (∀ s, ∃ row ∈ settled (save env s c), byteaIn row.assetId = some (policy ++ name)) ∧
    (∀ db, ∀ row ∈ tokensInOutput db, row.policyId = byteaOut policy → row.assetName = byteaOut name →
      byteaIn row.assetId = some (policy ++ name)) ∧
    (∀ maTxMint multiAsset, ∀ row ∈ tokenMints maTxMint multiAsset, row.policyId = byteaOut policy →
      row.assetName = byteaOut name → byteaIn row.assetId = some (policy ++ name)) ∧
    (∀ policy' name' c', policy'.length = 28 → SavesMint policy' name' c' →
      byteaIn (insertInput (c'.entry env)).assetId = byteaIn (insertInput (c.entry env)).assetId →
      policy' = policy ∧ name' = name) ∧
    (∀ row : Asset, row.assetId = byteaOut (policy ++ name) →
      byteaIn (withHexPrefix (some (stripHexPrefix row.assetId))) = some (policy ++ name) ∧
      ∀ table, row ∈ table → (row.assetId, row.metadataHash) ∈
        getAssetMetadataHashesById table [stripHexPrefix row.assetId]) := by
  refine ⟨?_, fun s => ?_, fun db row hrow hp hn => ?_, fun maTxMint multiAsset row hrow hp hn => ?_,
    fun policy' name' c' hlen' hc' hkey => ?_, fun row hrow => ⟨?_, fun table hmem => ?_⟩⟩
  · rw [entry_key env hc, byteaIn_byteaOut]
  · obtain ⟨row, hrow, hid⟩ := save_key env hc s
    exact ⟨row, hrow, by rw [hid, byteaIn_byteaOut]⟩
  · rw [tokensInOutput_key hrow hp hn, byteaIn_byteaOut]
  · rw [tokenMints_key hrow hp hn, byteaIn_byteaOut]
  · rw [entry_key env hc, entry_key env hc'] at hkey
    exact append_injective (hlen'.trans hlen.symm) hkey
  · rw [hrow, job_key, byteaIn_byteaOut]
  · refine List.mem_map.mpr ⟨row, List.mem_filter.mpr ⟨hmem, ?_⟩, rfl⟩
    rw [decide_eq_true_eq, List.map_singleton, List.mem_singleton, hrow, job_key]

def samplePolicy : Bytes := List.replicate 28 161

def sampleMint : SaveCall :=
  ⟨hexText samplePolicy, some (hexText [84, 11]), ⟨7, "b7", none⟩, .origin⟩

theorem sampleMint_key :
    byteaIn (insertInput (sampleMint.entry quiet)).assetId = some (samplePolicy ++ [84, 11]) ∧
      (insertInput (sampleMint.entry quiet)).assetId.toList.length = 62 :=
  ⟨(assetKey_agrees quiet (List.length_replicate) ⟨rfl, Or.inl rfl⟩).1, by decide +kernel⟩

end CardanoGraphql.AssetKey
