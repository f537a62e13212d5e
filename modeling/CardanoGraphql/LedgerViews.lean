import CardanoGraphql.Bytea
import CardanoGraphql.AssetKey
import CardanoGraphql.SummaryLimits
import CardanoGraphql.UtxoLedger

namespace CardanoGraphql.LedgerViews

open Runs Bytea DbSync SqlJoin UtxoLedger

structure AssetName where
  policy : Bytes
  name : Bytes
  policy_length : policy.length = 28
deriving DecidableEq

def AssetName.assetId (a : AssetName) : String := byteaOut (a.policy ++ a.name)

theorem assetId_injective : Function.Injective AssetName.assetId := by
  intro a b h
  obtain ⟨hpolicy, hname⟩ := append_injective (a.policy_length.trans b.policy_length.symm) (congrArg byteaIn h)
  cases a
  cases b
  cases hpolicy
  cases hname
  rfl

/-- A transaction of the chain, one whose scripts have all succeeded. -/
structure Entry where
  transaction : Transaction String String AssetName
  blockId : Nat
  fee : Option Nat

section Rows

def names (a : AssetName) (m : MultiAssetRecord) : Bool :=
  decide (m.policy = byteaOut a.policy) && decide (m.name = byteaOut a.name)

/-- The ids that the rows of a transaction are given, with the rows of the assets that are new
with it and the row that each of its tokens refers to. -/
structure NewRows where
  txId : Nat
  outId : Nat → Nat
  assets : List MultiAssetRecord
  ident : AssetName → Nat

def newTx (rows : NewRows) (e : Entry) : TxRecord :=
  { id := rows.txId
    hash := e.transaction.name
    blockId := e.blockId
    fee := e.fee }

def newOutput (rows : NewRows) (p : Payment String AssetName × Nat) : TxOutRecord :=
  { id := rows.outId p.2
    txId := rows.txId
    index := p.2
    address := p.1.address
    value := p.1.value }

def newOutputs (rows : NewRows) (e : Entry) : List TxOutRecord :=
  e.transaction.outputs.zipIdx.map (newOutput rows)

def inputOf (db : Tables) (rows : NewRows) (source : String × Nat) : Option TxInRecord :=
  (db.tx.find? fun t => decide (t.hash = source.1)).map fun t =>
    { txInId := rows.txId
      txOutId := t.id
      txOutIndex := source.2 }

def newInputs (db : Tables) (rows : NewRows) (e : Entry) : List TxInRecord :=
  e.transaction.inputs.filterMap (inputOf db rows)

def newTokens (rows : NewRows) (e : Entry) : List (Nat × AssetName × Nat) :=
  e.transaction.outputs.zipIdx.flatMap fun p => p.1.tokens.map fun token => (rows.outId p.2, token)

def tokenRecord (rows : NewRows) (p : Nat × AssetName × Nat) : MaTxOutRecord :=
  { ident := rows.ident p.2.1
    quantity := p.2.2
    txOutId := p.1 }

/-- The rows that `cardano-db-sync` adds for a transaction in a block that is stored. -/
structure Adds (db : Tables) (e : Entry) (rows : NewRows) (db' : Tables) : Prop where
  block : db'.block = db.block
  tx : db'.tx = db.tx ++ [newTx rows e]
  txOut : db'.txOut = db.txOut ++ newOutputs rows e
  txIn : db'.txIn = db.txIn ++ newInputs db rows e
  multiAsset : db'.multiAsset = db.multiAsset ++ rows.assets
  maTxOut : db'.maTxOut = db.maTxOut ++ (newTokens rows e).map (tokenRecord rows)
  txId_new : ∀ t ∈ db.tx, t.id ≠ rows.txId
  outId_new : ∀ o ∈ db.txOut, ∀ index, o.id ≠ rows.outId index
  outId_injective : Function.Injective rows.outId
  assets_new : ∀ m ∈ db.multiAsset, ∀ m' ∈ rows.assets, m.id ≠ m'.id
  assets_ids : (rows.assets.map MultiAssetRecord.id).Nodup
  policies : ∀ m ∈ rows.assets, m.policy.length = 58
  named : ∀ p ∈ newTokens rows e, ∃ m ∈ db'.multiAsset, m.id = rows.ident p.2.1 ∧ names p.2.1 m = true

def Resolves (db : Tables) (e : Entry) : Prop :=
  ∀ source ∈ e.transaction.inputs, ∃ t ∈ db.tx, t.hash = source.1

/-- What is relied on of `cardano-db-sync`, which writes the tables. -/
def Records (record : Tables → Entry → Tables) : Prop :=
  ∀ db e, Resolves db e → ∃ rows, Adds db e rows (record db e)

end Rows

section Tokens

def tokenRow (p : Nat × AssetName × Nat) : TokenInOutput :=
  { assetId := p.2.1.assetId
    assetName := byteaOut p.2.1.name
    policyId := byteaOut p.2.1.policy
    quantity := p.2.2
    txOutId := p.1 }

/-- What the rows of tokens keep to. -/
structure TokensSound (db : Tables) : Prop where
  assetIds : (db.multiAsset.map MultiAssetRecord.id).Nodup
  idents : ∀ t ∈ db.maTxOut, ∃ m ∈ db.multiAsset, m.id = t.ident
  policies : ∀ m ∈ db.multiAsset, m.policy.length = 58

variable {db db' : Tables} {e : Entry} {rows : NewRows}

theorem hexText_length (bytes : Bytes) : (hexText bytes).length = 2 * bytes.length := by
  induction bytes with
  | nil => rfl
  | cons b bytes ih =>
      have hpair : (hexText [b]).length = 2 := by
        rw [hexText, String.length_ofList]
        rfl
      have happend : hexText (b :: bytes) = hexText [b] ++ hexText bytes := hexText_append [b] bytes
      rw [happend, String.length_append, hpair, ih, List.length_cons]
      omega

theorem tokenRecords_shown {assets : List MultiAssetRecord} (hids : (assets.map MultiAssetRecord.id).Nodup)
    {ps : List (Nat × AssetName × Nat)}
    (hnamed : ∀ p ∈ ps, ∃ m ∈ assets, m.id = rows.ident p.2.1 ∧ names p.2.1 m = true) :
    (innerJoin (fun (t : MaTxOutRecord) (m : MultiAssetRecord) => decide (t.ident = m.id))
      (ps.map (tokenRecord rows)) assets).map (fun p =>
        { assetId := assetIdText p.2.policy p.2.name
          assetName := p.2.name
          policyId := p.2.policy
          quantity := p.1.quantity
          txOutId := p.1.txOutId }) = ps.map tokenRow := by
  induction ps with
  | nil => rfl
  | cons p ps ih =>
      obtain ⟨⟨m, hm, hid, hname⟩, hrest⟩ := List.forall_mem_cons.mp hnamed
      have hone : assets.filter (fun n => decide (rows.ident p.2.1 = n.id)) = [m] := by
        rw [← filter_key hids hm, hid]
        exact List.filter_congr fun n _ => decide_eq_decide.mpr eq_comm
      rw [names, Bool.and_eq_true, decide_eq_true_iff, decide_eq_true_iff] at hname
      have hfirst : innerJoin (fun (t : MaTxOutRecord) (m : MultiAssetRecord) => decide (t.ident = m.id))
          [tokenRecord rows p] assets = [(tokenRecord rows p, m)] := by
        rw [innerJoin, List.flatMap_singleton]
        exact congrArg (List.map _) hone
      rw [List.map_cons, ← List.singleton_append, innerJoin_append, List.map_append, ih hrest, hfirst,
        List.map_singleton, hname.1, hname.2, AssetKey.assetIdText_key]
      rfl

theorem tokensInOutput_added (h : TokensSound db) (ha : Adds db e rows db') :
    tokensInOutput db' = tokensInOutput db ++ (newTokens rows e).map tokenRow ∧ TokensSound db' := by
  have hids : (db'.multiAsset.map MultiAssetRecord.id).Nodup := by
    rw [ha.multiAsset, List.map_append, List.nodup_append]
    refine ⟨h.assetIds, ha.assets_ids, fun id hid id' hid' => ?_⟩
    obtain ⟨m, hm, rfl⟩ := List.mem_map.mp hid
    obtain ⟨m', hm', rfl⟩ := List.mem_map.mp hid'
    exact ha.assets_new m hm m' hm'
  have hold : innerJoin (fun (t : MaTxOutRecord) (m : MultiAssetRecord) => decide (t.ident = m.id))
      db.maTxOut db'.multiAsset =
        innerJoin (fun (t : MaTxOutRecord) (m : MultiAssetRecord) => decide (t.ident = m.id))
          db.maTxOut db.multiAsset := by
    rw [ha.multiAsset]
    apply innerJoin_append_right
    intro t ht m hm
    obtain ⟨m', hm', hident⟩ := h.idents t ht
    rw [← hident]
    exact decide_eq_false (ha.assets_new m' hm' m hm)
  refine ⟨?_, hids, fun t ht => ?_, fun m hm => ?_⟩
  · rw [tokensInOutput, ha.maTxOut, innerJoin_append, List.map_append, tokenRecords_shown hids ha.named, hold]
    rfl
  · rw [ha.maTxOut] at ht
    rcases List.mem_append.mp ht with ht | ht
    · obtain ⟨m, hm, hident⟩ := h.idents t ht
      exact ⟨m, ha.multiAsset ▸ List.mem_append_left _ hm, hident⟩
    · obtain ⟨p, hp, rfl⟩ := List.mem_map.mp ht
      obtain ⟨m, hm, hid, -⟩ := ha.named p hp
      exact ⟨m, hm, hid⟩
  · rw [ha.multiAsset] at hm
    rcases List.mem_append.mp hm with hm | hm
    · exact h.policies m hm
    · exact ha.policies m hm

end Tokens

section Representation

def shown (db : Tables) (row : TransactionOutput) : Output String String String :=
  { source := (row.txHash, row.index)
    payment :=
      { address := row.address
        value := row.value
        tokens := (HasuraClient.tokensOf db row).map fun token => (token.assetId, token.quantity) } }

/-- The view `Utxo` holds the unspent outputs of the ledger. -/
structure Represents (db : Tables) (l : Ledger String String AssetName) : Prop where
  unspent : (utxos db).map (shown db) = l.unspent.map (Output.renamed AssetName.assetId)
  names : db.tx.map TxRecord.hash = l.names
  hashes : (db.tx.map TxRecord.hash).Nodup
  ids : (db.tx.map TxRecord.id).Nodup
  txOut_tx : ∀ o ∈ db.txOut, ∃ t ∈ db.tx, t.id = o.txId
  txIn_tx : ∀ i ∈ db.txIn, ∃ t ∈ db.tx, t.id = i.txOutId
  maTxOut_txOut : ∀ t ∈ db.maTxOut, ∃ o ∈ db.txOut, o.id = t.txOutId
  tokens : TokensSound db

end Representation

section Step

variable {db db' : Tables} {l : Ledger String String AssetName} {e : Entry} {rows : NewRows}

theorem newOutputs_txId {o : TxOutRecord} (ho : o ∈ newOutputs rows e) : o.txId = rows.txId := by
  obtain ⟨p, -, rfl⟩ := List.mem_map.mp ho
  rfl

theorem tokensInOutput_txOut (h : Represents db l) {token : TokenInOutput} (ht : token ∈ tokensInOutput db) :
    ∃ o ∈ db.txOut, o.id = token.txOutId := by
  obtain ⟨p, hp, rfl⟩ := List.mem_map.mp ht
  exact h.maTxOut_txOut p.1 ((mem_innerJoin _ _ _ p.1 p.2).mp hp).1

theorem tokensOf_old (h : Represents db l) (ha : Adds db e rows db') {row : TransactionOutput}
    (hrow : ∃ o ∈ db.txOut, o.id = row.id) :
    HasuraClient.tokensOf db' row = HasuraClient.tokensOf db row := by
  rw [HasuraClient.tokensOf, HasuraClient.tokensOf, (tokensInOutput_added h.tokens ha).1]
  apply filter_append_none
  intro token ht
  obtain ⟨q, hq, rfl⟩ := List.mem_map.mp ht
  obtain ⟨p, -, hq⟩ := List.mem_flatMap.mp hq
  obtain ⟨t, -, rfl⟩ := List.mem_map.mp hq
  obtain ⟨o, ho, hid⟩ := hrow
  rw [← hid]
  exact decide_eq_false (ha.outId_new o ho p.2).symm

theorem tokensOf_new (h : Represents db l) (ha : Adds db e rows db') {p : Payment String AssetName × Nat}
    (hp : p ∈ e.transaction.outputs.zipIdx) :
    HasuraClient.tokensOf db' (outputRow (newTx rows e, newOutput rows p)) =
      p.1.tokens.map fun token => tokenRow (rows.outId p.2, token) := by
  have hold : (tokensInOutput db).filter (fun token => decide (token.txOutId = rows.outId p.2)) = [] := by
    rw [List.filter_eq_nil_iff]
    intro token ht
    obtain ⟨o, ho, hid⟩ := tokensInOutput_txOut h ht
    rw [← hid, decide_eq_true_iff]
    exact ha.outId_new o ho p.2
  have hids : (e.transaction.outputs.zipIdx.map fun q => rows.outId q.2).Nodup := by
    have hsnd : e.transaction.outputs.zipIdx.map (fun q => rows.outId q.2) =
        (List.range' 0 e.transaction.outputs.length).map rows.outId := by
      rw [← List.zipIdx_map_snd, List.map_map]
      rfl
    rw [hsnd]
    have hrange : (List.range' 0 e.transaction.outputs.length).Nodup := List.nodup_range'
    exact hrange.map ha.outId_injective
  have hnew : (newTokens rows e).map tokenRow = e.transaction.outputs.zipIdx.flatMap fun q =>
      q.1.tokens.map fun token => tokenRow (rows.outId q.2, token) := by
    rw [newTokens, List.map_flatMap]
    simp only [List.map_map]
    rfl
  rw [HasuraClient.tokensOf, (tokensInOutput_added h.tokens ha).1, List.filter_append, hnew]
  have hpiece : (e.transaction.outputs.zipIdx.flatMap fun q =>
      q.1.tokens.map fun token => tokenRow (rows.outId q.2, token)).filter
        (fun token => decide (token.txOutId = rows.outId p.2)) =
          p.1.tokens.map fun token => tokenRow (rows.outId p.2, token) := by
    refine filter_flatMap_key hids (fun q _ token ht => ?_) hp
    obtain ⟨t, -, rfl⟩ := List.mem_map.mp ht
    rfl
  exact (congrArg₂ _ hold hpiece).trans (List.nil_append _)

theorem txOutputs_added (h : Represents db l) (ha : Adds db e rows db') :
    txOutputs db' = txOutputs db ++ (newOutputs rows e).map fun o => (newTx rows e, o) := by
  have hold : innerJoin (fun (t : TxRecord) (o : TxOutRecord) => decide (t.id = o.txId)) db.tx
      (db.txOut ++ newOutputs rows e) = txOutputs db := by
    apply innerJoin_append_right
    intro t ht o ho
    rw [newOutputs_txId ho]
    exact decide_eq_false (ha.txId_new t ht)
  have hnew : innerJoin (fun (t : TxRecord) (o : TxOutRecord) => decide (t.id = o.txId)) [newTx rows e]
      (db.txOut ++ newOutputs rows e) = (newOutputs rows e).map fun o => (newTx rows e, o) := by
    have hnone : db.txOut.filter (fun o => decide ((newTx rows e).id = o.txId)) = [] := by
      rw [List.filter_eq_nil_iff]
      intro o ho
      obtain ⟨t, ht, hid⟩ := h.txOut_tx o ho
      rw [← hid, decide_eq_true_iff]
      exact (ha.txId_new t ht).symm
    have hall : (newOutputs rows e).filter (fun o => decide ((newTx rows e).id = o.txId)) = newOutputs rows e := by
      rw [List.filter_eq_self]
      intro o ho
      exact decide_eq_true (newOutputs_txId ho).symm
    rw [innerJoin, List.flatMap_singleton, List.filter_append, hnone, hall, List.nil_append]
  rw [txOutputs, ha.tx, ha.txOut, innerJoin_append, hold, hnew]

theorem newInputs_spends (h : Represents db l) {p : TxRecord × TxOutRecord} (hp : p ∈ txOutputs db) :
    (newInputs db rows e).any (spends p.2) = e.transaction.inputs.contains (p.1.hash, p.2.index) := by
  obtain ⟨ht, -, hid⟩ := (mem_innerJoin _ _ _ p.1 p.2).mp hp
  have hid : p.1.id = p.2.txId := of_decide_eq_true hid
  rw [Bool.eq_iff_iff, List.any_eq_true, List.contains_iff_mem]
  constructor
  · rintro ⟨i, hi, hspends⟩
    obtain ⟨source, hsource, hi⟩ := List.mem_filterMap.mp hi
    obtain ⟨t, hfound, rfl⟩ := Option.map_eq_some_iff.mp hi
    rw [spends, Bool.and_eq_true, decide_eq_true_iff, decide_eq_true_iff] at hspends
    have hsame : t = p.1 :=
      eq_of_key h.ids (List.mem_of_find?_eq_some hfound) ht (hid.trans hspends.1).symm
    have hhash : t.hash = source.1 := by simpa using List.find?_some hfound
    have hindex : p.2.index = source.2 := hspends.2
    rw [← hsame, hhash, hindex]
    exact hsource
  · intro hsource
    have hfound : db.tx.find? (fun t => decide (t.hash = p.1.hash)) = some p.1 :=
      find?_of_unique ht (decide_eq_true rfl) fun t htx hhash => eq_of_key h.hashes htx ht (of_decide_eq_true hhash)
    refine ⟨_, List.mem_filterMap.mpr ⟨_, hsource, by rw [inputOf, hfound]; rfl⟩, ?_⟩
    rw [spends, Bool.and_eq_true, decide_eq_true_iff, decide_eq_true_iff]
    exact ⟨hid.symm, rfl⟩

theorem newInputs_tx {i : TxInRecord} (hi : i ∈ newInputs db rows e) : ∃ t ∈ db.tx, t.id = i.txOutId := by
  obtain ⟨source, -, hi⟩ := List.mem_filterMap.mp hi
  obtain ⟨t, hfound, rfl⟩ := Option.map_eq_some_iff.mp hi
  exact ⟨t, List.mem_of_find?_eq_some hfound, rfl⟩

theorem newOutputs_unspent (h : Represents db l) (ha : Adds db e rows db') {o : TxOutRecord}
    (ho : o ∈ newOutputs rows e) : (db.txIn ++ newInputs db rows e).any (spends o) = false := by
  rw [List.any_eq_false]
  intro i hi hspends
  have href : ∃ t ∈ db.tx, t.id = i.txOutId := by
    rcases List.mem_append.mp hi with hi | hi
    · exact h.txIn_tx i hi
    · exact newInputs_tx hi
  obtain ⟨t, ht, hid⟩ := href
  rw [spends, Bool.and_eq_true, decide_eq_true_iff] at hspends
  exact ha.txId_new t ht (by rw [hid, ← hspends.1, newOutputs_txId ho])

theorem created_shown (h : Represents db l) (ha : Adds db e rows db') :
    ((newOutputs rows e).map fun o => shown db' (outputRow (newTx rows e, o))) =
      (created e.transaction).map (Output.renamed AssetName.assetId) := by
  rw [newOutputs, created, List.map_map, List.map_map]
  apply List.map_congr_left
  intro p hp
  rw [Function.comp_apply, shown, tokensOf_new h ha hp, List.map_map]
  rfl

theorem utxos_added (h : Represents db l) (ha : Adds db e rows db') :
    (utxos db').map (shown db') =
      ((utxos db).map (shown db)).filter (fun o => !e.transaction.inputs.contains o.source) ++
        (created e.transaction).map (Output.renamed AssetName.assetId) := by
  have hold : (txOutputs db).filter (fun p => !(db.txIn ++ newInputs db rows e).any (spends p.2)) =
      ((txOutputs db).filter fun p => !db.txIn.any (spends p.2)).filter fun p =>
        !e.transaction.inputs.contains (p.1.hash, p.2.index) := by
    rw [List.filter_filter]
    apply List.filter_congr
    intro p hp
    rw [List.any_append, newInputs_spends h hp, Bool.not_or, Bool.and_comm]
  have hnew : ((newOutputs rows e).map fun o => (newTx rows e, o)).filter
      (fun p => !(db.txIn ++ newInputs db rows e).any (spends p.2)) =
        (newOutputs rows e).map fun o => (newTx rows e, o) := by
    rw [List.filter_eq_self]
    intro p hp
    obtain ⟨o, ho, rfl⟩ := List.mem_map.mp hp
    rw [newOutputs_unspent h ha ho]
    rfl
  have hshown : ∀ p ∈ txOutputs db, shown db' (outputRow p) = shown db (outputRow p) := by
    intro p hp
    rw [shown, shown, tokensOf_old h ha ⟨p.2, ((mem_innerJoin _ _ _ p.1 p.2).mp hp).2.1, rfl⟩]
  rw [utxos_eq, utxos_eq, txOutputs_added h ha, ha.txIn, List.filter_append, hold, hnew, List.map_append,
    List.map_append, ← created_shown h ha]
  congr 1
  · rw [List.map_map, List.map_map, List.filter_map]
    have hmem : ∀ p ∈ ((txOutputs db).filter fun p => !db.txIn.any (spends p.2)).filter
        (fun p => !e.transaction.inputs.contains (p.1.hash, p.2.index)), p ∈ txOutputs db :=
      fun p hp => (List.mem_filter.mp (List.mem_filter.mp hp).1).1
    exact List.map_congr_left fun p hp => hshown p (hmem p hp)
  · rw [List.map_map, List.map_map]
    rfl

/-- The step of the simulation: a transaction that the ledger accepts. -/
theorem represents_added {l' : Ledger String String AssetName} (h : Represents db l) (ha : Adds db e rows db')
    (happly : l.apply e.transaction = some l') : Represents db' l' := by
  obtain ⟨hname, -, hnames, hunspent⟩ := apply_some happly
  have hhash : db'.tx.map TxRecord.hash = l'.names := by
    rw [ha.tx, List.map_append, h.names, hnames]
    rfl
  have hmem : ∀ t ∈ db.tx, t ∈ db'.tx := fun t ht => ha.tx ▸ List.mem_append_left _ ht
  refine
    { unspent := ?_
      names := hhash
      hashes := ?_
      ids := ?_
      txOut_tx := ?_
      txIn_tx := ?_
      maTxOut_txOut := ?_
      tokens := (tokensInOutput_added h.tokens ha).2 }
  · rw [utxos_added h ha, h.unspent, hunspent, List.map_append, List.filter_map]
    rfl
  · rw [hhash, hnames, List.nodup_append]
    refine ⟨h.names ▸ h.hashes, List.nodup_singleton _, fun name hn name' hn' => ?_⟩
    rw [List.mem_singleton.mp hn']
    rintro rfl
    exact hname hn
  · rw [ha.tx, List.map_append, List.nodup_append]
    refine ⟨h.ids, List.nodup_singleton _, fun id hid id' hid' => ?_⟩
    obtain ⟨t, ht, rfl⟩ := List.mem_map.mp hid
    rw [List.map_singleton, List.mem_singleton] at hid'
    exact hid' ▸ ha.txId_new t ht
  · intro o ho
    rw [ha.txOut] at ho
    rcases List.mem_append.mp ho with ho | ho
    · obtain ⟨t, ht, hid⟩ := h.txOut_tx o ho
      exact ⟨t, hmem t ht, hid⟩
    · exact ⟨newTx rows e, ha.tx ▸ List.mem_append_right _ List.mem_cons_self, (newOutputs_txId ho).symm⟩
  · intro i hi
    rw [ha.txIn] at hi
    have href : ∃ t ∈ db.tx, t.id = i.txOutId := by
      rcases List.mem_append.mp hi with hi | hi
      · exact h.txIn_tx i hi
      · exact newInputs_tx hi
    obtain ⟨t, ht, hid⟩ := href
    exact ⟨t, hmem t ht, hid⟩
  · intro t ht
    rw [ha.txOut]
    rw [ha.maTxOut] at ht
    rcases List.mem_append.mp ht with ht | ht
    · obtain ⟨o, ho, hid⟩ := h.maTxOut_txOut t ht
      exact ⟨o, List.mem_append_left _ ho, hid⟩
    · obtain ⟨q, hq, rfl⟩ := List.mem_map.mp ht
      obtain ⟨p, hp, hq⟩ := List.mem_flatMap.mp hq
      obtain ⟨token, -, rfl⟩ := List.mem_map.mp hq
      exact ⟨newOutput rows p, List.mem_append_right _ (List.mem_map_of_mem hp), rfl⟩

theorem source_named (h : Represents db l) {o : Output String String AssetName} (ho : o ∈ l.unspent) :
    o.source.1 ∈ l.names := by
  have hshown : o.renamed AssetName.assetId ∈ (utxos db).map (shown db) :=
    h.unspent.symm ▸ List.mem_map_of_mem ho
  obtain ⟨row, hrow, heq⟩ := List.mem_map.mp hshown
  rw [utxos_eq] at hrow
  obtain ⟨p, hp, rfl⟩ := List.mem_map.mp hrow
  have hp := ((mem_innerJoin _ _ _ p.1 p.2).mp (List.mem_filter.mp hp).1).1
  have hsource : o.source.1 = p.1.hash := (congrArg (fun o => o.source.1) heq).symm
  rw [hsource, ← h.names]
  exact List.mem_map_of_mem hp

theorem resolves_of_apply {l' : Ledger String String AssetName} (h : Represents db l)
    (happly : l.apply e.transaction = some l') : Resolves db e := by
  intro source hsource
  obtain ⟨-, hsources, -, -⟩ := apply_some happly
  obtain ⟨o, ho, rfl⟩ := hsources source hsource
  have hnamed := source_named h ho
  rw [← h.names] at hnamed
  exact List.mem_map.mp hnamed

end Step

def follow (l : Ledger String String AssetName) (e : Entry) : Option (Ledger String String AssetName) :=
  l.apply e.transaction

section Run

variable {record : Tables → Entry → Tables} {db : Tables} {l l' : Ledger String String AssetName}

theorem recorded (hrecord : Records record) (h : Represents db l) {e : Entry} (hstep : follow l e = some l') :
    ∃ rows, Adds db e rows (record db e) ∧ Represents (record db e) l' := by
  obtain ⟨rows, ha⟩ := hrecord db e (resolves_of_apply h hstep)
  exact ⟨rows, ha, represents_added h ha hstep⟩

theorem represented (hrecord : Records record) {es : List Entry} (h : Represents db l)
    (hrun : run follow l es = some l') : Represents (es.foldl record db) l' := by
  induction es generalizing db l with
  | nil => exact Option.some.inj hrun ▸ h
  | cons e es ih =>
      obtain ⟨m, hm, hrest⟩ := Option.bind_eq_some_iff.mp hrun
      obtain ⟨rows, -, hnext⟩ := recorded hrecord h hm
      exact ih hnext hrest

structure NoTransactions (db : Tables) : Prop where
  tx : db.tx = []
  txOut : db.txOut = []
  txIn : db.txIn = []
  maTxOut : db.maTxOut = []
  assetIds : (db.multiAsset.map MultiAssetRecord.id).Nodup
  policies : ∀ m ∈ db.multiAsset, m.policy.length = 58

theorem NoTransactions.represents (h : NoTransactions db) : Represents db .empty where
  unspent := by
    rw [utxos_eq, txOutputs, h.tx]
    rfl
  names := by
    rw [h.tx]
    rfl
  hashes := by
    rw [h.tx]
    exact List.nodup_nil
  ids := by
    rw [h.tx]
    exact List.nodup_nil
  txOut_tx := by
    rw [h.txOut]
    exact List.forall_mem_nil _
  txIn_tx := by
    rw [h.txIn]
    exact List.forall_mem_nil _
  maTxOut_txOut := by
    rw [h.maTxOut]
    exact List.forall_mem_nil _
  tokens :=
    { assetIds := h.assetIds
      idents := by
        rw [h.maTxOut]
        exact List.forall_mem_nil _
      policies := h.policies }

theorem block_recorded (hrecord : Records record) {es : List Entry} (h : Represents db l)
    (hrun : run follow l es = some l') : (es.foldl record db).block = db.block := by
  induction es generalizing db l with
  | nil => rfl
  | cons e es ih =>
      obtain ⟨m, hm, hrest⟩ := Option.bind_eq_some_iff.mp hrun
      obtain ⟨rows, ha, hnext⟩ := recorded hrecord h hm
      exact (ih hnext hrest).trans ha.block

end Run

section Summary

open HasuraClient AddressSummary SummaryLimits

variable {db : Tables} {l : Ledger String String AssetName}

def databaseOf (db : Tables) (h : Represents db l) (hid : (db.block.map BlockRecord.id).Nodup)
    (hhash : (db.block.map BlockRecord.hash).Nodup) : Database :=
  { db with
    block_id := hid
    block_hash := hhash
    tx_id := h.ids
    tx_hash := h.hashes
    policy_length := h.tokens.policies }

theorem addressUtxos_of_ledger (h : Represents db l) (address : String) :
    (addressUtxos db address).map (shown db) = (l.outputsOf address).map (Output.renamed AssetName.assetId) := by
  have hfilter : (addressUtxos db address).map (shown db) =
      ((utxos db).map (shown db)).filter fun o => decide (o.payment.address = address) := by
    rw [addressUtxos, List.filter_map]
    rfl
  rw [hfilter, h.unspent, Ledger.outputsOf, List.filter_map]
  rfl

theorem adaTotal_shown (rows : List TransactionOutput) :
    adaTotal rows = ((rows.map (shown db)).map fun o => o.payment.value).sum := by
  rw [adaTotal, List.map_map]
  rfl

theorem assetTotal_shown (rows : List TransactionOutput) (assetId : String) :
    assetTotal (tokensOf db) rows assetId =
      ((rows.map (shown db)).map fun o => amountOf o.payment.tokens assetId).sum := by
  rw [assetTotal, List.map_map]
  congr 1
  apply List.map_congr_left
  intro row _
  rw [Function.comp_apply, shown, tokenTotal, amountOf, List.filter_map, List.map_map]
  rfl

theorem assetId_ne_ada (a : AssetName) : a.assetId ≠ adaAsset.assetId := by
  intro h
  have hlength := congrArg String.length h
  have hada : adaAsset.assetId.length = 5 := by decide
  have hprefix : "\\x".length = 2 := by decide
  have hpolicy := a.policy_length
  rw [hada, AssetName.assetId, byteaOut, String.length_append, hexText_length, hprefix, List.length_append] at hlength
  omega

def Few (outputs : List (Output String String AssetName)) : Prop :=
  outputs.length ≤ selectLimit ∧ ∀ o ∈ outputs, o.payment.tokens.length ≤ selectLimit

structure Summarises (outputs : List (Output String String AssetName)) (summary : PaymentAddressSummary) : Prop where
  count : summary.utxosCount = outputs.length
  ada : Few outputs → balance summary adaAsset.assetId = some (outputs.map fun o => o.payment.value).sum
  assets : Few outputs → ∀ a : AssetName,
    balance summary a.assetId = some (outputs.map fun o => amountOf o.payment.tokens a).sum

section Matching

variable {rows : List TransactionOutput} {outputs : List (Output String String AssetName)}

theorem output_of_row (hrows : rows.map (shown db) = outputs.map (Output.renamed AssetName.assetId))
    {row : TransactionOutput} (hrow : row ∈ rows) :
    ∃ o ∈ outputs, (tokensOf db row).map (fun token => (token.assetId, token.quantity)) =
      o.payment.tokens.map fun token => (token.1.assetId, token.2) := by
  have hmem : shown db row ∈ outputs.map (Output.renamed AssetName.assetId) := hrows ▸ List.mem_map_of_mem hrow
  obtain ⟨o, ho, heq⟩ := List.mem_map.mp hmem
  exact ⟨o, ho, (congrArg (fun shown => shown.payment.tokens) heq).symm⟩

theorem totals_of_outputs (hrows : rows.map (shown db) = outputs.map (Output.renamed AssetName.assetId)) :
    adaTotal rows = (outputs.map fun o => o.payment.value).sum ∧
      ∀ a : AssetName, assetTotal (tokensOf db) rows a.assetId =
        (outputs.map fun o => amountOf o.payment.tokens a).sum := by
  constructor
  · rw [@adaTotal_shown db, hrows, List.map_map]
    rfl
  · intro a
    rw [assetTotal_shown, hrows, List.map_map]
    congr 1
    apply List.map_congr_left
    intro o _
    exact amountOf_renamed assetId_injective o.payment.tokens a

theorem summary_of_outputs (h : Represents db l) (hid : (db.block.map BlockRecord.id).Nodup)
    (hhash : (db.block.map BlockRecord.hash).Nodup) (assets : List HasuraBackgroundClient.Asset) (address : String)
    (atBlock : Option Int) (hmatching : matchingUtxos db address atBlock = rows)
    (hrows : rows.map (shown db) = outputs.map (Output.renamed AssetName.assetId))
    (hassets : ∀ o ∈ outputs, ∀ token ∈ o.payment.tokens, ∃ row ∈ assets, row.assetId = token.1.assetId) :
    ∃ summary, getPaymentAddressSummary db assets address atBlock = .ok summary ∧ Summarises outputs summary := by
  have hknown : KeptKnown db assets (matchingUtxos db address atBlock) := by
    intro row hrow token ht
    rw [hmatching] at hrow
    obtain ⟨o, ho, htokens⟩ := output_of_row hrows (List.mem_of_mem_take hrow)
    have hmem := List.mem_map_of_mem (f := fun t : TokenInOutput => (t.assetId, t.quantity)) (List.mem_of_mem_take ht)
    rw [htokens] at hmem
    obtain ⟨held, hheld, hsame⟩ := List.mem_map.mp hmem
    obtain ⟨asset, hasset, hid⟩ := hassets o ho held hheld
    exact ⟨asset, hasset, hid.trans (congrArg Prod.fst hsame)⟩
  obtain ⟨summary, hsummary, hsumAda, hsumAssets, hcount⟩ :=
    summary_of_known (databaseOf db h hid hhash) assets address atBlock hknown
  have htables : (databaseOf db h hid hhash).toTables = db := rfl
  rw [htables, hmatching] at hsumAda hsumAssets hcount
  obtain ⟨hada, hholding⟩ := totals_of_outputs hrows
  have hlength : rows.length = outputs.length := by
    rw [← List.length_map (shown db), hrows, List.length_map]
  have htake : Few outputs → rows.take selectLimit = rows :=
    fun hfew => List.take_of_length_le (hlength.trans_le hfew.1)
  have hkept : Few outputs → ∀ a : AssetName,
      assetTotal (keptTokens db) rows a.assetId = (outputs.map fun o => amountOf o.payment.tokens a).sum := by
    intro hfew a
    rw [← hholding a, assetTotal, assetTotal]
    congr 1
    apply List.map_congr_left
    intro row hrow
    obtain ⟨o, ho, htokens⟩ := output_of_row hrows hrow
    have hsame := congrArg List.length htokens
    rw [List.length_map, List.length_map] at hsame
    rw [keptTokens, List.take_of_length_le (hsame.trans_le (hfew.2 o ho))]
  refine ⟨summary, hsummary, hcount.trans hlength, fun hfew => ?_, fun hfew a => ?_⟩
  · rw [hsumAda, htake hfew, hada]
  · rw [hsumAssets a.assetId (assetId_ne_ada a), htake hfew, hkept hfew]

end Matching

def WithinLimits (l : Ledger String String AssetName) (address : String) : Prop := Few (l.outputsOf address)

structure Agrees (l : Ledger String String AssetName) (address : String) (summary : PaymentAddressSummary) :
    Prop where
  count : summary.utxosCount = (l.outputsOf address).length
  ada : WithinLimits l address → balance summary adaAsset.assetId = some (l.balance address)
  assets : WithinLimits l address → ∀ a : AssetName, balance summary a.assetId = some (l.holding address a)

theorem summary_of_represented (h : Represents db l) (hid : (db.block.map BlockRecord.id).Nodup)
    (hhash : (db.block.map BlockRecord.hash).Nodup) (assets : List HasuraBackgroundClient.Asset) (address : String)
    (hassets : ∀ o ∈ l.outputsOf address, ∀ token ∈ o.payment.tokens,
      ∃ row ∈ assets, row.assetId = token.1.assetId) :
    ∃ summary, getPaymentAddressSummary db assets address none = .ok summary ∧ Agrees l address summary := by
  obtain ⟨summary, hsummary, hsums⟩ := summary_of_outputs h hid hhash assets address none
    (matchingUtxos_none db address) (addressUtxos_of_ledger h address) hassets
  exact ⟨summary, hsummary, hsums.count, hsums.ada, hsums.assets⟩

/-- What the API says of an address after any chain of transactions, with the assets it knows. -/
theorem summary_of_ledger {record : Tables → Entry → Tables} (hrecord : Records record) {db : Database}
    {l l' : Ledger String String AssetName} {es : List Entry}
    (h : Represents db.toTables l) (hrun : run follow l es = some l')
    (assets : List HasuraBackgroundClient.Asset) (address : String)
    (hassets : ∀ o ∈ l'.outputsOf address, ∀ token ∈ o.payment.tokens,
      ∃ row ∈ assets, row.assetId = token.1.assetId) :
    ∃ summary, getPaymentAddressSummary (es.foldl record db.toTables) assets address none = .ok summary ∧
      Agrees l' address summary := by
  have hblock := block_recorded hrecord h hrun
  exact summary_of_represented (represented hrecord h hrun) (hblock ▸ db.block_id) (hblock ▸ db.block_hash) assets
    address hassets

end Summary

section Numbered

def fresh (ids : List Nat) : Nat := ids.foldr max 0 + 1

theorem lt_fresh {ids : List Nat} {k : Nat} (h : k ∈ ids) : k < fresh ids := by
  induction ids with
  | nil => cases h
  | cons id ids ih =>
      rw [fresh, List.foldr_cons]
      rcases List.mem_cons.mp h with rfl | h
      · omega
      · have := ih h
        rw [fresh] at this
        omega

theorem lt_next {ids : List Nat} {k : Nat} (h : k ∈ ids) (index : Nat) : k < fresh ids + index :=
  (lt_fresh h).trans_le (Nat.le_add_right _ index)

theorem nextIds_nodup {α : Type} (ids : List Nat) (xs : List α) :
    (xs.zipIdx.map fun p => fresh ids + p.2).Nodup := by
  have hids : (xs.zipIdx.map fun p => fresh ids + p.2) =
      (List.range' 0 xs.length).map fun index => fresh ids + index := by
    rw [← List.zipIdx_map_snd, List.map_map]
    rfl
  have hrange : (List.range' 0 xs.length).Nodup := List.nodup_range'
  rw [hids]
  exact hrange.map fun i j hij => Nat.add_left_cancel hij

def newAssets (db : Tables) (e : Entry) : List AssetName :=
  (e.transaction.outputs.flatMap fun payment => payment.tokens.map Prod.fst).dedup.filter fun a =>
    !db.multiAsset.any (names a)

def assetRow (db : Tables) (p : AssetName × Nat) : MultiAssetRecord :=
  { id := fresh (db.multiAsset.map MultiAssetRecord.id) + p.2
    policy := byteaOut p.1.policy
    name := byteaOut p.1.name }

def nextRows (db : Tables) (e : Entry) : NewRows :=
  let assets := (newAssets db e).zipIdx.map (assetRow db)
  { txId := fresh (db.tx.map TxRecord.id)
    outId := fun index => fresh (db.txOut.map TxOutRecord.id) + index
    assets := assets
    ident := fun a => (((db.multiAsset ++ assets).find? (names a)).map MultiAssetRecord.id).getD 0 }

/-- A writer that numbers the rows of a table one after the other. -/
def numbered (db : Tables) (e : Entry) : Tables :=
  { block := db.block
    tx := db.tx ++ [newTx (nextRows db e) e]
    txOut := db.txOut ++ newOutputs (nextRows db e) e
    txIn := db.txIn ++ newInputs db (nextRows db e) e
    multiAsset := db.multiAsset ++ (nextRows db e).assets
    maTxOut := db.maTxOut ++ (newTokens (nextRows db e) e).map (tokenRecord (nextRows db e)) }

variable {db : Tables} {e : Entry}

theorem nextRows_named {p : Nat × AssetName × Nat} (hp : p ∈ newTokens (nextRows db e) e) :
    ∃ m ∈ db.multiAsset ++ (nextRows db e).assets, names p.2.1 m = true := by
  by_cases hknown : db.multiAsset.any (names p.2.1) = true
  · obtain ⟨m, hm, hname⟩ := List.any_eq_true.mp hknown
    exact ⟨m, List.mem_append_left _ hm, hname⟩
  · obtain ⟨q, hq, hp⟩ := List.mem_flatMap.mp hp
    obtain ⟨token, htoken, rfl⟩ := List.mem_map.mp hp
    have houtput : q.1 ∈ e.transaction.outputs := by
      rw [← List.zipIdx_map_fst 0 e.transaction.outputs]
      exact List.mem_map_of_mem hq
    have hnew : token.1 ∈ newAssets db e := by
      rw [newAssets, List.mem_filter, List.mem_dedup, List.mem_flatMap]
      exact ⟨⟨q.1, houtput, List.mem_map_of_mem htoken⟩, by simpa using hknown⟩
    rw [← List.zipIdx_map_fst 0 (newAssets db e)] at hnew
    obtain ⟨a, ha, hname⟩ := List.mem_map.mp hnew
    refine ⟨assetRow db a, List.mem_append_right _ (List.mem_map_of_mem ha), ?_⟩
    rw [names, assetRow, hname, decide_eq_true rfl, decide_eq_true rfl, Bool.and_self]

theorem numbered_records : Records numbered := by
  intro db e _
  refine ⟨nextRows db e, rfl, rfl, rfl, rfl, rfl, rfl, ?_, ?_, ?_, ?_, ?_, ?_, ?_⟩
  · exact fun t ht => Nat.ne_of_lt (lt_fresh (List.mem_map_of_mem ht))
  · exact fun o ho index => Nat.ne_of_lt (lt_next (List.mem_map_of_mem ho) index)
  · exact fun i j hij => Nat.add_left_cancel hij
  · intro m hm m' hm'
    obtain ⟨p, -, rfl⟩ := List.mem_map.mp hm'
    exact Nat.ne_of_lt (lt_next (List.mem_map_of_mem hm) p.2)
  · rw [nextRows, List.map_map]
    exact nextIds_nodup (db.multiAsset.map MultiAssetRecord.id) (newAssets db e)
  · intro m hm
    obtain ⟨p, -, rfl⟩ := List.mem_map.mp hm
    rw [assetRow, byteaOut, String.length_append, hexText_length, p.1.policy_length]
    rfl
  · intro p hp
    obtain ⟨m, hm, hname⟩ := nextRows_named hp
    obtain ⟨found, hfound⟩ := Option.isSome_iff_exists.mp (List.find?_isSome.mpr ⟨m, hm, hname⟩)
    refine ⟨found, List.mem_of_find?_eq_some hfound, ?_, List.find?_some hfound⟩
    show found.id = (((db.multiAsset ++ (nextRows db e).assets).find? (names p.2.1)).map MultiAssetRecord.id).getD 0
    rw [hfound]
    rfl

end Numbered

theorem no_policies : ∀ m ∈ ([] : List MultiAssetRecord), m.policy.length = 58 := List.forall_mem_nil _

def emptyDatabase : Database where
  block := [⟨1, "b1", some 1, some 20⟩]
  tx := []
  txOut := []
  txIn := []
  multiAsset := []
  maTxOut := []
  block_id := List.nodup_singleton _
  block_hash := List.nodup_singleton _
  tx_id := List.nodup_nil
  tx_hash := List.nodup_nil
  policy_length := no_policies

theorem emptyDatabase_noTransactions : NoTransactions emptyDatabase.toTables :=
  ⟨rfl, rfl, rfl, rfl, List.nodup_nil, no_policies⟩

theorem represents_empty : Represents emptyDatabase.toTables .empty := emptyDatabase_noTransactions.represents

def coin : AssetName := ⟨List.replicate 28 0, [0x61], List.length_replicate⟩

def payment : List Entry :=
  [⟨⟨"t1", [], [⟨"addr1", 5, []⟩, ⟨"addr2", 7, [(coin, 3)]⟩]⟩, 1, some 0⟩,
    ⟨⟨"t2", [("t1", 0)], [⟨"addr2", 4, [(coin, 2)]⟩]⟩, 1, some 1⟩]

def paid : Ledger String String AssetName :=
  ⟨["t1", "t2"], [⟨("t1", 1), "addr2", 7, [(coin, 3)]⟩, ⟨("t2", 0), "addr2", 4, [(coin, 2)]⟩]⟩

def coinRow : HasuraBackgroundClient.Asset :=
  HasuraBackgroundClient.insertInput
    { assetId := hexText (coin.policy ++ coin.name)
      assetName := some (hexText coin.name)
      firstAppearedInSlot := 20
      fingerprint := "asset1"
      policyId := hexText coin.policy }

theorem payment_summary :
    ∃ summary, HasuraClient.getPaymentAddressSummary (payment.foldl numbered emptyDatabase.toTables) [coinRow] "addr2"
        none = .ok summary ∧ summary.utxosCount = 2 ∧
      AddressSummary.balance summary HasuraClient.adaAsset.assetId = some 11 ∧
      AddressSummary.balance summary coin.assetId = some 5 := by
  have hassets : ∀ o ∈ paid.outputsOf "addr2", ∀ token ∈ o.payment.tokens,
      ∃ row ∈ [coinRow], row.assetId = token.1.assetId := by
    decide
  obtain ⟨summary, hsummary, hagrees⟩ :=
    @summary_of_ledger numbered numbered_records emptyDatabase .empty paid payment represents_empty (by decide) [coinRow]
      "addr2" hassets
  have hfew : WithinLimits paid "addr2" := ⟨by decide, by decide⟩
  exact ⟨summary, hsummary, hagrees.count, hagrees.ada hfew, hagrees.assets hfew coin⟩

end CardanoGraphql.LedgerViews
