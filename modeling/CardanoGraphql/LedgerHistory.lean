import CardanoGraphql.LedgerViews
import CardanoGraphql.UnspentAfter

namespace CardanoGraphql.LedgerHistory

open Runs DbSync SqlJoin UtxoLedger LedgerViews UnspentAfter HasuraClient

def numberedUpTo (db : Tables) (b blockId : Nat) : Bool :=
  db.block.any fun r => decide (r.id = blockId) && r.blockNo.any fun number => decide (number ≤ b)

/-- Block `b` ends with the last of the transactions of `before`. -/
structure EndsAt (db : Tables) (b : Nat) (before after : List Entry) : Prop where
  stored : ∀ t ∈ db.tx, includedUpTo db b t = true
  upTo : ∀ e ∈ before, numberedUpTo db b e.blockId = true
  beyond : ∀ e ∈ after, numberedUpTo db b e.blockId = false

/-- What a summary at block `b` counts: of the outputs that the ledger had then those that
nothing has spent since, and at block 0 those it has now. -/
def countedAt (b : Nat) (past present : Ledger String String AssetName) (after : List Entry) (address : String) :
    List (Output String String AssetName) :=
  if b = 0 then present.outputsOf address
  else (past.outputsOf address).filter fun o => !spentBy (after.map Entry.transaction) o

section Recorded

variable {record : Tables → Entry → Tables} {db : Tables} {l l' : Ledger String String AssetName} {es : List Entry}

theorem tx_recorded (hrecord : Records record) (h : Represents db l) (hrun : run follow l es = some l') :
    ∃ rows, (es.foldl record db).tx = db.tx ++ rows ∧ ∀ t ∈ rows, ∃ e ∈ es, t.blockId = e.blockId := by
  induction es generalizing db l with
  | nil => exact ⟨[], (List.append_nil _).symm, List.forall_mem_nil _⟩
  | cons e es ih =>
      obtain ⟨m, hm, hrest⟩ := Option.bind_eq_some_iff.mp hrun
      obtain ⟨added, ha, hnext⟩ := recorded hrecord h hm
      obtain ⟨rows, hrows, hblocks⟩ := ih hnext hrest
      refine ⟨newTx added e :: rows, ?_, ?_⟩
      · rw [List.foldl_cons, hrows, ha.tx, List.append_assoc]
        rfl
      · intro t ht
        rcases List.mem_cons.mp ht with rfl | ht
        · exact ⟨e, List.mem_cons_self, rfl⟩
        · obtain ⟨e', he', hblock⟩ := hblocks t ht
          exact ⟨e', List.mem_cons_of_mem e he', hblock⟩

theorem run_transactions (hrun : run follow l es = some l') :
    run Ledger.apply l (es.map Entry.transaction) = some l' := by
  induction es generalizing l with
  | nil => exact hrun
  | cons e es ih =>
      obtain ⟨m, hm, hrest⟩ := Option.bind_eq_some_iff.mp hrun
      have happly : l.apply e.transaction = some m := hm
      rw [List.map_cons, run_cons _ happly]
      exact ih hrest

end Recorded

section Summary

variable {record : Tables → Entry → Tables} {db : Database} {l past present : Ledger String String AssetName}
  {before after : List Entry} {b : Nat}

theorem inBlockUpTo_named (hrecord : Records record) (h : Represents db.toTables l)
    (hbefore : run follow l before = some past)
    (hafter : run follow past after = some present) (hends : EndsAt db.toTables b before after)
    {row : TransactionOutput} (hrow : row ∈ utxos ((before ++ after).foldl record db.toTables)) :
    inBlockUpTo ((before ++ after).foldl record db.toTables) b row = past.names.contains row.txHash := by
  have hrun : run follow l (before ++ after) = some present := by
    rw [run_append, hbefore]
    exact hafter
  have hpast := represented hrecord h hbefore
  have hpresent := represented hrecord h hrun
  have hblock := block_recorded hrecord h hrun
  obtain ⟨rows, hrows, hold⟩ := tx_recorded hrecord h hbefore
  obtain ⟨newer, hnewer, hnew⟩ := tx_recorded hrecord hpast hafter
  rw [← List.foldl_append] at hnewer
  have hnumbered : ∀ t, includedUpTo ((before ++ after).foldl record db.toTables) b t =
      numberedUpTo db.toTables b t.blockId := by
    intro t
    rw [includedUpTo, hblock, numberedUpTo]
  rw [utxos_eq] at hrow
  obtain ⟨p, hp, rfl⟩ := List.mem_map.mp hrow
  have hp := (List.mem_filter.mp hp).1
  have hincluded := inBlockUpTo_outputRow
    (databaseOf _ hpresent (hblock ▸ db.block_id) (hblock ▸ db.block_hash)) hp b
  refine hincluded.trans ((hnumbered p.1).trans ?_)
  have hhash : (outputRow p).txHash = p.1.hash := rfl
  have htx := ((mem_innerJoin _ _ _ p.1 p.2).mp hp).1
  rw [hnewer] at htx
  rw [hhash, ← hpast.names]
  rcases List.mem_append.mp htx with htx | htx
  · have hin : numberedUpTo db.toTables b p.1.blockId = true := by
      rw [hrows] at htx
      rcases List.mem_append.mp htx with htx | htx
      · exact hends.stored p.1 htx
      · obtain ⟨e, he, hid⟩ := hold p.1 htx
        rw [hid]
        exact hends.upTo e he
    rw [hin, eq_comm, List.contains_iff_mem]
    exact List.mem_map_of_mem htx
  · obtain ⟨e, he, hid⟩ := hnew p.1 htx
    have hhashes := hpresent.hashes
    rw [hnewer, List.map_append, List.nodup_append] at hhashes
    have hout : p.1.hash ∉ (before.foldl record db.toTables).tx.map TxRecord.hash := fun hin =>
      hhashes.2.2 p.1.hash hin p.1.hash (List.mem_map_of_mem htx) rfl
    rw [hid, hends.beyond e he, eq_comm, ← Bool.not_eq_true, List.contains_iff_mem]
    exact hout

theorem unspent_of_past (hrecord : Records record) (h : Represents db.toTables l)
    (hbefore : run follow l before = some past)
    (hafter : run follow past after = some present) :
    (present.unspent.filter fun o => past.names.contains o.source.1) =
      past.unspent.filter fun o => !spentBy (after.map Entry.transaction) o := by
  rw [unspent_of_names (fun name hname => hname) (run_transactions hafter)]
  congr 1
  rw [List.filter_eq_self]
  intro o ho
  exact List.contains_iff_mem.mpr (source_named (represented hrecord h hbefore) ho)

theorem matchingUtxos_named {final : Tables} (hb : b ≠ 0)
    (hnamed : ∀ row ∈ utxos final, inBlockUpTo final b row = past.names.contains row.txHash) (address : String) :
    (matchingUtxos final address (some (b : Int))).map (shown final) =
      ((utxos final).map (shown final)).filter fun o =>
        decide (o.payment.address = address) && past.names.contains o.source.1 := by
  have hzero : decide ((some (b : Int)).getD 0 = 0) = false := by
    rw [decide_eq_false_iff_not, Option.getD_some]
    omega
  have hrows : matchingUtxos final address (some (b : Int)) = (utxos final).filter fun row =>
      decide ((shown final row).payment.address = address) && past.names.contains (shown final row).source.1 := by
    rw [matchingUtxos]
    apply List.filter_congr
    intro row hrow
    rw [hzero, Bool.false_or, Option.getD_some, hnamed row hrow]
    rfl
  rw [hrows, List.filter_map]
  rfl

theorem matching_counted (hrecord : Records record) (h : Represents db.toTables l)
    (hbefore : run follow l before = some past)
    (hafter : run follow past after = some present) (hends : EndsAt db.toTables b before after) (address : String) :
    (matchingUtxos ((before ++ after).foldl record db.toTables) address (some (b : Int))).map
        (shown ((before ++ after).foldl record db.toTables)) =
      (countedAt b past present after address).map (Output.renamed AssetName.assetId) := by
  have hrun : run follow l (before ++ after) = some present := by
    rw [run_append, hbefore]
    exact hafter
  have hpresent := represented hrecord h hrun
  by_cases hb : b = 0
  · subst hb
    rw [countedAt, if_pos rfl, ← addressUtxos_of_ledger hpresent, ← SummaryLimits.matchingUtxos_none]
    rfl
  · have hnamed : ∀ row ∈ utxos ((before ++ after).foldl record db.toTables),
        inBlockUpTo ((before ++ after).foldl record db.toTables) b row = past.names.contains row.txHash :=
      fun _ hrow => inBlockUpTo_named hrecord h hbefore hafter hends hrow
    have hrenamed : (present.unspent.map (Output.renamed AssetName.assetId)).filter
          (fun o => decide (o.payment.address = address) && past.names.contains o.source.1) =
        (present.unspent.filter fun o => decide (o.payment.address = address) &&
          past.names.contains o.source.1).map (Output.renamed AssetName.assetId) := by
      rw [List.filter_map]
      rfl
    rw [matchingUtxos_named hb hnamed, hpresent.unspent, hrenamed, ← List.filter_filter,
      unspent_of_past hrecord h hbefore hafter, countedAt, if_neg hb, Ledger.outputsOf, List.filter_filter,
      List.filter_filter]
    congr 1
    apply List.filter_congr
    intro o _
    exact Bool.and_comm _ _

/-- What the API says of an address at a block that has passed. -/
theorem historical_summary_of_ledger (hrecord : Records record) (h : Represents db.toTables l)
    (hbefore : run follow l before = some past)
    (hafter : run follow past after = some present) (hends : EndsAt db.toTables b before after)
    (assets : List HasuraBackgroundClient.Asset) (address : String)
    (hassets : ∀ o ∈ countedAt b past present after address, ∀ token ∈ o.payment.tokens,
      ∃ row ∈ assets, row.assetId = token.1.assetId) :
    ∃ summary, getPaymentAddressSummary ((before ++ after).foldl record db.toTables) assets address
        (some (b : Int)) = .ok summary ∧ Summarises (countedAt b past present after address) summary := by
  have hrun : run follow l (before ++ after) = some present := by
    rw [run_append, hbefore]
    exact hafter
  have hblock := block_recorded hrecord h hrun
  exact summary_of_outputs (represented hrecord h hrun) (hblock ▸ db.block_id) (hblock ▸ db.block_hash) assets
    address (some (b : Int)) rfl (matching_counted hrecord h hbefore hafter hends address) hassets

end Summary

def twoBlocks : Database where
  block := [⟨1, "b1", some 1, some 20⟩, ⟨2, "b2", some 2, some 40⟩]
  tx := []
  txOut := []
  txIn := []
  multiAsset := []
  maTxOut := []
  block_id := by decide
  block_hash := by decide
  tx_id := List.nodup_nil
  tx_hash := List.nodup_nil
  policy_length := no_policies

theorem represents_twoBlocks : Represents twoBlocks.toTables .empty :=
  ⟨rfl, rfl, by decide, by decide, by decide, by decide, by decide, ⟨by decide, by decide, no_policies⟩⟩

def firstBlock : List Entry := [⟨⟨"t1", [], [⟨"addr1", 5, []⟩, ⟨"addr2", 7, [(coin, 3)]⟩]⟩, 1, some 0⟩]

def secondBlock : List Entry := [⟨⟨"t2", [("t1", 0)], [⟨"addr2", 4, [(coin, 2)]⟩]⟩, 2, some 1⟩]

def afterFirst : Ledger String String AssetName :=
  ⟨["t1"], [⟨("t1", 0), "addr1", 5, []⟩, ⟨("t1", 1), "addr2", 7, [(coin, 3)]⟩]⟩

theorem secondBlock_summary :
    ∃ summary, getPaymentAddressSummary ((firstBlock ++ secondBlock).foldl numbered twoBlocks.toTables) [coinRow]
        "addr2" (some (1 : Nat)) = .ok summary ∧ Summarises (countedAt 1 afterFirst paid secondBlock "addr2") summary :=
  historical_summary_of_ledger numbered_records represents_twoBlocks (by decide) (by decide)
    ⟨by decide, by decide, by decide⟩ [coinRow] "addr2" (by decide)

end CardanoGraphql.LedgerHistory
