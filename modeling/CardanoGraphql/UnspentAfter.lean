import CardanoGraphql.HasuraClient

namespace CardanoGraphql.UnspentAfter

open DbSync SqlJoin HasuraClient

section History

variable (db : Tables)

def includedUpTo (b : Nat) (t : TxRecord) : Bool :=
  db.block.any fun r => decide (r.id = t.blockId) && r.blockNo.any fun number => decide (number ≤ b)

def consumedUpTo (b : Nat) (o : TxOutRecord) : Bool :=
  db.txIn.any fun i => spends o i && db.tx.any fun t => decide (t.id = i.txInId) && includedUpTo db b t

/-- The outputs of an address that blocks numbered at most `b` created and did not consume. -/
def unspentAfter (address : String) (b : Nat) : List TransactionOutput :=
  ((txOutputs db).filter fun p => decide (p.2.address = address) &&
    (includedUpTo db b p.1 && !consumedUpTo db b p.2)).map outputRow

def spent (o : TxOutRecord) : Bool := db.txIn.any (spends o)

def spentSince (address : String) (b : Nat) : List TransactionOutput :=
  ((txOutputs db).filter fun p => decide (p.2.address = address) &&
    (includedUpTo db b p.1 && !consumedUpTo db b p.2) && spent db p.2).map outputRow

def createdSince (address : String) (b : Nat) : List TransactionOutput :=
  ((txOutputs db).filter fun p => decide (p.2.address = address) &&
    (!spent db p.2 && !includedUpTo db b p.1)).map outputRow

theorem consumedUpTo_spent {b : Nat} {o : TxOutRecord} (h : consumedUpTo db b o = true) :
    spent db o = true := by
  obtain ⟨i, hi, hspends⟩ := List.any_eq_true.mp h
  exact List.any_eq_true.mpr ⟨i, hi, (Bool.and_eq_true_iff.mp hspends).1⟩

end History

section Query

variable (db : Database)

theorem inBlockUpTo_outputRow {p : TxRecord × TxOutRecord} (hp : p ∈ txOutputs db.toTables) (b : Nat) :
    HasuraClient.inBlockUpTo db.toTables b (outputRow p) = includedUpTo db.toTables b p.1 := by
  have ht : p.1 ∈ db.tx := ((mem_innerJoin _ _ _ p.1 p.2).mp hp).1
  rw [Bool.eq_iff_iff]
  constructor
  · intro h
    obtain ⟨tx, htx, h⟩ := List.any_eq_true.mp h
    obtain ⟨q, hq, rfl⟩ := List.mem_map.mp htx
    obtain ⟨hq1, hq2, hon⟩ := (mem_innerJoin _ _ _ q.1 q.2).mp hq
    obtain ⟨hhash, h⟩ := Bool.and_eq_true_iff.mp h
    obtain ⟨blk, hblk, h⟩ := List.any_eq_true.mp h
    obtain ⟨r, hr, rfl⟩ := List.mem_map.mp hblk
    obtain ⟨hblockHash, hnumber⟩ := Bool.and_eq_true_iff.mp h
    have hsameTx : q.1 = p.1 := List.inj_on_of_nodup_map db.tx_hash hq1 ht (of_decide_eq_true hhash)
    have hsameBlock : r = q.2 := List.inj_on_of_nodup_map db.block_hash hr hq2 (of_decide_eq_true hblockHash)
    refine List.any_eq_true.mpr ⟨r, hr, Bool.and_eq_true_iff.mpr ⟨?_, by simpa using hnumber⟩⟩
    rw [hsameBlock, ← hsameTx]
    exact hon
  · intro h
    obtain ⟨r, hr, h⟩ := List.any_eq_true.mp h
    obtain ⟨hid, hnumber⟩ := Bool.and_eq_true_iff.mp h
    refine List.any_eq_true.mpr ⟨_, List.mem_map_of_mem ((mem_innerJoin _ _ _ p.1 r).mpr ⟨ht, hr, hid⟩), ?_⟩
    refine Bool.and_eq_true_iff.mpr ⟨decide_eq_true rfl, ?_⟩
    refine List.any_eq_true.mpr ⟨_, List.mem_map_of_mem hr, ?_⟩
    exact Bool.and_eq_true_iff.mpr ⟨decide_eq_true rfl, by simpa using hnumber⟩

def boundedUtxos (db : Tables) (address : String) (b : Nat) : List TransactionOutput :=
  ((txOutputs db).filter fun p => decide (p.2.address = address) &&
    (!spent db p.2 && (decide (b = 0) || includedUpTo db b p.1))).map outputRow

theorem matchingUtxos_some (address : String) (b : Nat) :
    matchingUtxos db.toTables address (some (b : Int)) = boundedUtxos db.toTables address b := by
  rw [matchingUtxos, utxos_eq, List.filter_map, List.filter_filter, boundedUtxos]
  congr 1
  refine List.filter_congr fun p hp => ?_
  have hzero : decide ((b : Int) = 0) = decide (b = 0) := by
    rw [decide_eq_decide]
    omega
  rw [Function.comp_apply, Option.getD_some, inBlockUpTo_outputRow db hp, hzero, spent]
  cases db.txIn.any (spends p.2) with
  | true => simp
  | false =>
      rw [Bool.not_false, Bool.and_true, Bool.true_and]
      rfl

end Query

section Extension

/-- The chain of `later` is that of `db` and further blocks, none of them numbered at most `b`,
with transactions that create and consume outputs. -/
structure ExtendsBeyond (b : Nat) (db later : Tables) : Prop where
  block : ∃ rows, later.block = db.block ++ rows ∧
    ∀ r ∈ rows, (r.blockNo.any fun number => decide (number ≤ b)) = false
  tx : ∃ rows, later.tx = db.tx ++ rows ∧ ∀ t ∈ rows, includedUpTo later b t = false
  txOut : ∃ rows, later.txOut = db.txOut ++ rows ∧ ∀ o ∈ rows, ∀ t ∈ db.tx, t.id ≠ o.txId
  txIn : ∃ rows, later.txIn = db.txIn ++ rows ∧ ∀ i ∈ rows, ∀ t ∈ db.tx, t.id ≠ i.txInId

variable {b : Nat} {db later : Tables}

theorem includedUpTo_extend (h : ExtendsBeyond b db later) (t : TxRecord) :
    includedUpTo later b t = includedUpTo db b t := by
  obtain ⟨rows, hrows, hnew⟩ := h.block
  rw [includedUpTo, hrows, any_append_none _ fun r hr => ?_, includedUpTo]
  rw [hnew r hr, Bool.and_false]

theorem consumedUpTo_extend (h : ExtendsBeyond b db later) (o : TxOutRecord) :
    consumedUpTo later b o = consumedUpTo db b o := by
  obtain ⟨txs, htxs, hnewTx⟩ := h.tx
  obtain ⟨ins, hins, hnewIn⟩ := h.txIn
  have htx : ∀ i : TxInRecord, (later.tx.any fun t => decide (t.id = i.txInId) && includedUpTo later b t) =
      db.tx.any fun t => decide (t.id = i.txInId) && includedUpTo db b t := by
    intro i
    rw [htxs, any_append_none _ fun t ht => ?_]
    · simp only [includedUpTo_extend h]
    · rw [hnewTx t ht, Bool.and_false]
  rw [consumedUpTo]
  simp only [htx]
  rw [hins, any_append_none _ fun i hi => ?_, consumedUpTo]
  have hno : (db.tx.any fun t => decide (t.id = i.txInId) && includedUpTo db b t) = false := by
    rw [List.any_eq_false]
    intro t ht
    rw [decide_eq_false (hnewIn i hi t ht), Bool.false_and]
    exact Bool.false_ne_true
  rw [hno, Bool.and_false]

theorem unspentAfter_extend (h : ExtendsBeyond b db later) (address : String) :
    unspentAfter later address b = unspentAfter db address b := by
  obtain ⟨txs, htxs, hnewTx⟩ := h.tx
  obtain ⟨outs, houts, hnewOut⟩ := h.txOut
  have hjoin : txOutputs later = txOutputs db ++
      innerJoin (fun t o => decide (t.id = o.txId)) txs later.txOut := by
    rw [txOutputs, htxs, innerJoin_append, houts, innerJoin_append_right, txOutputs]
    intro t ht o ho
    exact decide_eq_false (hnewOut o ho t ht)
  rw [unspentAfter, hjoin, filter_append_none _ fun p hp => ?_, unspentAfter]
  · simp only [includedUpTo_extend h, consumedUpTo_extend h]
  · rw [hnewTx p.1 ((mem_innerJoin _ _ _ p.1 p.2).mp hp).1, Bool.false_and, Bool.and_false]

end Extension

end CardanoGraphql.UnspentAfter
