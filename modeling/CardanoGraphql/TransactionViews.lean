import Mathlib.Algebra.Order.BigOperators.Group.List
import Mathlib.Algebra.Order.Group.Nat
import CardanoGraphql.DbSync

namespace CardanoGraphql.TransactionViews

open DbSync SqlJoin

structure LedgerBlock extends BlockRecord where
  previousId : Option Nat
  slotLeaderId : Option Nat
deriving DecidableEq, Repr

structure SlotLeaderRecord where
  id : Nat
  poolHashId : Option Nat
deriving DecidableEq, Repr

structure LedgerTables where
  block : List LedgerBlock
  slotLeader : List SlotLeaderRecord
  tx : List TxRecord
  txOut : List TxOutRecord
  txIn : List TxInRecord

def LedgerTables.tables (db : LedgerTables) : Tables :=
  { block := db.block.map LedgerBlock.toBlockRecord
    tx := db.tx
    txOut := db.txOut
    txIn := db.txIn
    multiAsset := []
    maTxOut := [] }

structure BlockRow where
  fees : Except String Nat
  hash : String
  number : Option Nat
  previousBlockHash : Option String
  nextBlockHash : Option String
  slotNo : Option Nat
  slotLeaderId : Option Nat
  poolHashId : Option Nat

structure TransactionRow where
  blockHash : String
  fee : Nat
  hash : String
  id : Nat
  totalOutput : Except String Nat

structure TransactionInput where
  address : String
  value : Nat
  txHash : String
  sourceTxHash : String
  sourceTxIndex : Nat
  sourceTxOutId : Nat
deriving DecidableEq, Repr

/-- The cast of a sum of `numeric` to `bigint`. -/
def toBigint (n : Nat) : Except String Nat :=
  if n < 2 ^ 63 then .ok n else .error "bigint out of range"

variable (db : LedgerTables)

def feesOf (b : LedgerBlock) : Except String Nat := do
  let fees ← ((db.tx.filter fun t => t.blockId = b.id).filterMap TxRecord.fee).mapM toBigint
  toBigint fees.sum

def blockRows : List BlockRow :=
  (leftJoin (fun (p : (LedgerBlock × Option LedgerBlock) × Option LedgerBlock) l =>
      decide (p.1.1.slotLeaderId = some l.id))
    (leftJoin (fun (p : LedgerBlock × Option LedgerBlock) next => decide (next.previousId = some p.1.id))
      (leftJoin (fun (b : LedgerBlock) previous => decide (b.previousId = some previous.id))
        db.block db.block)
      db.block)
    db.slotLeader).map fun p =>
      let b := p.1.1.1
      { fees := feesOf db b
        hash := b.hash
        number := b.blockNo
        previousBlockHash := p.1.1.2.map fun previous => previous.hash
        nextBlockHash := p.1.2.map fun next => next.hash
        slotNo := b.slotNo
        slotLeaderId := p.2.map SlotLeaderRecord.id
        poolHashId := p.2.bind SlotLeaderRecord.poolHashId }

def transactionRow (t : Transaction) : TransactionRow :=
  { blockHash := t.blockHash
    fee := t.fee
    hash := t.hash
    id := t.id
    totalOutput := toBigint t.totalOutput }

def transactionRows : List TransactionRow := (transactions db.tables).map transactionRow

def txInputs : List (TxRecord × TxInRecord) :=
  innerJoin (fun (t : TxRecord) (i : TxInRecord) => decide (i.txInId = t.id)) db.tx db.txIn

def inputSources : List ((TxRecord × TxInRecord) × TxOutRecord) :=
  innerJoin (fun p o => spends o p.2) (txInputs db) db.txOut

def transactionInputs : List TransactionInput :=
  (innerJoin (fun (p : (TxRecord × TxInRecord) × TxOutRecord) source => decide (p.2.txId = source.id))
    (inputSources db) db.tx).map fun p =>
      { address := p.1.2.address
        value := p.1.2.value
        txHash := p.1.1.1.hash
        sourceTxHash := p.2.hash
        sourceTxIndex := p.1.1.2.txOutIndex
        sourceTxOutId := p.1.2.id }

/-- Unique keys, references that exist, and no output spent twice. -/
structure Consistent : Prop where
  tx_id : (db.tx.map TxRecord.id).Nodup
  block_id : (db.block.map fun b => b.id).Nodup
  txOut_key : (db.txOut.map fun o => (o.txId, o.index)).Nodup
  tx_hash : (db.tx.map TxRecord.hash).Nodup
  block_hash : (db.block.map fun b => b.hash).Nodup
  txOut_tx : ∀ o ∈ db.txOut, ∃ t ∈ db.tx, t.id = o.txId
  tx_block : ∀ t ∈ db.tx, ∃ b ∈ db.block, b.id = t.blockId
  txIn_tx : ∀ i ∈ db.txIn, ∃ t ∈ db.tx, t.id = i.txInId
  txIn_txOut : ∀ i ∈ db.txIn, ∃ o ∈ db.txOut, spends o i = true
  spent_once : ∀ o ∈ db.txOut, db.txIn.countP (spends o) ≤ 1

variable {db}

theorem txOutputs_snd (h : Consistent db) :
    ((txOutputs db.tables).map Prod.snd).Perm db.txOut := by
  have hjoin : ((txOutputs db.tables).map Prod.snd).Perm
      (db.txOut.filter fun o => db.tx.any fun t => decide (t.id = o.txId)) :=
    map_snd_innerJoin fun o _ => countP_key h.tx_id o.txId
  rw [List.filter_eq_self.mpr ?_] at hjoin
  · exact hjoin
  · intro o ho
    obtain ⟨t, ht, hid⟩ := h.txOut_tx o ho
    exact List.any_eq_true.mpr ⟨t, ht, decide_eq_true hid⟩

theorem txInputs_snd (h : Consistent db) : ((txInputs db).map Prod.snd).Perm db.txIn := by
  have hjoin : ((txInputs db).map Prod.snd).Perm
      (db.txIn.filter fun i => db.tx.any fun t => decide (i.txInId = t.id)) :=
    map_snd_innerJoin fun i _ => countP_key_symm h.tx_id i.txInId
  rw [List.filter_eq_self.mpr ?_] at hjoin
  · exact hjoin
  · intro i hi
    obtain ⟨t, ht, hid⟩ := h.txIn_tx i hi
    exact List.any_eq_true.mpr ⟨t, ht, decide_eq_true hid.symm⟩

theorem inputSources_snd (h : Consistent db) :
    ((inputSources db).map Prod.snd).Perm (db.txOut.filter fun o => db.txIn.any (spends o)) := by
  have hcount : ∀ p : TxInRecord → Bool, (txInputs db).countP (fun a => p a.2) = db.txIn.countP p := by
    intro p
    rw [← (txInputs_snd h).countP_eq p, List.countP_map]
    rfl
  have hany : ∀ p : TxInRecord → Bool, (txInputs db).any (fun a => p a.2) = db.txIn.any p := by
    intro p
    rw [← (txInputs_snd h).any_eq, List.any_map]
    rfl
  have hjoin : ((inputSources db).map Prod.snd).Perm
      (db.txOut.filter fun o => (txInputs db).any fun p => spends o p.2) := by
    refine map_snd_innerJoin fun o ho => ?_
    rw [hcount (spends o)]
    exact h.spent_once o ho
  simp only [hany] at hjoin
  exact hjoin

theorem inputs_value (h : Consistent db) :
    ((transactionInputs db).map TransactionInput.value).sum =
      ((db.txOut.filter fun o => db.txIn.any (spends o)).map TxOutRecord.value).sum := by
  have hfst : (innerJoin (fun (p : (TxRecord × TxInRecord) × TxOutRecord) source =>
      decide (p.2.txId = source.id)) (inputSources db) db.tx).map Prod.fst = inputSources db := by
    rw [map_fst_innerJoin fun p _ => ?_]
    · rw [List.filter_eq_self]
      intro p hp
      have ho : p.2 ∈ db.txOut := ((mem_innerJoin _ _ _ p.1 p.2).mp hp).2.1
      obtain ⟨t, ht, hid⟩ := h.txOut_tx p.2 ho
      exact List.any_eq_true.mpr ⟨t, ht, decide_eq_true hid.symm⟩
    · exact countP_key_symm h.tx_id p.2.txId
  have hvalue : (transactionInputs db).map TransactionInput.value =
      ((inputSources db).map Prod.snd).map TxOutRecord.value := by
    rw [← hfst, transactionInputs, List.map_map, List.map_map, List.map_map]
    rfl
  rw [hvalue]
  exact ((inputSources_snd h).map _).sum_nat

theorem outputs_value (h : Consistent db) (p : TxOutRecord → Bool) :
    (((txOutputs db.tables).filter fun a => p a.2).map fun a => a.2.value).sum =
      ((db.txOut.filter p).map TxOutRecord.value).sum := by
  have hperm := (((txOutputs_snd h).filter p).map TxOutRecord.value).sum_nat
  rw [← hperm, List.filter_map, List.map_map]
  rfl

theorem mem_txOutputs (t : TxRecord) (o : TxOutRecord) :
    (t, o) ∈ txOutputs db.tables ↔ t ∈ db.tx ∧ o ∈ db.txOut ∧ t.id = o.txId := by
  rw [txOutputs, mem_innerJoin, decide_eq_true_eq]
  rfl

theorem outputRow_inj (h : Consistent db) {p q : TxRecord × TxOutRecord}
    (hp : p ∈ txOutputs db.tables) (hq : q ∈ txOutputs db.tables) (hrow : outputRow p = outputRow q) :
    p = q := by
  obtain ⟨ht, ho, hid⟩ := (mem_txOutputs p.1 p.2).mp hp
  obtain ⟨ht', ho', hid'⟩ := (mem_txOutputs q.1 q.2).mp hq
  have htx : p.1 = q.1 := eq_of_key h.tx_hash ht ht' (congrArg TransactionOutput.txHash hrow)
  have hindex : p.2.index = q.2.index := congrArg TransactionOutput.index hrow
  have hout : p.2 = q.2 := by
    apply eq_of_key h.txOut_key ho ho'
    rw [← hid, ← hid', htx, hindex]
  exact Prod.ext htx hout

theorem utxos_nodup (h : Consistent db) : (utxos db.tables).Nodup := by
  have hpairs : (txOutputs db.tables).Nodup :=
    innerJoin_nodup _ (List.Nodup.of_map _ h.tx_id) (List.Nodup.of_map _ h.txOut_key)
  rw [utxos_eq]
  refine List.Nodup.map_on (fun p hp q hq hrow => ?_) (hpairs.filter _)
  exact outputRow_inj h (List.mem_filter.mp hp).1 (List.mem_filter.mp hq).1 hrow

theorem mem_utxos (h : Consistent db) {t : TxRecord} {o : TxOutRecord} (ht : t ∈ db.tx)
    (ho : o ∈ db.txOut) (hid : t.id = o.txId) :
    outputRow (t, o) ∈ utxos db.tables ↔ db.txIn.any (spends o) = false := by
  have hpair := (mem_txOutputs t o).mpr ⟨ht, ho, hid⟩
  rw [utxos_eq, List.mem_map]
  constructor
  · rintro ⟨p, hp, hrow⟩
    obtain ⟨hp, hunspent⟩ := List.mem_filter.mp hp
    rw [outputRow_inj h hp hpair hrow] at hunspent
    simpa [LedgerTables.tables] using hunspent
  · intro hunspent
    refine ⟨(t, o), List.mem_filter.mpr ⟨hpair, ?_⟩, rfl⟩
    simpa [LedgerTables.tables] using hunspent

theorem transaction_total (h : Consistent db) {t : TxRecord} (ht : t ∈ db.tx) :
    (((transactionOutputs db.tables).filter fun o => o.txHash = t.hash).map TransactionOutput.value).sum =
      ((db.txOut.filter fun o => o.txId = t.id).map TxOutRecord.value).sum := by
  rw [← outputs_value h, transactionOutputs, List.filter_map, List.map_map]
  have hsame : ∀ p ∈ txOutputs db.tables,
      ((fun o => decide (o.txHash = t.hash)) ∘ outputRow) p = decide (p.2.txId = t.id) := by
    intro p hp
    obtain ⟨ht', -, hid⟩ := (mem_txOutputs p.1 p.2).mp hp
    apply decide_eq_decide.mpr
    rw [← hid]
    constructor
    · intro hhash
      rw [eq_of_key h.tx_hash ht' ht hhash]
    · intro hid
      exact congrArg TxRecord.hash (eq_of_key h.tx_id ht' ht hid)
  rw [List.filter_congr hsame]
  rfl

theorem mapM_toBigint (xs : List Nat) :
    xs.mapM toBigint = if ∀ x ∈ xs, x < 2 ^ 63 then .ok xs else .error "bigint out of range" := by
  induction xs with
  | nil => rfl
  | cons x xs ih =>
      rw [List.mapM_cons, ih, toBigint]
      by_cases hx : x < 2 ^ 63
      · by_cases hxs : ∀ y ∈ xs, y < 2 ^ 63
        · have hall : ∀ y ∈ x :: xs, y < 2 ^ 63 := List.forall_mem_cons.mpr ⟨hx, hxs⟩
          rw [if_pos hx, if_pos hxs, if_pos hall]
          rfl
        · have hnot : ¬ ∀ y ∈ x :: xs, y < 2 ^ 63 := fun hall => hxs (List.forall_mem_cons.mp hall).2
          rw [if_pos hx, if_neg hxs, if_neg hnot]
          rfl
      · have hnot : ¬ ∀ y ∈ x :: xs, y < 2 ^ 63 := fun hall => hx (List.forall_mem_cons.mp hall).1
        rw [if_neg hx, if_neg hnot]
        rfl

theorem sum_toBigint (xs : List Nat) :
    (xs.mapM toBigint >>= fun ys => toBigint ys.sum) = toBigint xs.sum := by
  rw [mapM_toBigint]
  by_cases hxs : ∀ x ∈ xs, x < 2 ^ 63
  · rw [if_pos hxs]
    rfl
  · have hsum : ¬ xs.sum < 2 ^ 63 := by
      intro hlt
      exact hxs fun x hx => Nat.lt_of_le_of_lt (List.le_sum_of_mem hx) hlt
    rw [if_neg hxs, toBigint, if_neg hsum]
    rfl

theorem sum_filterMap_fee (txs : List TxRecord) :
    (txs.filterMap TxRecord.fee).sum = (txs.map fun t => t.fee.getD 0).sum := by
  induction txs with
  | nil => rfl
  | cons t txs ih => cases ht : t.fee <;> simp [ht, ih]

theorem feesOf_eq (b : LedgerBlock) :
    feesOf db b = toBigint ((db.tx.filter fun t => t.blockId = b.id).map fun t => t.fee.getD 0).sum := by
  rw [← sum_filterMap_fee, ← sum_toBigint]
  rfl

theorem block_fees (h : Consistent db) {b : LedgerBlock} (hb : b ∈ db.block) :
    (((transactionRows db).filter fun t => t.blockHash = b.hash).map TransactionRow.fee).sum =
      ((db.tx.filter fun t => t.blockId = b.id).map fun t => t.fee.getD 0).sum := by
  have hid : (db.tables.block.map BlockRecord.id).Nodup := by
    rw [LedgerTables.tables, List.map_map]
    exact h.block_id
  have hhash : (db.tables.block.map BlockRecord.hash).Nodup := by
    rw [LedgerTables.tables, List.map_map]
    exact h.block_hash
  have hmem : b.toBlockRecord ∈ db.tables.block := List.mem_map_of_mem hb
  have hfst : (innerJoin (fun (t : TxRecord) (b : BlockRecord) => decide (b.id = t.blockId))
      db.tables.tx db.tables.block).map Prod.fst = db.tx := by
    rw [map_fst_innerJoin fun t _ => countP_key hid t.blockId]
    apply List.filter_eq_self.mpr
    intro t ht
    obtain ⟨c, hc, hcid⟩ := h.tx_block t ht
    exact List.any_eq_true.mpr ⟨c.toBlockRecord, List.mem_map_of_mem hc, decide_eq_true hcid⟩
  rw [← hfst, List.filter_map, List.map_map, transactionRows, transactions, List.map_map,
    List.filter_map, List.map_map]
  have hsame : ∀ p ∈ innerJoin (fun (t : TxRecord) (b : BlockRecord) => decide (b.id = t.blockId))
      db.tables.tx db.tables.block,
      decide (p.2.hash = b.hash) = decide (p.1.blockId = b.id) := by
    intro p hp
    obtain ⟨-, hc, hon⟩ := (mem_innerJoin _ _ _ p.1 p.2).mp hp
    apply decide_eq_decide.mpr
    rw [← of_decide_eq_true hon]
    constructor
    · intro heq
      rw [eq_of_key hhash hc hmem heq]
    · intro heq
      exact congrArg BlockRecord.hash (eq_of_key hid hc hmem heq)
  exact congrArg List.sum (congrArg _ (List.filter_congr hsame))

theorem count_utxos (h : Consistent db) {t : TxRecord} (ht : t ∈ db.tx) {o : TxOutRecord} (ho : o ∈ db.txOut)
    (hid : t.id = o.txId) :
    (utxos db.tables).count (outputRow (t, o)) = if db.txIn.any (spends o) then 0 else 1 := by
  have hmem := mem_utxos h ht ho hid
  cases hs : db.txIn.any (spends o) with
  | true =>
      apply List.count_eq_zero.mpr
      rw [hmem, hs]
      exact Bool.noConfusion
  | false => exact List.count_eq_one_of_mem (utxos_nodup h) (hmem.mpr hs)

theorem utxo_unspent (h : Consistent db) {row : TransactionOutput} (hrow : row ∈ utxos db.tables) :
    ∃ t ∈ db.tx, ∃ o ∈ db.txOut, t.id = o.txId ∧ db.txIn.any (spends o) = false ∧ row = outputRow (t, o) := by
  have hpair := hrow
  rw [utxos_eq, List.mem_map] at hpair
  obtain ⟨p, hp, rfl⟩ := hpair
  obtain ⟨ht, ho, hid⟩ := (mem_txOutputs p.1 p.2).mp (List.mem_filter.mp hp).1
  exact ⟨p.1, ht, p.2, ho, hid, (mem_utxos h ht ho hid).mp hrow, rfl⟩

theorem values_conserved (h : Consistent db) :
    ((utxos db.tables).map TransactionOutput.value).sum +
        ((transactionInputs db).map TransactionInput.value).sum =
      ((transactionOutputs db.tables).map TransactionOutput.value).sum := by
  have hall := outputs_value h fun _ => true
  have hunspent := outputs_value h fun o => !db.txIn.any (spends o)
  have hbalance : ((db.txOut.filter fun o => !db.txIn.any (spends o)).map TxOutRecord.value).sum +
        ((db.txOut.filter fun o => db.txIn.any (spends o)).map TxOutRecord.value).sum =
      ((db.txOut.filter fun _ => true).map TxOutRecord.value).sum +
        ((db.txOut.filter fun _ => false).map TxOutRecord.value).sum := by
    apply sum_filter_balance
    intro o _
    cases db.txIn.any (spends o) <;> rfl
  rw [utxos_eq, inputs_value h, transactionOutputs, List.map_map, List.map_map]
  rw [List.filter_true] at hall
  simp only [List.filter_false, List.map_nil, List.sum_nil, Nat.add_zero] at hbalance
  calc _ = ((db.txOut.filter fun o => !db.txIn.any (spends o)).map TxOutRecord.value).sum +
        ((db.txOut.filter fun o => db.txIn.any (spends o)).map TxOutRecord.value).sum := by
          rw [← hunspent]; rfl
    _ = ((db.txOut.filter fun _ => true).map TxOutRecord.value).sum := hbalance
    _ = _ := hall.symm

theorem transactionRow_cast {row : TransactionRow} (hrow : row ∈ transactionRows db) :
    ∃ t ∈ db.tx, row.hash = t.hash ∧
      row.totalOutput = toBigint ((db.txOut.filter fun o => o.txId = t.id).map TxOutRecord.value).sum := by
  obtain ⟨tx, htx, rfl⟩ := List.mem_map.mp hrow
  obtain ⟨p, hp, rfl⟩ := List.mem_map.mp htx
  exact ⟨p.1, ((mem_innerJoin _ _ _ p.1 p.2).mp hp).1, rfl, rfl⟩

theorem blockRow_cast {row : BlockRow} (hrow : row ∈ blockRows db) :
    ∃ b ∈ db.block, row.hash = b.hash ∧
      row.fees = toBigint ((db.tx.filter fun t => t.blockId = b.id).map fun t => t.fee.getD 0).sum := by
  obtain ⟨p, hp, rfl⟩ := List.mem_map.mp hrow
  exact ⟨p.1.1.1, fst_mem_leftJoin (fst_mem_leftJoin (fst_mem_leftJoin hp)), rfl, feesOf_eq p.1.1.1⟩

/-- The views say of a state what they are to say, with every sum exact. -/
structure Conserves (db : LedgerTables) : Prop where
  once : ∀ t ∈ db.tx, ∀ o ∈ db.txOut, t.id = o.txId →
    (utxos db.tables).count (outputRow (t, o)) = if db.txIn.any (spends o) then 0 else 1
  unspent : ∀ row ∈ utxos db.tables, ∃ t ∈ db.tx, ∃ o ∈ db.txOut,
    t.id = o.txId ∧ db.txIn.any (spends o) = false ∧ row = outputRow (t, o)
  balance : ((utxos db.tables).map TransactionOutput.value).sum +
      ((transactionInputs db).map TransactionInput.value).sum =
    ((transactionOutputs db.tables).map TransactionOutput.value).sum
  totals : ∀ row ∈ transactionRows db, row.totalOutput = .ok
    (((transactionOutputs db.tables).filter fun o => o.txHash = row.hash).map TransactionOutput.value).sum
  fees : ∀ row ∈ blockRows db, row.fees = .ok
    (((transactionRows db).filter fun t => t.blockHash = row.hash).map TransactionRow.fee).sum

/-- The sums that the views cast are in the range of `bigint`. -/
structure SumsFit (db : LedgerTables) : Prop where
  outputs : ∀ t ∈ db.tx, ((db.txOut.filter fun o => o.txId = t.id).map TxOutRecord.value).sum < 2 ^ 63
  fees : ∀ b ∈ db.block, ((db.tx.filter fun t => t.blockId = b.id).map fun t => t.fee.getD 0).sum < 2 ^ 63

theorem toBigint_ok_iff (n : Nat) : toBigint n = .ok n ↔ n < 2 ^ 63 := by
  rw [toBigint]
  by_cases hn : n < 2 ^ 63
  · exact iff_of_true (if_pos hn) hn
  · rw [if_neg hn]
    exact iff_of_false nofun hn

theorem transactionRow_of_tx (h : Consistent db) {t : TxRecord} (ht : t ∈ db.tx) :
    ∃ row ∈ transactionRows db, row.hash = t.hash := by
  obtain ⟨b, hb, hid⟩ := h.tx_block t ht
  have hpair : (t, b.toBlockRecord) ∈ innerJoin (fun (t : TxRecord) (b : BlockRecord) => decide (b.id = t.blockId))
      db.tables.tx db.tables.block :=
    (mem_innerJoin _ _ _ t b.toBlockRecord).mpr ⟨ht, List.mem_map_of_mem hb, decide_eq_true hid⟩
  exact ⟨_, List.mem_map_of_mem (List.mem_map_of_mem hpair), rfl⟩

theorem blockRow_of_block {b : LedgerBlock} (hb : b ∈ db.block) :
    ∃ row ∈ blockRows db, row.hash = b.hash := by
  obtain ⟨previous, hprevious⟩ :=
    exists_mem_leftJoin (fun (b previous : LedgerBlock) => decide (b.previousId = some previous.id)) db.block hb
  obtain ⟨next, hnext⟩ := exists_mem_leftJoin
    (fun (p : LedgerBlock × Option LedgerBlock) (next : LedgerBlock) => decide (next.previousId = some p.1.id))
    db.block hprevious
  obtain ⟨leader, hleader⟩ := exists_mem_leftJoin
    (fun (p : (LedgerBlock × Option LedgerBlock) × Option LedgerBlock) (l : SlotLeaderRecord) =>
      decide (p.1.1.slotLeaderId = some l.id)) db.slotLeader hnext
  exact ⟨_, List.mem_map_of_mem hleader, rfl⟩

/-- The columns are the sums of their rows exactly where those are in the range of the casts. -/
theorem views_conserve_iff (h : Consistent db) : Conserves db ↔ SumsFit db := by
  constructor
  · intro hconserves
    refine ⟨fun t ht => ?_, fun b hb => ?_⟩
    · obtain ⟨row, hrow, hhash⟩ := transactionRow_of_tx h ht
      obtain ⟨t', ht', hhash', hcast⟩ := transactionRow_cast hrow
      rw [hconserves.totals row hrow, hhash', transaction_total h ht', eq_comm, toBigint_ok_iff] at hcast
      rw [← transaction_total h ht, ← hhash, hhash', transaction_total h ht']
      exact hcast
    · obtain ⟨row, hrow, hhash⟩ := blockRow_of_block hb
      obtain ⟨b', hb', hhash', hcast⟩ := blockRow_cast hrow
      rw [hconserves.fees row hrow, hhash', block_fees h hb', eq_comm, toBigint_ok_iff] at hcast
      rw [← block_fees h hb, ← hhash, hhash', block_fees h hb']
      exact hcast
  · intro hfit
    refine ⟨fun t ht o ho hid => count_utxos h ht ho hid, fun row hrow => utxo_unspent h hrow,
      values_conserved h, fun row hrow => ?_, fun row hrow => ?_⟩
    · obtain ⟨t, ht, hhash, hcast⟩ := transactionRow_cast hrow
      rw [hcast, hhash, transaction_total h ht, toBigint_ok_iff]
      exact hfit.outputs t ht
    · obtain ⟨b, hb, hhash, hcast⟩ := blockRow_cast hrow
      rw [hcast, hhash, block_fees h hb, toBigint_ok_iff]
      exact hfit.fees b hb

def twoTransactions : LedgerTables :=
  { block := [⟨⟨1, "\\xb1", some 1, some 10⟩, none, some 1⟩, ⟨⟨2, "\\xb2", some 2, some 20⟩, some 1, none⟩]
    slotLeader := [⟨1, none⟩]
    tx := [⟨1, "\\xa1", 1, some 3⟩, ⟨2, "\\xa2", 2, none⟩]
    txOut := [⟨1, 1, 0, "addr1", 5⟩, ⟨2, 1, 1, "addr2", 7⟩, ⟨3, 2, 0, "addr1", 6⟩]
    txIn := [⟨2, 1, 1⟩] }

theorem twoTransactions_consistent : Consistent twoTransactions := by
  constructor <;> decide

theorem twoTransactions_conserve : Conserves twoTransactions ∧
    ((utxos twoTransactions.tables).map TransactionOutput.value).sum +
        ((transactionInputs twoTransactions).map TransactionInput.value).sum = 18 ∧
      (transactionInputs twoTransactions).length = 1 ∧ (utxos twoTransactions.tables).length = 2 := by
  have hconserves := (views_conserve_iff twoTransactions_consistent).mpr ⟨by decide, by decide⟩
  exact ⟨hconserves, hconserves.balance.trans (by decide), by decide, by decide⟩

def greatOutputs : LedgerTables :=
  { twoTransactions with
    txOut := [⟨1, 1, 0, "addr1", 2 ^ 62⟩, ⟨2, 1, 1, "addr2", 2 ^ 62⟩, ⟨3, 2, 0, "addr1", 6⟩] }

theorem greatOutputs_out_of_range : Consistent greatOutputs ∧
    (transactionRows greatOutputs).map (fun row => row.totalOutput.toOption) = [none, some 6] ∧
    ¬ Conserves greatOutputs := by
  have hrows : (transactionRows greatOutputs).map (fun row => row.totalOutput.toOption) = [none, some 6] := by
    decide
  refine ⟨by constructor <;> decide, hrows, fun h => ?_⟩
  have hall : ∀ total ∈ (transactionRows greatOutputs).map fun row => row.totalOutput.toOption, total ≠ none := by
    rw [List.forall_mem_map]
    intro row hrow
    rw [h.totals row hrow]
    exact Option.some_ne_none _
  rw [hrows] at hall
  exact hall none List.mem_cons_self rfl

end CardanoGraphql.TransactionViews
