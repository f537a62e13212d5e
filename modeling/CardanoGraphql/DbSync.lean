import CardanoGraphql.SqlJoin

namespace CardanoGraphql.DbSync

open SqlJoin

structure BlockRecord where
  id : Nat
  hash : String
  blockNo : Option Nat
  slotNo : Option Nat
deriving DecidableEq, Repr

structure TxRecord where
  id : Nat
  hash : String
  blockId : Nat
  fee : Option Nat
deriving DecidableEq, Repr

structure TxOutRecord where
  id : Nat
  txId : Nat
  index : Nat
  address : String
  value : Nat
deriving DecidableEq, Repr

structure TxInRecord where
  txInId : Nat
  txOutId : Nat
  txOutIndex : Nat
deriving DecidableEq, Repr

structure MultiAssetRecord where
  id : Nat
  policy : String
  name : String
deriving DecidableEq, Repr

structure MaTxOutRecord where
  ident : Nat
  quantity : Nat
  txOutId : Nat
deriving DecidableEq, Repr

structure Tables where
  block : List BlockRecord
  tx : List TxRecord
  txOut : List TxOutRecord
  txIn : List TxInRecord
  multiAsset : List MultiAssetRecord
  maTxOut : List MaTxOutRecord

/-- The tables with the constraints of their own schema: the unique keys the
views join on, and the domain `hash28type` of a policy (58 characters with the
prefix). -/
structure Database extends Tables where
  block_id : (block.map BlockRecord.id).Nodup
  block_hash : (block.map BlockRecord.hash).Nodup
  tx_id : (tx.map TxRecord.id).Nodup
  tx_hash : (tx.map TxRecord.hash).Nodup
  policy_length : ∀ m ∈ multiAsset, m.policy.length = 58

structure Block where
  fees : Nat
  hash : String
  number : Option Nat
  slotNo : Option Nat
deriving DecidableEq, Repr

structure Transaction where
  blockHash : String
  fee : Nat
  hash : String
  id : Nat
  totalOutput : Nat
deriving DecidableEq, Repr

structure TransactionOutput where
  address : String
  value : Nat
  txHash : String
  id : Nat
  index : Nat
deriving DecidableEq, Repr

structure TokenInOutput where
  assetId : String
  assetName : String
  policyId : String
  quantity : Nat
  txOutId : Nat
deriving DecidableEq, Repr

variable (db : Tables)

def blocks : List Block :=
  db.block.map fun b =>
    { fees := ((db.tx.filter fun t => t.blockId = b.id).map fun t => t.fee.getD 0).sum
      hash := b.hash
      number := b.blockNo
      slotNo := b.slotNo }

def transactions : List Transaction :=
  (innerJoin (fun (t : TxRecord) (b : BlockRecord) => decide (b.id = t.blockId)) db.tx db.block).map
    fun p =>
      { blockHash := p.2.hash
        fee := p.1.fee.getD 0
        hash := p.1.hash
        id := p.1.id
        totalOutput := ((db.txOut.filter fun o => o.txId = p.1.id).map TxOutRecord.value).sum }

def outputRow (p : TxRecord × TxOutRecord) : TransactionOutput :=
  { address := p.2.address
    value := p.2.value
    txHash := p.1.hash
    id := p.2.id
    index := p.2.index }

def txOutputs : List (TxRecord × TxOutRecord) :=
  innerJoin (fun t o => decide (t.id = o.txId)) db.tx db.txOut

def transactionOutputs : List TransactionOutput := (txOutputs db).map outputRow

def spends (o : TxOutRecord) (i : TxInRecord) : Bool :=
  decide (o.txId = i.txOutId) && decide (o.index = i.txOutIndex)

def utxos : List TransactionOutput :=
  ((leftJoin (fun (p : TxRecord × TxOutRecord) i => spends p.2 i) (txOutputs db) db.txIn).filter
    fun p => p.2.isNone).map fun p => outputRow p.1

/-- `CAST(CONCAT(policy, RIGHT(CONCAT(E'\\', name), -3)) AS BYTEA)` on the texts. -/
def assetIdText (policy name : String) : String :=
  policy ++ String.ofList (("\\" ++ name).toList.drop 3)

def tokensInOutput : List TokenInOutput :=
  (innerJoin (fun (t : MaTxOutRecord) (m : MultiAssetRecord) => decide (t.ident = m.id))
    db.maTxOut db.multiAsset).map fun p =>
      { assetId := assetIdText p.2.policy p.2.name
        assetName := p.2.name
        policyId := p.2.policy
        quantity := p.1.quantity
        txOutId := p.1.txOutId }

theorem utxos_eq :
    utxos db = ((txOutputs db).filter fun p => !db.txIn.any (spends p.2)).map outputRow := by
  rw [← leftJoin_isNone (fun p => spends p.2) (txOutputs db) db.txIn, List.map_map]
  rfl

end CardanoGraphql.DbSync
