import CardanoGraphql.LedgerViews
import CardanoGraphql.TransactionViews

namespace CardanoGraphql.TransactionHistory

open Runs DbSync SqlJoin TransactionViews UtxoLedger LedgerViews

section Views

variable (block : List LedgerBlock) (slotLeader : List SlotLeaderRecord)

end Views

section Step

variable {block : List LedgerBlock} {slotLeader : List SlotLeaderRecord} {db db' : Tables}
  {l l' : Ledger String String AssetName} {e : Entry} {rows : NewRows}

end Step

section Addresses

variable {db : LedgerTables} (amount : Nat → Nat → Nat)

def received (db : Tables) (address : String) : Nat :=
  (((transactionOutputs db).filter fun row => decide (row.address = address)).map fun row =>
    amount row.value row.id).sum

def held (db : Tables) (address : String) : Nat :=
  (((utxos db).filter fun row => decide (row.address = address)).map fun row => amount row.value row.id).sum

end Addresses

section Run

variable {record : Tables → Entry → Tables} {block : List LedgerBlock} {slotLeader : List SlotLeaderRecord}
  {db : Tables} {l l' : Ledger String String AssetName} {es : List Entry}

def firstBlock : LedgerBlock := ⟨⟨1, "b1", some 1, some 20⟩, none, none⟩

end Run

end CardanoGraphql.TransactionHistory
