import Mathlib.Data.List.Sort
import CardanoGraphql.KeyedTable
import CardanoGraphql.DbSync

namespace CardanoGraphql.HasuraBackgroundClient

open KeyedTable

/-- A row of the table `Asset`; `bytea` columns are held as their text. -/
structure Asset where
  assetId : String
  assetName : String
  decimals : Option Int
  description : Option String
  fingerprint : String
  firstAppearedInSlot : Nat
  logo : Option String
  metadataHash : Option String
  name : Option String
  policyId : String
  ticker : Option String
  url : Option String
deriving DecidableEq, Repr

structure AssetWithoutTokens where
  assetId : String
  assetName : Option String
  firstAppearedInSlot : Nat
  fingerprint : String
  policyId : String
deriving DecidableEq, Repr

structure AssetMetadataAndHash where
  assetId : String
  decimals : Option Int
  description : Option String
  logo : Option String
  metadataHash : String
  name : Option String
  ticker : Option String
  url : Option String
deriving DecidableEq, Repr

structure Point where
  slot : Nat
  id : String
deriving DecidableEq, Repr

def withHexPrefix (value : Option String) : String := "\\x" ++ value.getD ""

/-- One object of the mutation's `objects`, as the row it makes. -/
def insertInput (asset : AssetWithoutTokens) : Asset :=
  { assetId := withHexPrefix (some asset.assetId)
    assetName := withHexPrefix asset.assetName
    decimals := none
    description := none
    fingerprint := asset.fingerprint
    firstAppearedInSlot := asset.firstAppearedInSlot
    logo := none
    metadataHash := none
    name := none
    policyId := withHexPrefix (some asset.policyId)
    ticker := none
    url := none }

def insertAssets (table : List Asset) (assets : List AssetWithoutTokens) : List Asset :=
  insertAbsent Asset.assetId table (assets.map insertInput)

/-- `insert_assets.returning` of the same call. -/
def insertedAssets (table : List Asset) (assets : List AssetWithoutTokens) : List Asset :=
  newRows Asset.assetId table (assets.map insertInput)

def deleteAssetsAfterSlot (table : List Asset) (slotNo : Nat) : List Asset :=
  table.filter fun row => decide (row.firstAppearedInSlot ≤ slotNo)

/-- A nullable variable that is not provided leaves its column as it was. -/
def setMetadata (asset : AssetMetadataAndHash) (row : Asset) : Asset :=
  { row with
    decimals := asset.decimals.or row.decimals
    description := asset.description.or row.description
    logo := asset.logo.or row.logo
    metadataHash := some asset.metadataHash
    name := asset.name.or row.name
    ticker := asset.ticker.or row.ticker
    url := asset.url.or row.url }

def addAssetMetadata (table : List Asset) (asset : AssetMetadataAndHash) : List Asset :=
  table.map fun row =>
    if row.assetId = withHexPrefix (some asset.assetId) then setMetadata asset row else row

def getAssetMetadataHashesById (table : List Asset) (assetIds : List String) :
    List (String × Option String) :=
  (table.filter fun row => decide (row.assetId ∈ assetIds.map fun id => withHexPrefix (some id))).map
    fun row => (row.assetId, row.metadataHash)

def firstAppearedInBlock (blocks : List DbSync.Block) (row : Asset) : Option DbSync.Block :=
  blocks.find? fun b => decide (b.slotNo = some row.firstAppearedInSlot)

/-- `order_by: { firstAppearedInBlock: { slotNo: desc } }`; PostgreSQL puts nulls first. -/
def slotNoDesc (blocks : List DbSync.Block) (r s : Asset) : Bool :=
  match (firstAppearedInBlock blocks r).bind DbSync.Block.slotNo,
      (firstAppearedInBlock blocks s).bind DbSync.Block.slotNo with
  | none, _ => true
  | some _, none => false
  | some m, some n => decide (n ≤ m)

/-- One attempt of the retried query, with `limit: 1` and `offset: 1`. -/
def getMostRecentPointWithNewAsset (table : List Asset) (blocks : List DbSync.Block) :
    Except String (Option Point) :=
  match (table.insertionSort fun r s => slotNoDesc blocks r s = true)[1]? with
  | none => .ok none
  | some row =>
      match firstAppearedInBlock blocks row with
      | none => .error "cardano-db-sync is lagging behind the asset sync operation."
      | some block =>
          .ok (some { slot := block.slotNo.getD 0, id := String.ofList (block.hash.toList.drop 2) })

@[simp] theorem insertInput_assetId (asset : AssetWithoutTokens) :
    (insertInput asset).assetId = withHexPrefix (some asset.assetId) := rfl

theorem insertedAssets_hex (table : List Asset) (cache : List AssetWithoutTokens) (row : Asset)
    (h : row ∈ insertedAssets table cache) : ∃ value, row.assetId = withHexPrefix (some value) := by
  have hk := ((newRows_keys Asset.assetId table (cache.map insertInput)).2 row.assetId
    (List.mem_map_of_mem h)).2
  rw [List.map_map] at hk
  obtain ⟨a, -, ha⟩ := List.mem_map.mp hk
  exact ⟨a.assetId, ha.symm⟩

theorem addAssetMetadata_assetId (table : List Asset) (asset : AssetMetadataAndHash) :
    (addAssetMetadata table asset).map Asset.assetId = table.map Asset.assetId := by
  rw [addAssetMetadata, List.map_map]
  apply List.map_congr_left
  intro row _
  by_cases h : row.assetId = withHexPrefix (some asset.assetId) <;> simp [h, setMetadata]

end CardanoGraphql.HasuraBackgroundClient
