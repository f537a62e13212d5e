import CardanoGraphql.HasuraBackgroundClient

namespace CardanoGraphql.Worker

open HasuraBackgroundClient

structure Signature where
  signature : String
  publicKey : String
deriving DecidableEq, Repr

structure Property (α : Type) where
  value : α
  anSignatures : List Signature
deriving DecidableEq, Repr

structure PreImage where
  value : String
  hashFn : String
deriving DecidableEq, Repr

structure AssetMetadata where
  decimals : Option (Property Int)
  description : Option (Property String)
  logo : Option (Property String)
  name : Option (Property String)
  owner : Option Signature
  preImage : Option PreImage
  subject : String
  ticker : Option (Property String)
  url : Option (Property String)
deriving DecidableEq, Repr

inductive Queue
  | fetchInitial
  | fetchUpdate
deriving DecidableEq, Repr

structure Job where
  id : Nat
  queue : Queue
  assetId : String
deriving DecidableEq, Repr

/-- What the handler does with one job of its batch. -/
inductive Handling
  | done (error : String)
  | matchesLocal
  | addAssetMetadata (asset : AssetMetadataAndHash)
deriving DecidableEq, Repr

def batchSize : Nat := 10000

def metadataAndHash (hash : AssetMetadata → String) (assetId : String) (metadata : AssetMetadata) :
    AssetMetadataAndHash :=
  { assetId := assetId
    decimals := metadata.decimals.map Property.value
    description := metadata.description.map Property.value
    logo := metadata.logo.map Property.value
    metadataHash := hash metadata
    name := metadata.name.map Property.value
    ticker := metadata.ticker.map Property.value
    url := metadata.url.map Property.value }

/-- The body of the handler's loop, from what it fetched before the loop. -/
def handleJob (hash : AssetMetadata → String) (fetchedMetadata : List AssetMetadata)
    (existingAssetMetadataHashes : List (String × Option String)) (assetId : String) : Handling :=
  match fetchedMetadata.find? fun item => decide (item.subject = assetId) with
  | none => .done ("Metadata for asset " ++ assetId ++ " not found in registry")
  | some metadata =>
      let existing := existingAssetMetadataHashes.find? fun item => decide (item.1 = assetId)
      if existing.bind Prod.snd = some (hash metadata) then .matchesLocal
      else .addAssetMetadata (metadataAndHash hash assetId metadata)

end CardanoGraphql.Worker
