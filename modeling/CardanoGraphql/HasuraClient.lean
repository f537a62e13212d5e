import CardanoGraphql.BigNumber
import CardanoGraphql.HasuraBackgroundClient
import CardanoGraphql.OrderedMap

namespace CardanoGraphql.HasuraClient

open DbSync OrderedMap

structure SummaryAsset where
  assetId : String
  assetName : String
  decimals : Option Int
  description : Option String
  fingerprint : Option String
  logo : Option String
  metadataHash : Option String
  name : Option String
  policyId : String
  ticker : Option String
  url : Option String
deriving DecidableEq, Repr

structure Token where
  asset : Option SummaryAsset
  quantity : String
deriving DecidableEq, Repr

structure SelectedUtxo where
  value : String
  tokens : List Token
deriving DecidableEq, Repr

structure AssetBalance where
  asset : SummaryAsset
  quantity : String
deriving DecidableEq, Repr

structure PaymentAddressSummary where
  assetBalances : List AssetBalance
  utxosCount : Nat
deriving DecidableEq, Repr

/-- The limit of the `select_permissions` of `Utxo` and of `TokenInOutput`. -/
def selectLimit : Nat := 2500

def adaAsset : SummaryAsset :=
  { assetId := "\\xada"
    assetName := "\\xada"
    decimals := none
    description := none
    fingerprint := none
    logo := none
    metadataHash := none
    name := some "ada"
    policyId := "\\xada"
    ticker := none
    url := none }

def summaryAsset (row : HasuraBackgroundClient.Asset) : SummaryAsset :=
  { assetId := row.assetId
    assetName := row.assetName
    decimals := row.decimals
    description := row.description
    fingerprint := some row.fingerprint
    logo := row.logo
    metadataHash := row.metadataHash
    name := row.name
    policyId := row.policyId
    ticker := row.ticker
    url := row.url }

section Selection

variable (db : Tables) (assets : List HasuraBackgroundClient.Asset)

/-- `transaction: { block: { number: { _lte: $atBlock } } }` -/
def inBlockUpTo (atBlock : Int) (utxo : TransactionOutput) : Bool :=
  (transactions db).any fun tx => decide (tx.hash = utxo.txHash) &&
    (blocks db).any fun b => decide (b.hash = tx.blockHash) &&
      b.number.any fun (number : Nat) => decide ((number : Int) ≤ atBlock)

/-- The rows that the `where` of the query matches; 0 is falsy, as no `atBlock` is. -/
def matchingUtxos (address : String) (atBlock : Option Int) : List TransactionOutput :=
  (utxos db).filter fun utxo => decide (utxo.address = address) &&
    (decide (atBlock.getD 0 = 0) || inBlockUpTo db (atBlock.getD 0) utxo)

def tokensOf (utxo : TransactionOutput) : List TokenInOutput :=
  (tokensInOutput db).filter fun token => decide (token.txOutId = utxo.id)

def selectToken (token : TokenInOutput) : Token :=
  { asset := (assets.find? fun row => decide (row.assetId = token.assetId)).map summaryAsset
    quantity := BigNumber.plain token.quantity }

def selectUtxo (utxo : TransactionOutput) : SelectedUtxo :=
  { value := BigNumber.plain utxo.value
    tokens := ((tokensOf db utxo).take selectLimit).map (selectToken assets) }

def selectUtxos (address : String) (atBlock : Option Int) : List SelectedUtxo :=
  ((matchingUtxos db address atBlock).take selectLimit).map (selectUtxo db assets)

end Selection

abbrev Balances := List (String × AssetBalance)

def addBalance (map : Balances) (key : String) (entry : AssetBalance) : Balances :=
  match get? map key with
  | some current =>
      set map key { current with quantity := BigNumber.plus current.quantity entry.quantity }
  | none => set map key entry

def addToken (map : Balances) (token : Token) : Except String Balances :=
  match token.asset with
  | none => .error "Cannot read property 'assetId' of null"
  | some asset => .ok (addBalance map asset.assetId ⟨asset, token.quantity⟩)

def addUtxo (map : Balances) (utxo : SelectedUtxo) : Except String Balances :=
  utxo.tokens.foldlM addToken (addBalance map "ada" ⟨adaAsset, utxo.value⟩)

def getPaymentAddressSummary (db : Tables) (assets : List HasuraBackgroundClient.Asset)
    (address : String) (atBlock : Option Int) : Except String PaymentAddressSummary := do
  let map ← (selectUtxos db assets address atBlock).foldlM addUtxo []
  return { assetBalances := map.map Prod.snd, utxosCount := (matchingUtxos db address atBlock).length }

section Fold

def amountAt (map : Balances) (key : String) : Option Nat :=
  match get? map key with
  | none => some 0
  | some entry => BigNumber.ofString entry.quantity

theorem amountAt_addBalance {map : Balances} (key : String) {entry : AssetBalance} {m n : Nat}
    {key' : String} (hm : amountAt map key' = some m) (hn : BigNumber.ofString entry.quantity = some n) :
    amountAt (addBalance map key entry) key' = some (m + if key' = key then n else 0) := by
  rw [amountAt] at hm ⊢
  rw [addBalance]
  by_cases hk : key' = key
  · subst hk
    rw [if_pos rfl]
    cases hg : get? map key' with
    | none =>
        rw [hg] at hm
        cases hm
        simp only [get?_set, if_true, hn, Nat.zero_add]
    | some current =>
        rw [hg] at hm
        simp only [get?_set, if_true]
        exact BigNumber.plus_eq hm hn
  · rw [if_neg hk, Nat.add_zero, ← hm]
    cases get? map key <;> simp only [get?_set, if_neg hk]

def utxoEntries (utxo : SelectedUtxo) : Balances :=
  ("ada", ⟨adaAsset, utxo.value⟩) ::
    utxo.tokens.filterMap fun token => token.asset.map fun asset => (asset.assetId, ⟨asset, token.quantity⟩)

def addEntries (map : Balances) (entries : Balances) : Balances :=
  entries.foldl (fun m entry => addBalance m entry.1 entry.2) map

theorem foldlM_addToken (map : Balances) (tokens : List Token) :
    (tokens.foldlM addToken map).toOption =
      if tokens.all fun token => token.asset.isSome then
        some (addEntries map (tokens.filterMap fun token =>
          token.asset.map fun asset => (asset.assetId, ⟨asset, token.quantity⟩)))
      else none := by
  induction tokens generalizing map with
  | nil => rfl
  | cons token tokens ih =>
      cases ha : token.asset with
      | none =>
          have herror : (token :: tokens).foldlM addToken map =
              .error "Cannot read property 'assetId' of null" := by
            rw [List.foldlM_cons, addToken, ha]
            rfl
          rw [herror, List.all_cons, ha]
          rfl
      | some asset =>
          have hstep : (token :: tokens).foldlM addToken map =
              tokens.foldlM addToken (addBalance map asset.assetId ⟨asset, token.quantity⟩) := by
            rw [List.foldlM_cons, addToken, ha]
            rfl
          rw [hstep, ih, List.all_cons, ha, Option.isSome_some, Bool.true_and,
            List.filterMap_cons_some (by rw [ha]; rfl)]
          rfl

def assetsKnown (utxo : SelectedUtxo) : Bool := utxo.tokens.all fun token => token.asset.isSome

theorem foldlM_addUtxo (map : Balances) (selected : List SelectedUtxo) :
    (selected.foldlM addUtxo map).toOption =
      if selected.all assetsKnown then some (addEntries map (selected.flatMap utxoEntries)) else none := by
  induction selected generalizing map with
  | nil => rfl
  | cons utxo selected ih =>
      have hu : (addUtxo map utxo).toOption =
          if assetsKnown utxo then some (addEntries map (utxoEntries utxo)) else none :=
        foldlM_addToken _ utxo.tokens
      rw [List.foldlM_cons, List.all_cons, List.flatMap_cons]
      cases ha : addUtxo map utxo with
      | error e =>
          rw [ha] at hu
          cases hk : assetsKnown utxo with
          | true => rw [hk] at hu; cases hu
          | false => rfl
      | ok next =>
          rw [ha] at hu
          cases hk : assetsKnown utxo with
          | false => rw [hk] at hu; cases hu
          | true =>
              rw [hk] at hu
              obtain rfl : next = addEntries map (utxoEntries utxo) := Option.some.inj hu
              rw [Bool.true_and]
              refine (ih _).trans ?_
              rw [addEntries, addEntries, addEntries, List.foldl_append]

def amount (entry : AssetBalance) : Nat := (BigNumber.ofString entry.quantity).getD 0

theorem amountAt_addEntries {map : Balances} {entries : Balances} {key : String} {m : Nat}
    (hm : amountAt map key = some m)
    (hentries : ∀ entry ∈ entries, (BigNumber.ofString entry.2.quantity).isSome = true) :
    amountAt (addEntries map entries) key =
      some (m + ((entries.filter fun entry => decide (key = entry.1)).map fun entry => amount entry.2).sum) := by
  induction entries generalizing map m with
  | nil => simpa [addEntries] using hm
  | cons entry entries ih =>
      obtain ⟨hentry, hrest⟩ := List.forall_mem_cons.mp hentries
      obtain ⟨n, hn⟩ := Option.isSome_iff_exists.mp hentry
      have hamount : amount entry.2 = n := by rw [amount, hn, Option.getD_some]
      have hstep := ih (amountAt_addBalance entry.1 hm hn) hrest
      rw [addEntries, List.foldl_cons, ← addEntries, hstep]
      by_cases hk : key = entry.1
      · rw [if_pos hk, List.filter_cons_of_pos (by simpa using hk), List.map_cons, List.sum_cons, hamount,
          Nat.add_assoc]
      · rw [if_neg hk, List.filter_cons_of_neg (by simpa using hk), Nat.add_zero]

end Fold

end CardanoGraphql.HasuraClient
