import CardanoGraphql.HasuraClient

namespace CardanoGraphql.AddressSummary

open DbSync HasuraClient OrderedMap KeyedTable

def balance (summary : PaymentAddressSummary) (assetId : String) : Option Nat :=
  match summary.assetBalances.find? fun entry => decide (entry.asset.assetId = assetId) with
  | none => some 0
  | some entry => BigNumber.ofString entry.quantity

def adaTotal (rows : List TransactionOutput) : Nat := (rows.map TransactionOutput.value).sum

def tokenTotal (tokens : List TokenInOutput) (assetId : String) : Nat :=
  ((tokens.filter fun token => decide (token.assetId = assetId)).map TokenInOutput.quantity).sum

def assetTotal (tokens : TransactionOutput → List TokenInOutput) (rows : List TransactionOutput)
    (assetId : String) : Nat :=
  (rows.map fun utxo => tokenTotal (tokens utxo) assetId).sum

/-- The summary accounts for `rows`: their values, their tokens and their number. -/
structure Exact (db : Tables) (rows : List TransactionOutput) (summary : PaymentAddressSummary) : Prop where
  ada : balance summary adaAsset.assetId = some (adaTotal rows)
  assets : ∀ assetId, assetId ≠ adaAsset.assetId →
    balance summary assetId = some (assetTotal (tokensOf db) rows assetId)
  count : summary.utxosCount = rows.length

def AssetKnown (assets : List HasuraBackgroundClient.Asset) (token : TokenInOutput) : Prop :=
  ∃ row ∈ assets, row.assetId = token.assetId

def keptTokens (db : Tables) (utxo : TransactionOutput) : List TokenInOutput :=
  (tokensOf db utxo).take selectLimit

structure NothingDropped (db : Tables) (rows : List TransactionOutput) : Prop where
  outputs : ∀ utxo ∈ rows.drop selectLimit, utxo.value = 0 ∧ ∀ token ∈ tokensOf db utxo, token.quantity = 0
  tokens : ∀ utxo ∈ rows.take selectLimit, ∀ token ∈ (tokensOf db utxo).drop selectLimit, token.quantity = 0

section Keys

def Keyed (p : String × AssetBalance) : Prop :=
  (p.1 = "ada" ∧ p.2.asset.assetId = adaAsset.assetId) ∨
    (p.1 = p.2.asset.assetId ∧ p.1 ≠ "ada" ∧ p.1 ≠ adaAsset.assetId)

theorem addBalance_keyed {map : Balances} {key : String} {entry : AssetBalance}
    (hmap : ∀ p ∈ map, Keyed p) (hentry : Keyed (key, entry)) :
    ∀ p ∈ addBalance map key entry, Keyed p := by
  intro p hp
  rw [addBalance] at hp
  cases hg : get? map key with
  | none =>
      rw [hg] at hp
      rcases mem_set hp with rfl | hp
      · exact hentry
      · exact hmap p hp
  | some current =>
      rw [hg] at hp
      rcases mem_set hp with rfl | hp
      · obtain ⟨q, hq, rfl⟩ := Option.map_eq_some_iff.mp hg
        obtain ⟨hm, hk⟩ := lookup_some Prod.fst hq
        have hkeyed := hmap q hm
        rw [Keyed, hk] at hkeyed
        exact hkeyed
      · exact hmap p hp

theorem addEntries_keyed {map entries : Balances} (hmap : ∀ p ∈ map, Keyed p)
    (hentries : ∀ p ∈ entries, Keyed p) : ∀ p ∈ addEntries map entries, Keyed p := by
  induction entries generalizing map with
  | nil => exact hmap
  | cons entry entries ih =>
      obtain ⟨hentry, hrest⟩ := List.forall_mem_cons.mp hentries
      exact ih (addBalance_keyed hmap hentry) hrest

theorem balance_eq {map : Balances} (hmap : ∀ p ∈ map, Keyed p) (count : Nat) (assetId : String) :
    balance ⟨map.map Prod.snd, count⟩ assetId =
      if assetId = adaAsset.assetId then amountAt map "ada"
      else if assetId = "ada" then some 0
      else amountAt map assetId := by
  have hfind : ∀ key, (∀ p ∈ map, (p.2.asset.assetId = assetId ↔ p.1 = key)) →
      balance ⟨map.map Prod.snd, count⟩ assetId = amountAt map key := by
    intro key hkey
    have hsame : (map.map Prod.snd).find? (fun entry => decide (entry.asset.assetId = assetId)) =
        get? map key := by
      rw [List.find?_map, get?, lookup]
      congr 1
      induction map with
      | nil => rfl
      | cons p map ih =>
          obtain ⟨hp, hrest⟩ := List.forall_mem_cons.mp hkey
          have hih := ih (List.forall_mem_cons.mp hmap).2 hrest
          by_cases hk : p.1 = key
          · simp [hk, hp.mpr hk]
          · have hne : ¬ p.2.asset.assetId = assetId := fun h => hk (hp.mp h)
            simpa [hk, hne] using hih
    rw [balance, amountAt]
    cases hg : get? map key with
    | none => simp only [hsame, hg]
    | some entry => simp only [hsame, hg]
  have hada : adaAsset.assetId ≠ "ada" := by decide
  split
  · next h =>
      refine hfind "ada" fun p hp => ?_
      rcases hmap p hp with ⟨hk, hid⟩ | ⟨hk, hne, hxada⟩
      · exact iff_of_true (hid.trans h.symm) hk
      · exact iff_of_false (fun he => hxada (hk.trans (he.trans h))) hne
  · next h =>
      split
      · next h' =>
          have hnone : (map.map Prod.snd).find? (fun entry => decide (entry.asset.assetId = assetId)) = none := by
            rw [List.find?_eq_none]
            intro entry he
            obtain ⟨p, hp, rfl⟩ := List.mem_map.mp he
            rw [h', decide_eq_true_eq]
            rcases hmap p hp with ⟨-, hid⟩ | ⟨hk, hne, -⟩
            · rw [hid]
              exact hada
            · rw [← hk]
              exact hne
          rw [balance, hnone]
      · next h' =>
          refine hfind assetId fun p hp => ?_
          rcases hmap p hp with ⟨hk, hid⟩ | ⟨hk, -, -⟩
          · exact iff_of_false (fun he => h (he.symm.trans hid)) fun he => h' (he.symm.trans hk)
          · rw [hk]

end Keys

section Amounts

variable {db : Database} {assets : List HasuraBackgroundClient.Asset}

theorem token_assetId (db : Database) {token : TokenInOutput} (h : token ∈ tokensInOutput db.toTables) :
    token.assetId ≠ "ada" ∧ token.assetId ≠ adaAsset.assetId := by
  obtain ⟨p, hp, rfl⟩ := List.mem_map.mp h
  have hpolicy := db.policy_length p.2 ((SqlJoin.mem_innerJoin _ _ _ p.1 p.2).mp hp).2.1
  have hlong : 58 ≤ (assetIdText p.2.policy p.2.name).length := by
    rw [assetIdText, String.length_append]
    omega
  have hada : "ada".length = 3 := by decide
  have hxada : adaAsset.assetId.length = 5 := by decide
  constructor
  · intro h
    have h : assetIdText p.2.policy p.2.name = "ada" := h
    rw [h] at hlong
    omega
  · intro h
    have h : assetIdText p.2.policy p.2.name = adaAsset.assetId := h
    rw [h] at hlong
    omega

theorem selectToken_known (assets : List HasuraBackgroundClient.Asset) (token : TokenInOutput)
    (h : (selectToken assets token).asset.isSome = true) :
    ∃ asset, (selectToken assets token).asset = some asset ∧ asset.assetId = token.assetId := by
  obtain ⟨asset, ha⟩ := Option.isSome_iff_exists.mp h
  obtain ⟨row, hr, rfl⟩ := Option.map_eq_some_iff.mp ha
  exact ⟨summaryAsset row, ha, by simpa [summaryAsset] using List.find?_some hr⟩

theorem selectToken_isSome_iff (token : TokenInOutput) :
    (selectToken assets token).asset.isSome = true ↔ AssetKnown assets token := by
  simp [selectToken, AssetKnown]

theorem utxoEntries_keyed (utxo : TransactionOutput) :
    ∀ p ∈ utxoEntries (selectUtxo db.toTables assets utxo),
      Keyed p ∧ (BigNumber.ofString p.2.quantity).isSome = true := by
  intro p hp
  rcases List.mem_cons.mp hp with rfl | hp
  · exact ⟨Or.inl ⟨rfl, rfl⟩, by simp [selectUtxo, BigNumber.ofString_plain]⟩
  · obtain ⟨selected, hs, hp⟩ := List.mem_filterMap.mp hp
    obtain ⟨token, ht, rfl⟩ := List.mem_map.mp hs
    obtain ⟨asset, ha, rfl⟩ := Option.map_eq_some_iff.mp hp
    obtain ⟨asset', ha', hid⟩ := selectToken_known assets token (by rw [ha]; rfl)
    obtain rfl : asset = asset' := Option.some.inj (ha.symm.trans ha')
    have hmem : token ∈ tokensInOutput db.toTables :=
      (List.mem_filter.mp (List.mem_of_mem_take ht)).1
    have hne := token_assetId db hmem
    rw [← hid] at hne
    exact ⟨Or.inr ⟨rfl, hne⟩, by simp [selectToken, BigNumber.ofString_plain]⟩

theorem tokenEntries_total (key : String) {tokens : List TokenInOutput}
    (hknown : ∀ token ∈ tokens, AssetKnown assets token) :
    ((((tokens.map (selectToken assets)).filterMap fun token =>
        token.asset.map fun asset => (asset.assetId, (⟨asset, token.quantity⟩ : AssetBalance))).filter
          fun entry => decide (key = entry.1)).map fun entry => amount entry.2).sum = tokenTotal tokens key := by
  induction tokens with
  | nil => rfl
  | cons token tokens ih =>
      obtain ⟨htoken, hrest⟩ := List.forall_mem_cons.mp hknown
      obtain ⟨asset, ha, hid⟩ := selectToken_known assets token ((selectToken_isSome_iff token).mpr htoken)
      have hamount : amount ⟨asset, (selectToken assets token).quantity⟩ = token.quantity := by
        simp [amount, selectToken, BigNumber.ofString_plain]
      rw [List.map_cons, List.filterMap_cons_some (by rw [ha]; rfl), tokenTotal]
      by_cases hk : token.assetId = key
      · rw [List.filter_cons_of_pos (by simp [hid, hk]), List.filter_cons_of_pos (by simpa using hk),
          List.map_cons, List.sum_cons, List.map_cons, List.sum_cons, ih hrest, hamount, tokenTotal]
      · rw [List.filter_cons_of_neg (by simpa [hid] using Ne.symm hk),
          List.filter_cons_of_neg (by simpa using hk), ih hrest, tokenTotal]

theorem utxoEntries_total {utxo : TransactionOutput}
    (hknown : ∀ token ∈ keptTokens db.toTables utxo, AssetKnown assets token) (key : String) :
    (((utxoEntries (selectUtxo db.toTables assets utxo)).filter fun entry => decide (key = entry.1)).map
        fun entry => amount entry.2).sum =
      (if key = "ada" then utxo.value else 0) + tokenTotal (keptTokens db.toTables utxo) key := by
  have htokens := tokenEntries_total key hknown
  have hvalue : amount ⟨adaAsset, (selectUtxo db.toTables assets utxo).value⟩ = utxo.value := by
    simp [amount, selectUtxo, BigNumber.ofString_plain]
  rw [utxoEntries]
  by_cases hk : key = "ada"
  · rw [List.filter_cons_of_pos (by simpa using hk), List.map_cons, List.sum_cons, hvalue, if_pos hk]
    exact congrArg (utxo.value + ·) htokens
  · rw [List.filter_cons_of_neg (by simpa using hk), if_neg hk, Nat.zero_add]
    exact htokens

theorem tokenTotal_ada (db : Database) {tokens : List TokenInOutput}
    (h : ∀ token ∈ tokens, token ∈ tokensInOutput db.toTables) : tokenTotal tokens "ada" = 0 := by
  have hnil : (tokens.filter fun token => decide (token.assetId = "ada")) = [] := by
    rw [List.filter_eq_nil_iff]
    intro token ht
    simpa using (token_assetId db (h token ht)).1
  rw [tokenTotal, hnil]
  rfl

theorem keptTokens_mem {utxo : TransactionOutput} {token : TokenInOutput}
    (h : token ∈ keptTokens db.toTables utxo) : token ∈ tokensInOutput db.toTables :=
  (List.mem_filter.mp (List.mem_of_mem_take h)).1

def KeptKnown (db : Tables) (assets : List HasuraBackgroundClient.Asset) (rows : List TransactionOutput) : Prop :=
  ∀ utxo ∈ rows.take selectLimit, ∀ token ∈ keptTokens db utxo, AssetKnown assets token

theorem selectUtxos_known_iff (address : String) (atBlock : Option Int) :
    (selectUtxos db.toTables assets address atBlock).all assetsKnown = true ↔
      KeptKnown db.toTables assets (matchingUtxos db.toTables address atBlock) := by
  rw [selectUtxos, List.all_map, List.all_eq_true]
  refine forall₂_congr fun utxo _ => ?_
  rw [Function.comp_apply, assetsKnown, selectUtxo, List.all_map, List.all_eq_true]
  exact forall₂_congr fun token _ => selectToken_isSome_iff token

theorem entries_keyed (db : Database) (assets : List HasuraBackgroundClient.Asset)
    (rows : List TransactionOutput) :
    ∀ p ∈ (rows.map (selectUtxo db.toTables assets)).flatMap utxoEntries,
      Keyed p ∧ (BigNumber.ofString p.2.quantity).isSome = true := by
  intro p hp
  obtain ⟨selected, hs, hp⟩ := List.mem_flatMap.mp hp
  obtain ⟨utxo, -, rfl⟩ := List.mem_map.mp hs
  exact utxoEntries_keyed utxo p hp

theorem entries_total {rows : List TransactionOutput}
    (hknown : ∀ utxo ∈ rows, ∀ token ∈ keptTokens db.toTables utxo, AssetKnown assets token) (key : String) :
    ((((rows.map (selectUtxo db.toTables assets)).flatMap utxoEntries).filter
        fun entry => decide (key = entry.1)).map fun entry => amount entry.2).sum =
      (rows.map fun utxo => (if key = "ada" then utxo.value else 0) +
        tokenTotal (keptTokens db.toTables utxo) key).sum := by
  induction rows with
  | nil => rfl
  | cons utxo rows ih =>
      obtain ⟨hu, hrest⟩ := List.forall_mem_cons.mp hknown
      rw [List.map_cons, List.flatMap_cons, List.filter_append, List.map_append, List.sum_append,
        utxoEntries_total hu key, ih hrest, List.map_cons, List.sum_cons]

theorem amountAt_ada {rows : List TransactionOutput} {map : Balances}
    (hmap : ∀ key, amountAt map key = some ((rows.map fun utxo =>
      (if key = "ada" then utxo.value else 0) + tokenTotal (keptTokens db.toTables utxo) key).sum)) :
    amountAt map "ada" = some (adaTotal rows) := by
  rw [hmap, adaTotal]
  congr 2
  refine List.map_congr_left fun utxo hu => ?_
  rw [if_pos rfl, tokenTotal_ada db fun token ht => keptTokens_mem ht, Nat.add_zero]

theorem amountAt_asset {rows : List TransactionOutput} {map : Balances}
    (hmap : ∀ key, amountAt map key = some ((rows.map fun utxo =>
      (if key = "ada" then utxo.value else 0) + tokenTotal (keptTokens db.toTables utxo) key).sum))
    (assetId : String) : (if assetId = "ada" then some 0 else amountAt map assetId) =
      some (assetTotal (keptTokens db.toTables) rows assetId) := by
  rw [assetTotal]
  by_cases hada : assetId = "ada"
  · rw [if_pos hada, hada]
    have hzero : ∀ utxo, tokenTotal (keptTokens db.toTables utxo) "ada" = 0 :=
      fun utxo => tokenTotal_ada db fun token ht => keptTokens_mem ht
    simp [hzero]
  · rw [if_neg hada, hmap]
    simp [hada]

theorem summary_of_known (db : Database) (assets : List HasuraBackgroundClient.Asset) (address : String)
    (atBlock : Option Int)
    (hknown : KeptKnown db.toTables assets (matchingUtxos db.toTables address atBlock)) :
    ∃ summary, getPaymentAddressSummary db.toTables assets address atBlock = .ok summary ∧
      balance summary adaAsset.assetId =
        some (adaTotal ((matchingUtxos db.toTables address atBlock).take selectLimit)) ∧
      (∀ assetId, assetId ≠ adaAsset.assetId → balance summary assetId =
        some (assetTotal (keptTokens db.toTables)
          ((matchingUtxos db.toTables address atBlock).take selectLimit) assetId)) ∧
      summary.utxosCount = (matchingUtxos db.toTables address atBlock).length := by
  have hfold := foldlM_addUtxo [] (selectUtxos db.toTables assets address atBlock)
  rw [(selectUtxos_known_iff address atBlock).mpr hknown, if_pos rfl] at hfold
  cases hmap : (selectUtxos db.toTables assets address atBlock).foldlM addUtxo [] with
  | error e =>
      rw [hmap] at hfold
      cases hfold
  | ok map =>
      rw [hmap] at hfold
      have hentries := entries_keyed db assets
        ((matchingUtxos db.toTables address atBlock).take selectLimit)
      have hkeyed : ∀ p ∈ map, Keyed p := by
        rw [Option.some.inj hfold]
        exact addEntries_keyed (fun p hp => by cases hp) fun p hp => (hentries p hp).1
      have htotal : ∀ key, amountAt map key =
          some ((((matchingUtxos db.toTables address atBlock).take selectLimit).map fun utxo =>
            (if key = "ada" then utxo.value else 0) + tokenTotal (keptTokens db.toTables utxo) key).sum) := by
        intro key
        rw [Option.some.inj hfold, selectUtxos,
          amountAt_addEntries (m := 0) rfl fun p hp => (hentries p hp).2, Nat.zero_add,
          entries_total hknown]
      refine ⟨⟨map.map Prod.snd, (matchingUtxos db.toTables address atBlock).length⟩, ?_, ?_, ?_, rfl⟩
      · rw [getPaymentAddressSummary, hmap]
        rfl
      · rw [balance_eq hkeyed, if_pos rfl, amountAt_ada htotal]
      · intro assetId hne
        rw [balance_eq hkeyed, if_neg hne, amountAt_asset htotal]

theorem summary_throws {address : String} {atBlock : Option Int}
    (hno : ¬ KeptKnown db.toTables assets (matchingUtxos db.toTables address atBlock))
    (summary : PaymentAddressSummary) :
    getPaymentAddressSummary db.toTables assets address atBlock ≠ .ok summary := by
  have hall : ¬ (selectUtxos db.toTables assets address atBlock).all assetsKnown = true :=
    fun h => hno ((selectUtxos_known_iff address atBlock).mp h)
  have hfold := foldlM_addUtxo [] (selectUtxos db.toTables assets address atBlock)
  rw [if_neg hall] at hfold
  cases hmap : (selectUtxos db.toTables assets address atBlock).foldlM addUtxo [] with
  | ok map =>
      rw [hmap] at hfold
      cases hfold
  | error e =>
      rw [getPaymentAddressSummary, hmap]
      intro h
      cases h

/-- When a summary accounts for some rows, in terms of the rows that the query matches. -/
theorem accounts_iff (db : Database) (assets : List HasuraBackgroundClient.Asset) (address : String)
    (atBlock : Option Int) (rows : List TransactionOutput) :
    (∃ summary, getPaymentAddressSummary db.toTables assets address atBlock = .ok summary ∧
        Exact db.toTables rows summary) ↔
      KeptKnown db.toTables assets (matchingUtxos db.toTables address atBlock) ∧
        (matchingUtxos db.toTables address atBlock).length = rows.length ∧
        adaTotal ((matchingUtxos db.toTables address atBlock).take selectLimit) = adaTotal rows ∧
        ∀ assetId, assetId ≠ adaAsset.assetId →
          assetTotal (keptTokens db.toTables) ((matchingUtxos db.toTables address atBlock).take selectLimit)
            assetId = assetTotal (tokensOf db.toTables) rows assetId := by
  by_cases hknown : KeptKnown db.toTables assets (matchingUtxos db.toTables address atBlock)
  · obtain ⟨summary, hsummary, hada, hassets, hcount⟩ := summary_of_known db assets address atBlock hknown
    constructor
    · rintro ⟨other, hother, hexact⟩
      obtain rfl : summary = other := Except.ok.inj (hsummary.symm.trans hother)
      exact ⟨hknown, hcount.symm.trans hexact.count, Option.some.inj (hada.symm.trans hexact.ada),
        fun assetId hne => Option.some.inj ((hassets assetId hne).symm.trans (hexact.assets assetId hne))⟩
    · rintro ⟨-, hlength, htotal, htotals⟩
      refine ⟨summary, hsummary, ?_, ?_, hcount.trans hlength⟩
      · rw [hada, htotal]
      · intro assetId hne
        rw [hassets assetId hne, htotals assetId hne]
  · refine iff_of_false ?_ fun h => hknown h.1
    rintro ⟨summary, hsummary, -⟩
    exact summary_throws hknown summary hsummary

end Amounts

end CardanoGraphql.AddressSummary
