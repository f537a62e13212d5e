import CardanoGraphql.AddressSummary
import CardanoGraphql.Bytea

namespace CardanoGraphql.BalanceFold

open HasuraClient OrderedMap AddressSummary

def foldBalances (utxos : List SelectedUtxo) : Except String (List AssetBalance) := do
  let map ← utxos.foldlM addUtxo []
  return map.map Prod.snd

def decimal (text : String) : Option Nat := BigNumber.parseDigits text.toList

/-- Outputs as Hasura returns them: `numeric` columns as digits, `bytea` columns as hex. -/
structure Outputs where
  utxos : List SelectedUtxo
  values : ∀ utxo ∈ utxos, (decimal utxo.value).isSome = true
  quantities : ∀ utxo ∈ utxos, ∀ token ∈ utxo.tokens, (decimal token.quantity).isSome = true
  assets : ∀ utxo ∈ utxos, ∀ token ∈ utxo.tokens,
    ∃ asset, token.asset = some asset ∧ ∃ bytes, asset.assetId = Bytea.byteaOut bytes

def heldTexts (assetId : String) (utxo : SelectedUtxo) : List String :=
  if assetId = adaAsset.assetId then [utxo.value]
  else (utxo.tokens.filter fun token =>
    decide (token.asset.map SummaryAsset.assetId = some assetId)).map Token.quantity

def amountsOf (utxos : List SelectedUtxo) (assetId : String) : List String :=
  utxos.flatMap (heldTexts assetId)

def total (texts : List String) : Nat := (texts.map fun text => (decimal text).getD 0).sum

structure ExactBalances (utxos : List SelectedUtxo) (balances : List AssetBalance) : Prop where
  unique : (balances.map fun entry => entry.asset.assetId).Nodup
  ada : (∃ entry ∈ balances, entry.asset.assetId = adaAsset.assetId) ↔ utxos ≠ []
  held : ∀ assetId, assetId ≠ adaAsset.assetId →
    ((∃ entry ∈ balances, entry.asset.assetId = assetId) ↔
      ∃ utxo ∈ utxos, ∃ token ∈ utxo.tokens, token.asset.map SummaryAsset.assetId = some assetId)
  exact : ∀ entry ∈ balances,
    entry.quantity = BigNumber.plain (total (amountsOf utxos entry.asset.assetId))

def ShownPlain : List String → Prop
  | [] => True
  | [text] => text = BigNumber.plain (total [text])
  | texts => total texts < 10 ^ 21

section Texts

theorem ofString_decimal {text : String} {n : Nat} (h : decimal text = some n) :
    BigNumber.ofString text = some n := by
  have hdigits : text.toList ≠ [] ∧ text.toList.all Char.isDigit = true := by
    rw [decimal, BigNumber.parseDigits] at h
    split at h
    · assumption
    · cases h
  have hchar : ∀ c ∈ text.toList, c ≠ 'e' ∧ c ≠ '.' := by
    intro c hc
    have hd := List.all_eq_true.mp hdigits.2 c hc
    constructor
    · rintro rfl
      exact absurd hd (by decide)
    · rintro rfl
      exact absurd hd (by decide)
  rw [BigNumber.ofString, BigNumber.ofChars_eq_parseDigits hchar]
  exact h

theorem foldl_plus {text : String} {m : Nat} (h : BigNumber.ofString text = some m)
    {texts : List String} (htexts : ∀ t ∈ texts, (decimal t).isSome = true) (hne : texts ≠ []) :
    texts.foldl BigNumber.plus text = BigNumber.toString (m + total texts) := by
  induction texts generalizing text m with
  | nil => exact absurd rfl hne
  | cons t texts ih =>
      obtain ⟨ht, hrest⟩ := List.forall_mem_cons.mp htexts
      obtain ⟨n, hn⟩ := Option.isSome_iff_exists.mp ht
      have hstep : BigNumber.plus text t = BigNumber.toString (m + n) := by
        rw [BigNumber.plus, h, ofString_decimal hn]
      have htotal : total (t :: texts) = n + total texts := by
        rw [total, List.map_cons, List.sum_cons, hn, Option.getD_some, total]
      rw [List.foldl_cons, hstep, htotal, ← Nat.add_assoc]
      by_cases hnil : texts = []
      · rw [hnil]
        rfl
      · exact ih (BigNumber.ofString_toString (m + n)) hrest hnil

end Texts

section Fold

def addText (current : Option String) (text : String) : Option String :=
  some (current.elim text fun running => BigNumber.plus running text)

def textAt (map : Balances) (key : String) : Option String := (get? map key).map AssetBalance.quantity

theorem textAt_addBalance (map : Balances) (key : String) (entry : AssetBalance) (key' : String) :
    textAt (addBalance map key entry) key' =
      if key' = key then addText (textAt map key') entry.quantity else textAt map key' := by
  rw [textAt, textAt, addBalance]
  by_cases hk : key' = key
  · subst hk
    cases hg : get? map key' with
    | none => simp [get?_set, addText]
    | some current => simp [get?_set, addText]
  · cases hg : get? map key with
    | none => simp [get?_set, hk]
    | some current => simp [get?_set, hk]

theorem textAt_addEntries (map entries : Balances) (key : String) :
    textAt (addEntries map entries) key =
      ((entries.filter fun entry => decide (key = entry.1)).map fun entry => entry.2.quantity).foldl
        addText (textAt map key) := by
  induction entries generalizing map with
  | nil => rfl
  | cons entry entries ih =>
      have hstep : addEntries map (entry :: entries) = addEntries (addBalance map entry.1 entry.2) entries := rfl
      rw [hstep, ih, textAt_addBalance]
      by_cases hk : key = entry.1
      · rw [if_pos hk, List.filter_cons_of_pos (by simpa using hk), List.map_cons, List.foldl_cons]
      · rw [if_neg hk, List.filter_cons_of_neg (by simpa using hk)]

theorem addBalance_nodup {map : Balances} (hmap : (map.map Prod.fst).Nodup) (key : String)
    (entry : AssetBalance) : ((addBalance map key entry).map Prod.fst).Nodup := by
  rw [addBalance]
  split
  · exact set_nodup hmap key _
  · exact set_nodup hmap key _

theorem addEntries_nodup {map : Balances} (hmap : (map.map Prod.fst).Nodup) (entries : Balances) :
    ((addEntries map entries).map Prod.fst).Nodup := by
  induction entries generalizing map with
  | nil => exact hmap
  | cons entry entries ih => exact ih (addBalance_nodup hmap entry.1 entry.2)

theorem foldl_addText (texts : List String) :
    texts.foldl addText none = texts.head?.map fun text => texts.tail.foldl BigNumber.plus text := by
  have hsome : ∀ (texts : List String) (text : String),
      texts.foldl addText (some text) = some (texts.foldl BigNumber.plus text) := by
    intro texts
    induction texts with
    | nil => exact fun text => rfl
    | cons t texts ih => exact fun text => ih (BigNumber.plus text t)
  cases texts with
  | nil => rfl
  | cons text texts => exact hsome texts text

/-- The text that the loop ends with is the plain one exactly where it never passes 10^21. -/
theorem foldl_addText_plain_iff {texts : List String} {shown : String}
    (htexts : ∀ t ∈ texts, (decimal t).isSome = true) (hshown : texts.foldl addText none = some shown) :
    shown = BigNumber.plain (total texts) ↔ ShownPlain texts := by
  rw [foldl_addText] at hshown
  rcases texts with _ | ⟨text, _ | ⟨next, rest⟩⟩
  · cases hshown
  · obtain rfl : text = shown := Option.some.inj hshown
    exact Iff.rfl
  · obtain ⟨htext, hrest⟩ := List.forall_mem_cons.mp htexts
    obtain ⟨m, hm⟩ := Option.isSome_iff_exists.mp htext
    have htotal : total (text :: next :: rest) = m + total (next :: rest) := by
      rw [total, List.map_cons, List.sum_cons, hm, Option.getD_some, total]
    have hsum := foldl_plus (ofString_decimal hm) hrest (List.cons_ne_nil next rest)
    obtain rfl : (next :: rest).foldl BigNumber.plus text = shown := Option.some.inj hshown
    have hplain : ShownPlain (text :: next :: rest) = (total (text :: next :: rest) < 10 ^ 21) := rfl
    rw [hplain, hsum, htotal]
    exact BigNumber.toString_eq_plain_iff _

end Fold

section Balances

def keyOf (assetId : String) : String := if assetId = adaAsset.assetId then "ada" else assetId

theorem byteaOut_ne_ada (bytes : Bytea.Bytes) :
    Bytea.byteaOut bytes ≠ "ada" ∧ Bytea.byteaOut bytes ≠ adaAsset.assetId := by
  have hread := Bytea.byteaIn_byteaOut bytes
  have hada : Bytea.byteaIn "ada" = none := by decide
  have hxada : Bytea.byteaIn adaAsset.assetId = none := by decide
  constructor
  · intro h
    rw [h, hada] at hread
    cases hread
  · intro h
    rw [h, hxada] at hread
    cases hread

variable (outputs : Outputs)

theorem Outputs.token_assetId {outputs : Outputs} {utxo : SelectedUtxo} (hutxo : utxo ∈ outputs.utxos)
    {token : Token} (htoken : token ∈ utxo.tokens) {asset : SummaryAsset} (ha : token.asset = some asset) :
    asset.assetId ≠ "ada" ∧ asset.assetId ≠ adaAsset.assetId := by
  obtain ⟨other, hother, bytes, hbytes⟩ := outputs.assets utxo hutxo token htoken
  obtain rfl : asset = other := Option.some.inj (ha.symm.trans hother)
  rw [hbytes]
  exact byteaOut_ne_ada bytes

theorem Outputs.assetsKnown : outputs.utxos.all assetsKnown = true := by
  rw [List.all_eq_true]
  intro utxo hutxo
  rw [HasuraClient.assetsKnown, List.all_eq_true]
  intro token htoken
  obtain ⟨asset, ha, -⟩ := outputs.assets utxo hutxo token htoken
  rw [ha, Option.isSome_some]

theorem Outputs.entries_keyed : ∀ p ∈ outputs.utxos.flatMap utxoEntries, Keyed p := by
  intro p hp
  obtain ⟨utxo, hutxo, hp⟩ := List.mem_flatMap.mp hp
  rcases List.mem_cons.mp hp with rfl | hp
  · exact Or.inl ⟨rfl, rfl⟩
  · obtain ⟨token, htoken, hp⟩ := List.mem_filterMap.mp hp
    obtain ⟨asset, ha, rfl⟩ := Option.map_eq_some_iff.mp hp
    exact Or.inr ⟨rfl, Outputs.token_assetId hutxo htoken ha⟩

theorem tokenEntries_texts {tokens : List Token} {key : String} :
    ((tokens.filterMap fun token => token.asset.map fun asset =>
        (asset.assetId, (⟨asset, token.quantity⟩ : AssetBalance))).filter fun entry =>
          decide (key = entry.1)).map (fun entry => entry.2.quantity) =
      (tokens.filter fun token =>
        decide (token.asset.map SummaryAsset.assetId = some key)).map Token.quantity := by
  induction tokens with
  | nil => rfl
  | cons token tokens ih =>
      cases ha : token.asset with
      | none =>
          rw [List.filterMap_cons_none (by rw [ha]; rfl), List.filter_cons_of_neg (by simp [ha]), ih]
      | some asset =>
          rw [List.filterMap_cons_some (by rw [ha]; rfl)]
          by_cases hk : key = asset.assetId
          · rw [List.filter_cons_of_pos (by simpa using hk),
              List.filter_cons_of_pos (by simp [ha, hk]), List.map_cons, List.map_cons, ih]
          · rw [List.filter_cons_of_neg (by simpa using hk),
              List.filter_cons_of_neg (by simpa [ha] using Ne.symm hk), ih]

theorem Outputs.entries_texts {assetId : String} (hne : assetId ≠ "ada") :
    ((outputs.utxos.flatMap utxoEntries).filter fun entry => decide (keyOf assetId = entry.1)).map
        (fun entry => entry.2.quantity) = amountsOf outputs.utxos assetId := by
  have hutxo : ∀ utxo ∈ outputs.utxos,
      ((utxoEntries utxo).filter fun entry => decide (keyOf assetId = entry.1)).map
        (fun entry => entry.2.quantity) = heldTexts assetId utxo := by
    intro utxo hu
    rw [utxoEntries, heldTexts, keyOf]
    by_cases hada : assetId = adaAsset.assetId
    · rw [if_pos hada, if_pos hada, List.filter_cons_of_pos (by simp), List.map_cons, tokenEntries_texts]
      have hnone : (utxo.tokens.filter fun token =>
          decide (token.asset.map SummaryAsset.assetId = some "ada")) = [] := by
        rw [List.filter_eq_nil_iff]
        intro token htoken htext
        obtain ⟨asset, ha, hid⟩ := Option.map_eq_some_iff.mp (of_decide_eq_true htext)
        exact (Outputs.token_assetId hu htoken ha).1 hid
      rw [hnone]
      rfl
    · rw [if_neg hada, if_neg hada, List.filter_cons_of_neg (by simpa using hne), tokenEntries_texts]
  rw [amountsOf, List.filter_flatMap, List.map_flatMap]
  exact List.flatMap_congr fun utxo hu => hutxo utxo hu

theorem Outputs.amounts_decimal (assetId : String) :
    ∀ text ∈ amountsOf outputs.utxos assetId, (decimal text).isSome = true := by
  intro text htext
  obtain ⟨utxo, hu, htext⟩ := List.mem_flatMap.mp htext
  rw [heldTexts] at htext
  split at htext
  · rw [List.mem_singleton.mp htext]
    exact outputs.values utxo hu
  · obtain ⟨token, htoken, rfl⟩ := List.mem_map.mp htext
    exact outputs.quantities utxo hu token (List.mem_filter.mp htoken).1

def Outputs.map : Balances := addEntries [] (outputs.utxos.flatMap utxoEntries)

theorem foldBalances_eq : foldBalances outputs.utxos = .ok (outputs.map.map Prod.snd) := by
  have hfold := foldlM_addUtxo [] outputs.utxos
  rw [if_pos outputs.assetsKnown] at hfold
  cases hmap : outputs.utxos.foldlM addUtxo [] with
  | error e =>
      rw [hmap] at hfold
      cases hfold
  | ok map =>
      rw [hmap] at hfold
      have heq : map = outputs.map := Option.some.inj hfold
      rw [foldBalances, hmap, heq]
      rfl

theorem Outputs.map_nodup : (outputs.map.map Prod.fst).Nodup := addEntries_nodup (by simp) _

theorem Outputs.map_keyed : ∀ p ∈ outputs.map, Keyed p :=
  addEntries_keyed (fun _ hp => absurd hp List.not_mem_nil) outputs.entries_keyed

theorem keyed_keyOf {p : String × AssetBalance} (h : Keyed p) :
    p.1 = keyOf p.2.asset.assetId ∧ p.2.asset.assetId ≠ "ada" := by
  have hada : adaAsset.assetId ≠ "ada" := by decide
  rw [keyOf]
  rcases h with ⟨hkey, hid⟩ | ⟨hkey, hne, hxada⟩
  · rw [if_pos hid, hid]
    exact ⟨hkey, hada⟩
  · rw [hkey] at hne hxada
    rw [if_neg hxada]
    exact ⟨hkey, hne⟩

theorem keyOf_injective {a b : String} (ha : a ≠ "ada") (hb : b ≠ "ada") (h : keyOf a = keyOf b) : a = b := by
  rw [keyOf, keyOf] at h
  split at h
  · next hxa =>
      split at h
      · next hxb => rw [hxa, hxb]
      · exact absurd h.symm hb
  · split at h
    · exact absurd h ha
    · exact h

theorem Outputs.textAt_map {assetId : String} (hne : assetId ≠ "ada") :
    textAt outputs.map (keyOf assetId) = (amountsOf outputs.utxos assetId).foldl addText none := by
  rw [Outputs.map, textAt_addEntries, outputs.entries_texts hne]
  rfl

theorem Outputs.text_of_mem {entry : AssetBalance} (h : entry ∈ outputs.map.map Prod.snd) :
    (amountsOf outputs.utxos entry.asset.assetId).foldl addText none = some entry.quantity := by
  obtain ⟨p, hp, rfl⟩ := List.mem_map.mp h
  obtain ⟨hkey, hne⟩ := keyed_keyOf (outputs.map_keyed p hp)
  rw [← outputs.textAt_map hne, ← hkey, textAt, get?_of_mem outputs.map_nodup hp, Option.map_some]

theorem Outputs.shown_iff (assetId : String) :
    (∃ entry ∈ outputs.map.map Prod.snd, entry.asset.assetId = assetId) ↔
      amountsOf outputs.utxos assetId ≠ [] := by
  constructor
  · rintro ⟨entry, hentry, rfl⟩ hnil
    have htext := outputs.text_of_mem hentry
    rw [hnil] at htext
    cases htext
  · intro hheld
    have hne : assetId ≠ "ada" := by
      rintro rfl
      obtain ⟨text, htext⟩ := List.exists_mem_of_ne_nil _ hheld
      obtain ⟨utxo, hu, htext⟩ := List.mem_flatMap.mp htext
      rw [heldTexts, if_neg (by decide)] at htext
      obtain ⟨token, htoken, -⟩ := List.mem_map.mp htext
      obtain ⟨htoken, hid⟩ := List.mem_filter.mp htoken
      obtain ⟨asset, ha, hid⟩ := Option.map_eq_some_iff.mp (of_decide_eq_true hid)
      exact (Outputs.token_assetId hu htoken ha).1 hid
    have htext := outputs.textAt_map hne
    rw [foldl_addText] at htext
    obtain ⟨first, hfirst⟩ := Option.isSome_iff_exists.mp (List.isSome_head?.mpr hheld)
    rw [hfirst, Option.map_some] at htext
    obtain ⟨entry, hentry, -⟩ := Option.map_eq_some_iff.mp htext
    have hmem := mem_of_get? hentry
    obtain ⟨hkey, hid⟩ := keyed_keyOf (outputs.map_keyed _ hmem)
    exact ⟨entry, List.mem_map_of_mem hmem, keyOf_injective hid hne hkey.symm⟩

theorem amountsOf_ada (utxos : List SelectedUtxo) : amountsOf utxos adaAsset.assetId ≠ [] ↔ utxos ≠ [] := by
  cases utxos with
  | nil => simp [amountsOf]
  | cons utxo utxos => simp [amountsOf, heldTexts]

theorem amountsOf_held {utxos : List SelectedUtxo} {assetId : String} (hne : assetId ≠ adaAsset.assetId) :
    amountsOf utxos assetId ≠ [] ↔
      ∃ utxo ∈ utxos, ∃ token ∈ utxo.tokens, token.asset.map SummaryAsset.assetId = some assetId := by
  simp only [amountsOf, ne_eq, List.flatMap_eq_nil_iff, not_forall, heldTexts, if_neg hne, List.map_eq_nil_iff,
    List.filter_eq_nil_iff, decide_eq_true_eq, not_not, exists_prop]

theorem Outputs.map_unique : ((outputs.map.map Prod.snd).map fun entry => entry.asset.assetId).Nodup := by
  have hkeys : outputs.map.map Prod.fst =
      ((outputs.map.map Prod.snd).map fun entry => entry.asset.assetId).map keyOf := by
    rw [List.map_map, List.map_map]
    exact List.map_congr_left fun p hp => (keyed_keyOf (outputs.map_keyed p hp)).1
  have hnodup := outputs.map_nodup
  rw [hkeys] at hnodup
  exact List.Nodup.of_map keyOf hnodup

/-- The loop is exact exactly where no sum of several amounts reaches 10^21. -/
theorem balances_exact_iff : (∃ balances, foldBalances outputs.utxos = .ok balances ∧
      ExactBalances outputs.utxos balances) ↔
    ∀ assetId, ShownPlain (amountsOf outputs.utxos assetId) := by
  rw [foldBalances_eq]
  constructor
  · rintro ⟨balances, heq, hexact⟩ assetId
    obtain rfl : outputs.map.map Prod.snd = balances := Except.ok.inj heq
    by_cases hheld : amountsOf outputs.utxos assetId = []
    · rw [hheld]
      trivial
    · obtain ⟨entry, hentry, rfl⟩ := (outputs.shown_iff assetId).mpr hheld
      exact (foldl_addText_plain_iff (outputs.amounts_decimal _) (outputs.text_of_mem hentry)).mp
        (hexact.exact entry hentry)
  · intro hplain
    refine ⟨_, rfl, outputs.map_unique, ?_, ?_, ?_⟩
    · rw [outputs.shown_iff, amountsOf_ada]
    · intro assetId hne
      rw [outputs.shown_iff, amountsOf_held hne]
    · intro entry hentry
      exact (foldl_addText_plain_iff (outputs.amounts_decimal _) (outputs.text_of_mem hentry)).mpr
        (hplain entry.asset.assetId)

end Balances

def fullToken : Token :=
  { asset := some { adaAsset with assetId := "\\xcafe", name := none }
    quantity := "18446744073709551615" }

def fullOutputs : Outputs where
  utxos := List.replicate 55 ⟨"1000000", [fullToken]⟩
  values := by
    intro utxo hutxo
    rw [(List.mem_replicate.mp hutxo).2]
    decide
  quantities := by
    intro utxo hutxo token htoken
    rw [(List.mem_replicate.mp hutxo).2] at htoken
    rw [List.mem_singleton.mp htoken]
    decide
  assets := by
    intro utxo hutxo token htoken
    rw [(List.mem_replicate.mp hutxo).2] at htoken
    rw [List.mem_singleton.mp htoken]
    exact ⟨_, rfl, [0xca, 0xfe], by decide⟩

theorem fullOutputs_exponential :
    (∃ balances, foldBalances fullOutputs.utxos = .ok balances ∧ ∃ entry ∈ balances,
      entry.asset.assetId = "\\xcafe" ∧ entry.quantity = "1.014570924054025338825e+21") ∧
    ¬ ∃ balances, foldBalances fullOutputs.utxos = .ok balances ∧
      ExactBalances fullOutputs.utxos balances := by
  have hheld : amountsOf fullOutputs.utxos "\\xcafe" = List.replicate 55 "18446744073709551615" := by
    decide +kernel
  have htotal : total (List.replicate 54 "18446744073709551615") = 54 * 18446744073709551615 := by
    decide +kernel
  have hfold : (List.replicate 55 "18446744073709551615").foldl addText none =
      some "1.014570924054025338825e+21" := by
    have hdecimal : ∀ text ∈ List.replicate 54 "18446744073709551615", (decimal text).isSome = true := by
      intro text htext
      rw [(List.mem_replicate.mp htext).2]
      decide
    have hsum := @foldl_plus "18446744073709551615" 18446744073709551615 (by decide) _ hdecimal (by decide)
    rw [List.replicate_succ, foldl_addText, List.head?_cons, Option.map_some, List.tail_cons, hsum, htotal]
    decide +kernel
  obtain ⟨entry, hentry, hid⟩ := (fullOutputs.shown_iff "\\xcafe").mpr (by rw [hheld]; decide)
  have htext := fullOutputs.text_of_mem hentry
  rw [hid, hheld, hfold] at htext
  have hquantity : entry.quantity = "1.014570924054025338825e+21" := (Option.some.inj htext).symm
  refine ⟨⟨_, foldBalances_eq fullOutputs, entry, hentry, hid, hquantity⟩, ?_⟩
  rintro ⟨balances, heq, hexact⟩
  obtain rfl : fullOutputs.map.map Prod.snd = balances :=
    Except.ok.inj ((foldBalances_eq fullOutputs).symm.trans heq)
  have hplain := hexact.exact entry hentry
  rw [hquantity, hid, hheld] at hplain
  exact absurd hplain (by decide +kernel)

end CardanoGraphql.BalanceFold
