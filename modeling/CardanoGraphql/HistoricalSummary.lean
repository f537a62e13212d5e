import CardanoGraphql.SummaryLimits
import CardanoGraphql.UnspentAfter

namespace CardanoGraphql.HistoricalSummary

open DbSync SqlJoin HasuraClient AddressSummary SummaryLimits UnspentAfter

section Balance

variable (db : Tables) (address : String) (b : Nat)

def unbounded : List TransactionOutput := if b = 0 then createdSince db address b else []

theorem bounded_balance (f : TransactionOutput → Nat) :
    ((boundedUtxos db address b).map f).sum + ((spentSince db address b).map f).sum =
      ((unspentAfter db address b).map f).sum + ((unbounded db address b).map f).sum := by
  have hunbounded : unbounded db address b = ((txOutputs db).filter fun p =>
      decide (b = 0) && (decide (p.2.address = address) &&
        (!spent db p.2 && !includedUpTo db b p.1))).map outputRow := by
    rw [unbounded]
    by_cases hb : b = 0
    · rw [if_pos hb, createdSince]
      simp only [hb, decide_true, Bool.true_and]
    · rw [if_neg hb, eq_comm, List.map_eq_nil_iff, List.filter_eq_nil_iff]
      simp [hb]
  rw [hunbounded, boundedUtxos, spentSince, unspentAfter]
  simp only [List.map_map]
  have hrow : ∀ atAddress isSpent consumed created noBound : Bool, (consumed = true → isSpent = true) →
      (atAddress && (!isSpent && (noBound || created))).toNat + (atAddress && (created && !consumed) && isSpent).toNat =
        (atAddress && (created && !consumed)).toNat + (noBound && (atAddress && (!isSpent && !created))).toNat := by
    decide
  exact sum_filter_balance (f ∘ outputRow) fun p _ => hrow _ _ _ _ _ (consumedUpTo_spent db)

theorem length_eq_sum (rows : List TransactionOutput) : rows.length = (rows.map fun _ => 1).sum := by
  simp

theorem bounded_length : (boundedUtxos db address b).length + (spentSince db address b).length =
    (unspentAfter db address b).length + (unbounded db address b).length := by
  simp only [length_eq_sum]
  exact bounded_balance db address b fun _ => 1

theorem boundedUtxos_of_unspent (hb : b ≠ 0) (h : spentSince db address b = []) :
    boundedUtxos db address b = unspentAfter db address b := by
  rw [spentSince, List.map_eq_nil_iff, List.filter_eq_nil_iff] at h
  rw [boundedUtxos, unspentAfter]
  congr 1
  have hrow : ∀ atAddress isSpent consumed created : Bool, (consumed = true → isSpent = true) →
      ¬ (atAddress && (created && !consumed) && isSpent) = true →
      (atAddress && (!isSpent && (false || created))) = (atAddress && (created && !consumed)) := by
    decide
  refine List.filter_congr fun p hp => ?_
  rw [decide_eq_false hb]
  exact hrow _ _ _ _ (consumedUpTo_spent db) (h p hp)

end Balance

section Exactness

/-- `surplus` makes up for `missing` and for what the limits drop of `rows`, in the number of
outputs and in every amount. -/
structure Compensates (db : Tables) (surplus missing rows : List TransactionOutput) : Prop where
  count : surplus.length = missing.length
  ada : adaTotal surplus = adaTotal missing + adaTotal (rows.drop selectLimit)
  assets : ∀ assetId, assetId ≠ adaAsset.assetId →
    assetTotal (tokensOf db) surplus assetId = assetTotal (tokensOf db) missing assetId + droppedTotal db rows assetId

def HistoryKept (db : Tables) (assets : List HasuraBackgroundClient.Asset) (address : String) (b : Nat) : Prop :=
  if b = 0 then KeptKnown db assets (addressUtxos db address) ∧
    Compensates db (createdSince db address 0) (spentSince db address 0) (addressUtxos db address)
  else spentSince db address b = [] ∧ KeptKnown db assets (unspentAfter db address b) ∧
    NothingDropped db (unspentAfter db address b)

variable (db : Database) (assets : List HasuraBackgroundClient.Asset) (address : String) (b : Nat)

theorem exact_iff_compensates :
    (∃ summary, getPaymentAddressSummary db.toTables assets address (some (b : Int)) = .ok summary ∧
        Exact db.toTables (unspentAfter db.toTables address b) summary) ↔
      KeptKnown db.toTables assets (boundedUtxos db.toTables address b) ∧
        Compensates db.toTables (unbounded db.toTables address b)
          (spentSince db.toTables address b) (boundedUtxos db.toTables address b) := by
  have hlength := bounded_length db.toTables address b
  have hvalue : adaTotal (boundedUtxos db.toTables address b) + adaTotal (spentSince db.toTables address b) =
      adaTotal (unspentAfter db.toTables address b) + adaTotal (unbounded db.toTables address b) :=
    bounded_balance db.toTables address b TransactionOutput.value
  have htokens : ∀ assetId, assetTotal (tokensOf db.toTables) (boundedUtxos db.toTables address b) assetId +
        assetTotal (tokensOf db.toTables) (spentSince db.toTables address b) assetId =
      assetTotal (tokensOf db.toTables) (unspentAfter db.toTables address b) assetId +
        assetTotal (tokensOf db.toTables) (unbounded db.toTables address b) assetId := fun assetId =>
    bounded_balance db.toTables address b fun utxo => tokenTotal (tokensOf db.toTables utxo) assetId
  have hsplit := adaTotal_split (boundedUtxos db.toTables address b)
  have hsplits := assetTotal_split db.toTables (boundedUtxos db.toTables address b)
  rw [accounts_iff, matchingUtxos_some]
  refine and_congr_right fun _ => ?_
  constructor
  · rintro ⟨hcount, hada, hassets⟩
    refine ⟨by omega, by omega, fun assetId hne => ?_⟩
    have := hassets assetId hne
    have := htokens assetId
    have := hsplits assetId
    omega
  · rintro ⟨hcount, hada, hassets⟩
    refine ⟨by omega, by omega, fun assetId hne => ?_⟩
    have := hassets assetId hne
    have := htokens assetId
    have := hsplits assetId
    omega

theorem boundedUtxos_zero : boundedUtxos db.toTables address 0 = addressUtxos db.toTables address := by
  have h := matchingUtxos_some db address 0
  rw [← h, ← matchingUtxos_none]
  rfl

theorem compensates_iff (hb : b ≠ 0) : Compensates db.toTables (unbounded db.toTables address b)
        (spentSince db.toTables address b) (boundedUtxos db.toTables address b) ↔
    spentSince db.toTables address b = [] ∧ NothingDropped db.toTables (boundedUtxos db.toTables address b) := by
  have hnone : unbounded db.toTables address b = [] := if_neg hb
  rw [nothingDropped_iff]
  constructor
  · intro h
    have hcount := h.count
    have hada := h.ada
    rw [hnone] at hcount hada
    have hspent : spentSince db.toTables address b = [] := List.length_eq_zero_iff.mp hcount.symm
    rw [hspent] at hada
    refine ⟨hspent, ?_, fun assetId hne => ?_⟩
    · have hnil : adaTotal [] = 0 := rfl
      omega
    · have hassets := h.assets assetId hne
      rw [hnone, hspent, assetTotal, List.map_nil, List.sum_nil] at hassets
      omega
  · rintro ⟨hspent, hada, hassets⟩
    refine ⟨by rw [hnone, hspent], by rw [hnone, hspent, hada, Nat.add_zero], fun assetId hne => ?_⟩
    rw [hnone, hspent, hassets assetId hne, Nat.add_zero]

/-- The summary at block `b` is that of the outputs unspent after block `b` exactly when no
later block consumed one of them and the limits cut off no amount; at block 0, which the query
takes for no bound, exactly when the surplus happens to make up for the rest. -/
theorem historical_summary_iff :
    (∃ summary, getPaymentAddressSummary db.toTables assets address (some (b : Int)) = .ok summary ∧
        Exact db.toTables (unspentAfter db.toTables address b) summary) ↔
      HistoryKept db.toTables assets address b := by
  rw [exact_iff_compensates, HistoryKept]
  by_cases hb : b = 0
  · subst hb
    rw [if_pos rfl, boundedUtxos_zero]
    rw [unbounded, if_pos rfl]
  · rw [if_neg hb, compensates_iff db address b hb]
    constructor
    · rintro ⟨hknown, hspent, hdropped⟩
      rw [boundedUtxos_of_unspent db.toTables address b hb hspent] at hknown hdropped
      exact ⟨hspent, hknown, hdropped⟩
    · rintro ⟨hspent, hknown, hdropped⟩
      rw [boundedUtxos_of_unspent db.toTables address b hb hspent]
      exact ⟨hknown, hspent, hdropped⟩

end Exactness

def received : Database := { SummaryLimits.manyOutputs with txOut := [⟨1, 1, 0, "addr1", 5⟩] }

def receivedThenSpent : Database :=
  { received with
    block := [⟨1, "\\xb1", some 1, some 20⟩, ⟨2, "\\xb2", some 2, some 40⟩]
    tx := [⟨1, "\\xa1", 1, none⟩, ⟨2, "\\xa2", 2, none⟩]
    txIn := [⟨2, 1, 0⟩]
    block_id := by decide
    block_hash := by decide
    tx_id := by decide
    tx_hash := by decide }

theorem received_extends : ExtendsBeyond 1 received.toTables receivedThenSpent.toTables where
  block := ⟨[⟨2, "\\xb2", some 2, some 40⟩], rfl, by decide⟩
  tx := ⟨[⟨2, "\\xa2", 2, none⟩], rfl, by decide⟩
  txOut := ⟨[], rfl, by decide⟩
  txIn := ⟨[⟨2, 1, 0⟩], rfl, by decide⟩

theorem spent_output_forgotten :
    (ExtendsBeyond 1 received.toTables receivedThenSpent.toTables ∧
      getPaymentAddressSummary received.toTables [] "addr1" (some 1) = .ok ⟨[⟨adaAsset, "5"⟩], 1⟩ ∧
      getPaymentAddressSummary receivedThenSpent.toTables [] "addr1" (some 1) = .ok ⟨[], 0⟩ ∧
      (unspentAfter receivedThenSpent.toTables "addr1" 1).length = 1 ∧
      ¬ ∃ summary, getPaymentAddressSummary receivedThenSpent.toTables [] "addr1" (some 1) = .ok summary ∧
        Exact receivedThenSpent.toTables (unspentAfter receivedThenSpent.toTables "addr1" 1) summary) ∧
    getPaymentAddressSummary received.toTables [] "addr1" (some 0) = .ok ⟨[⟨adaAsset, "5"⟩], 1⟩ ∧
      unspentAfter received.toTables "addr1" 0 = [] := by
  have hsummary : getPaymentAddressSummary receivedThenSpent.toTables [] "addr1" (some 1) = .ok ⟨[], 0⟩ := by
    decide +kernel
  have hlength : (unspentAfter receivedThenSpent.toTables "addr1" 1).length = 1 := by decide +kernel
  refine ⟨⟨received_extends, by decide +kernel, hsummary, hlength, ?_⟩, by decide +kernel, by decide +kernel⟩
  rintro ⟨summary, hother, hexact⟩
  obtain rfl : summary = ⟨[], 0⟩ := Except.ok.inj (hother.symm.trans hsummary)
  have hcount := hexact.count
  rw [hlength] at hcount
  cases hcount

end CardanoGraphql.HistoricalSummary
