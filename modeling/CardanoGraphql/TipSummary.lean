import CardanoGraphql.AssetSync
import CardanoGraphql.LedgerViews

namespace CardanoGraphql.TipSummary

open Runs UtxoLedger ChainFollower SaveAsset AssetSync HasuraClient AddressSummary

section Follower

variable (env : Externals)

theorem saveAsset_at_tip (hok : Reliable env) {b : BlockBody} {tip : Tip} (htip : isTip b tip = true)
    (m : String × String) (s : Follower) :
    (exec (saveAsset env m.1 (some m.2) b tip) s).cacheAssets = [] := by
  have h := saveAsset_saves env m.1 (some m.2) b tip s
  have hdue : due env (isTip b tip) (s.push (cacheEntry env m.1 (some m.2) b)) = true := by
    rw [due, htip, Bool.true_or, Bool.true_or]
  rw [hdue] at h
  generalize exec (saveAsset env m.1 (some m.2) b tip) s = t at h ⊢
  generalize (call (saveAsset env m.1 (some m.2) b tip) s).1 = r at h
  cases h with
  | flushed timer reads u hu hcall => rfl
  | unapplied timer reads u hu hcall =>
      rw [hok.inserts] at hcall
      cases hcall
  | applied timer reads u hu hcall =>
      rw [hok.inserts] at hcall
      cases hcall

theorem saveAll_leaves (hok : Reliable env) {b : BlockBody} {tip : Tip} {P : Follower → Prop}
    (hsave : ∀ (m : String × String) s, P (exec (saveAsset env m.1 (some m.2) b tip) s))
    {mints : List (String × String)} (hmints : mints ≠ []) (s : Follower) : P (exec (saveAll env b tip mints) s) := by
  induction mints generalizing s with
  | nil => exact absurd rfl hmints
  | cons m ms ih =>
      rw [exec_saveAll_cons env hok.inserts]
      cases ms with
      | nil => exact hsave m s
      | cons m' ms => exact ih (List.cons_ne_nil m' ms) _

theorem rollForward_at_tip (hok : Reliable env) {block : Block} {b : BlockBody} {tip : Tip}
    (hbody : block.body = some b) (htip : isTip b tip = true) (hmints : mintsOf b ≠ []) (s : Follower) :
    (exec (rollForward env block tip) s).cacheAssets = [] := by
  rw [exec_rollForward, exec_saveBlock, hbody]
  exact saveAll_leaves env hok (P := fun t => t.cacheAssets = [])
    (fun m u => saveAsset_at_tip env hok htip m u) hmints s

theorem regular_synced_of_clean (hok : Reliable env) {msgs : List Message} {s : Sync}
    (hclean : EachStep (deliver env) CleanMessage (initial env) msgs)
    (hrun : run (deliver env) (initial env) msgs = some s) : Regular s ∧ Synced s := by
  have hboth : Throughout (deliver env) (fun t => Regular t ∧ Synced t) (initial env) msgs := by
    refine run_invariant (G := CleanMessage) ?_ ⟨⟨List.Pairwise.nil, List.nodup_nil⟩, initial_synced env⟩ hclean
    intro a msg t ha hmsg hstep
    exact ⟨deliver_regular env hok a t msg ha.1 hstep, (deliver_synced_iff env hok a t msg ha.1 ha.2 hstep).mpr hmsg⟩
  exact hboth msgs List.prefix_rfl s hrun

end Follower

/-- Follower, views and query together. Once a block at the tip that mints has been processed, the
summary of an address is that of the ledger, where its tokens come from mints of the chain. -/
theorem summary_at_tip {env : Externals} (hok : Reliable env) {msgs : List Message} {block : Block} {b : BlockBody}
    {tip : Tip} {s : Sync}
    (hclean : EachStep (deliver env) CleanMessage (initial env) (msgs ++ [.rollForward block tip]))
    (hrun : run (deliver env) (initial env) (msgs ++ [.rollForward block tip]) = some s)
    (hbody : block.body = some b) (htip : isTip b tip = true) (hmints : mintsOf b ≠ [])
    {record : DbSync.Tables → LedgerViews.Entry → DbSync.Tables} (hrecord : LedgerViews.Records record)
    {db : DbSync.Database} {l l' : Ledger String String LedgerViews.AssetName} {es : List LedgerViews.Entry}
    (h : LedgerViews.Represents db.toTables l) (hledger : run LedgerViews.follow l es = some l') (address : String)
    (hminted : ∀ o ∈ l'.outputsOf address, ∀ token ∈ o.payment.tokens, ∃ c ∈ s.chain, Mints c token.1.assetId) :
    ∃ summary, getPaymentAddressSummary (es.foldl record db.toTables) s.follower.assets address none =
        .ok summary ∧ LedgerViews.Agrees l' address summary := by
  have hsynced := (regular_synced_of_clean env hok hclean hrun).2
  have hcache : s.follower.cacheAssets = [] := by
    rw [run_concat] at hrun
    obtain ⟨u, -, hlast⟩ := Option.bind_eq_some_iff.mp hrun
    rw [deliver] at hlast
    split at hlast
    · cases hlast
      exact rollForward_at_tip env hok hbody htip hmints u.follower
    · cases hlast
  have hblock := LedgerViews.block_recorded hrecord h hledger
  refine LedgerViews.summary_of_represented (LedgerViews.represented hrecord h hledger) (hblock ▸ db.block_id)
    (hblock ▸ db.block_hash) s.follower.assets address fun o ho token ht => ?_
  rcases (hsynced.named token.1.assetId).mpr (hminted o ho token ht) with hnamed | hnamed
  · obtain ⟨row, hrow, hid⟩ := List.mem_map.mp hnamed
    exact ⟨row, hrow, hid⟩
  · rw [hcache] at hnamed
    cases hnamed

def coinRun : List Message := [.rollForward (.praos (mintBlock 20 "b1" ["61"])) (.tip 20 "b1")]

theorem coinRun_isSome : (run (deliver quiet) (initial quiet) coinRun).isSome = true := by
  decide +kernel

theorem coinRun_summary :
    ∃ s, run (deliver quiet) (initial quiet) coinRun = some s ∧
      ∃ summary, getPaymentAddressSummary (LedgerViews.payment.foldl LedgerViews.numbered
          LedgerViews.emptyDatabase.toTables) s.follower.assets "addr2" none = .ok summary ∧
        summary.utxosCount = 2 ∧ balance summary adaAsset.assetId = some 11 ∧
        balance summary LedgerViews.coin.assetId = some 5 := by
  obtain ⟨s, hs⟩ := Option.isSome_iff_exists.mp coinRun_isSome
  have hclean : EachStep (deliver quiet) CleanMessage (initial quiet) coinRun := by
    refine EachStep.cons trivial fun t _ => ?_
    intro es e hp
    exact absurd (List.prefix_nil.mp hp) (List.append_ne_nil_of_right_ne_nil es (List.cons_ne_nil e []))
  have hminted : ∀ o ∈ LedgerViews.paid.outputsOf "addr2", ∀ token ∈ o.payment.tokens,
      ∃ c ∈ s.chain, Mints c token.1.assetId := by
    have hchain : ∀ o ∈ LedgerViews.paid.outputsOf "addr2", ∀ token ∈ o.payment.tokens,
        ∃ c ∈ ((run (deliver quiet) (initial quiet) coinRun).get coinRun_isSome).chain,
          Mints c token.1.assetId := by
      decide +kernel
    have hsame : (run (deliver quiet) (initial quiet) coinRun).get coinRun_isSome = s := Option.get_of_eq_some _ hs
    exact hsame ▸ hchain
  obtain ⟨summary, hsummary, hagrees⟩ :=
    @summary_at_tip quiet quiet_reliable [] (.praos (mintBlock 20 "b1" ["61"])) (mintBlock 20 "b1" ["61"])
      (.tip 20 "b1") s hclean hs rfl (by decide) (by decide) LedgerViews.numbered
      LedgerViews.numbered_records LedgerViews.emptyDatabase .empty LedgerViews.paid LedgerViews.payment
      LedgerViews.represents_empty (by decide) "addr2" hminted
  have hfew : LedgerViews.WithinLimits LedgerViews.paid "addr2" := ⟨by decide, by decide⟩
  exact ⟨s, hs, summary, hsummary, hagrees.count, hagrees.ada hfew, hagrees.assets hfew LedgerViews.coin⟩

end CardanoGraphql.TipSummary
