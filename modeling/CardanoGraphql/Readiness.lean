import CardanoGraphql.AssetKey
import CardanoGraphql.ServerLifecycle
import CardanoGraphql.TipSummary

namespace CardanoGraphql.Readiness

open Runs DbSync HasuraBackgroundClient ChainFollower SaveAsset AssetSync AssetKey
open SyncProgress ServerLifecycle

/-- What `tokenMints_aggregate(distinct_on: assetId)` counts. -/
def minted (maTxMint : List MaTxMintRecord) (multiAsset : List MultiAssetRecord) : List String :=
  ((tokenMints maTxMint multiAsset).map TokenMint.assetId).dedup

def waiting (s : Follower) : List String :=
  (s.cacheAssets.map fun a => withHexPrefix (some a.assetId)).dedup.filter fun assetId =>
    decide (assetId ∉ s.assets.map Asset.assetId)

def reported (port timer : Nat) (initialized : Bool) (syncPercentage : JsNumber) (s : Follower) (mints : List String)
    (server : Server) : Option (List Report) :=
  (resume port (.executeOperation timer) (.status initialized syncPercentage s.assets.length mints.length) server).map
    fun r => r.1.reports

theorem reported_ready_iff (port timer : Nat) (initialized : Bool) (syncPercentage : JsNumber) (s : Follower)
    (mints : List String) (server : Server) :
    reported port timer initialized syncPercentage s mints server = some (server.reports ++ [.dbReady timer]) ↔
      dbReady initialized s.assets.length mints.length = true := by
  rw [reported, resume, Option.map_some, Option.some_inj, reportStatus]
  by_cases hready : dbReady initialized s.assets.length mints.length = true
  · simp [hready, endHandler]
  · simp [hready, endHandler]

theorem stored_and_waiting {s : Sync} (hregular : Regular s) (hsynced : Synced s) {mints : List String}
    (hnodup : mints.Nodup) (hmints : ∀ assetId, assetId ∈ mints ↔ ∃ b ∈ s.chain, Mints b assetId) :
    s.follower.assets.length + (waiting s.follower).length = mints.length := by
  have hstored : (s.follower.assets.map Asset.assetId ++ waiting s.follower).Nodup := by
    refine List.Nodup.append hregular.keys ((List.nodup_dedup _).filter _) ?_
    intro assetId hrow hwaiting
    exact of_decide_eq_true (List.mem_filter.mp hwaiting).2 hrow
  have hsame : ∀ assetId, assetId ∈ s.follower.assets.map Asset.assetId ++ waiting s.follower ↔ assetId ∈ mints := by
    intro assetId
    rw [hmints, ← hsynced.named, Named, List.mem_append, waiting, List.mem_filter, List.mem_dedup, decide_eq_true_iff]
    by_cases hrow : assetId ∈ s.follower.assets.map Asset.assetId
    · simp only [hrow, true_or]
    · simp only [hrow, false_or, not_false_eq_true, and_true]
  have hperm := (List.perm_ext_iff_of_nodup hstored hnodup).mpr hsame
  rw [← hperm.length_eq, List.length_append, List.length_map]

section Cache

variable (env : Externals)

theorem saveAsset_bounded (hok : Reliable env) (b : BlockBody) (tip : Tip) (m : String × String) (s : Follower) :
    (exec (saveAsset env m.1 (some m.2) b tip) s).cacheAssets.length ≤ 1000 := by
  have h := saveAsset_saves env m.1 (some m.2) b tip s
  generalize hdue : due env (isTip b tip) (s.push (cacheEntry env m.1 (some m.2) b)) = flushed at h
  generalize exec (saveAsset env m.1 (some m.2) b tip) s = t at h ⊢
  generalize (call (saveAsset env m.1 (some m.2) b tip) s).1 = r at h
  cases h with
  | cached timer reads =>
      rw [due, Bool.or_eq_false_iff, Bool.or_eq_false_iff] at hdue
      exact Nat.le_of_not_lt (of_decide_eq_false hdue.1.2)
  | flushed timer reads u hu hcall => exact Nat.zero_le _
  | unapplied timer reads u hu hcall | applied timer reads u hu hcall =>
      rw [hok.inserts] at hcall
      cases hcall

theorem deliver_bounded (hok : Reliable env) {s t : Sync} {msg : Message}
    (hs : s.follower.cacheAssets.length ≤ 1000) (h : deliver env s msg = some t) :
    t.follower.cacheAssets.length ≤ 1000 := by
  cases msg with
  | rollBackward point =>
      cases h
      rw [(exec_rollBackward env hok point s.follower).2]
      exact hs
  | rollForward block tip =>
      rw [deliver] at h
      split at h
      · cases h
        show (exec (rollForward env block tip) s.follower).cacheAssets.length ≤ 1000
        rw [exec_rollForward, exec_saveBlock]
        cases block.body with
        | none => exact hs
        | some b =>
            show (exec (saveAll env b tip (mintsOf b)) s.follower).cacheAssets.length ≤ 1000
            by_cases hmints : mintsOf b = []
            · rw [hmints]
              exact hs
            · exact TipSummary.saveAll_leaves env hok (P := fun t => t.cacheAssets.length ≤ 1000)
                (saveAsset_bounded env hok b tip) hmints s.follower
      · cases h

theorem waiting_bounded (hok : Reliable env) {msgs : List Message} {s : Sync}
    (hrun : run (deliver env) (initial env) msgs = some s) : (waiting s.follower).length ≤ 1000 := by
  have hcache : s.follower.cacheAssets.length ≤ 1000 :=
    throughout_of_step (I := fun t => t.follower.cacheAssets.length ≤ 1000)
      (fun _ _ _ ht hstep => deliver_bounded env hok ht hstep) (Nat.zero_le _) msgs msgs List.prefix_rfl s hrun
  calc (waiting s.follower).length
      ≤ (s.follower.cacheAssets.map fun a => withHexPrefix (some a.assetId)).dedup.length :=
        List.length_filter_le _ _
    _ ≤ (s.follower.cacheAssets.map fun a => withHexPrefix (some a.assetId)).length :=
        (List.dedup_sublist _).length_le
    _ ≤ 1000 := by rwa [List.length_map]

end Cache

/-- Follower, view and server together, in every state of every run that keeps in step with its
chain. Where the view has the mints of that chain, the server reports `DB ready` exactly while not
more than one asset in 200 waits in the cache, which never holds more than 1000. -/
theorem ready_iff_few_waiting {env : Externals} (hok : Reliable env) {msgs : List Message} {s : Sync}
    (hclean : EachStep (deliver env) CleanMessage (initial env) msgs)
    (hrun : run (deliver env) (initial env) msgs = some s)
    {maTxMint : List MaTxMintRecord} {multiAsset : List MultiAssetRecord}
    (hmints : ∀ assetId, assetId ∈ minted maTxMint multiAsset ↔ ∃ b ∈ s.chain, Mints b assetId)
    (port timer : Nat) (initialized : Bool) (syncPercentage : JsNumber) (server : Server) :
    (reported port timer initialized syncPercentage s.follower (minted maTxMint multiAsset) server =
        some (server.reports ++ [.dbReady timer]) ↔
      initialized = true ∧ 0 < (minted maTxMint multiAsset).length ∧
        200 * (waiting s.follower).length ≤ (minted maTxMint multiAsset).length) ∧
    (waiting s.follower).length ≤ 1000 := by
  obtain ⟨hregular, hsynced⟩ := TipSummary.regular_synced_of_clean env hok hclean hrun
  have htotal : s.follower.assets.length + (waiting s.follower).length = (minted maTxMint multiAsset).length :=
    stored_and_waiting hregular hsynced (List.nodup_dedup _) hmints
  have hfew := waiting_bounded env hok hrun
  refine ⟨?_, hfew⟩
  rw [reported_ready_iff]
  by_cases hbound : (minted maTxMint multiAsset).length < 2 ^ 31
  · rw [dbReady_iff (by omega) hbound]
    constructor
    · rintro ⟨hinitialized, hpos, hcount⟩
      exact ⟨hinitialized, hpos, by omega⟩
    · rintro ⟨hinitialized, hpos, hcount⟩
      exact ⟨hinitialized, hpos, by omega⟩
  · -- of so many at most 1000 wait, which is less than one in 200
    have hready : dbReady true s.follower.assets.length (minted maTxMint multiAsset).length = true :=
      dbReady_of_stored (by omega) (by omega) (by omega)
    constructor
    · intro h
      exact ⟨(Bool.and_eq_true_iff.mp h).1, by omega, by omega⟩
    · rintro ⟨rfl, -, -⟩
      exact hready

def oneCached : List Message :=
  [.rollForward (.praos (mintBlock 20 "b1" ["61"])) (.tip 20 "b1"),
    .rollForward (.praos (mintBlock 30 "b2" ["62"])) (.tip 90 "b9")]

def coins : List MultiAssetRecord := [⟨1, "\\x" ++ policy, "\\x61"⟩, ⟨2, "\\x" ++ policy, "\\x62"⟩]

def coinMints : List MaTxMintRecord := [⟨1, 1, 1⟩, ⟨2, 1, 2⟩]

theorem oneCached_isSome : (run (deliver quiet) (initial quiet) oneCached).isSome = true := by
  decide +kernel

theorem oneCached_not_ready :
    ∃ s, run (deliver quiet) (initial quiet) oneCached = some s ∧ (waiting s.follower).length = 1 ∧
      reported 3100 0 true (.finite 100) s.follower (minted coinMints coins) Server.fresh ≠ some [.dbReady 0] := by
  obtain ⟨s, hs⟩ := Option.isSome_iff_exists.mp oneCached_isSome
  have hclean : EachStep (deliver quiet) CleanMessage (initial quiet) oneCached := by
    refine EachStep.cons trivial fun t _ => EachStep.cons trivial fun u _ => ?_
    intro es e hp
    exact absurd (List.prefix_nil.mp hp) (List.append_ne_nil_of_right_ne_nil es (List.cons_ne_nil e []))
  have hget : (run (deliver quiet) (initial quiet) oneCached).get oneCached_isSome = s := Option.get_of_eq_some _ hs
  have hchain : s.chain = [mintBlock 20 "b1" ["61"], mintBlock 30 "b2" ["62"]] := by
    rw [← hget]
    decide +kernel
  have hwaiting : (waiting s.follower).length = 1 := by
    rw [← hget]
    decide +kernel
  have hminted : minted coinMints coins = [mintedId (policy, "61"), mintedId (policy, "62")] := by
    decide +kernel
  have hsame : ∀ assetId, assetId ∈ minted coinMints coins ↔ ∃ b ∈ s.chain, Mints b assetId := by
    intro assetId
    rw [hminted, hchain]
    simp [Mints, mintsOf, mintBlock, eq_comm]
  have hready := (ready_iff_few_waiting quiet_reliable hclean hs hsame 3100 0 true
    (.finite 100) Server.fresh).1
  refine ⟨s, hs, hwaiting, fun hreported => ?_⟩
  have hfew := (hready.mp hreported).2.2
  rw [hwaiting, hminted] at hfew
  exact absurd hfew (by decide)

end CardanoGraphql.Readiness
