import CardanoGraphql.Runs
import CardanoGraphql.SaveAsset

namespace CardanoGraphql.AssetSync

open HasuraBackgroundClient KeyedTable ChainFollower SaveAsset Runs

inductive Message
  | rollForward (block : Block) (tip : Tip)
  | rollBackward (point : PointOrOrigin)
deriving DecidableEq, Repr

structure Sync where
  follower : Follower
  chain : List BlockBody
deriving DecidableEq, Repr

def keepTo : PointOrOrigin → List BlockBody → List BlockBody
  | .origin, _ => []
  | .point p, chain => chain.filter fun b => decide (b.slot ≤ p.slot)

variable (env : Externals)

/-- One chain-sync message. A block is delivered only where it extends the current
chain: its slot is later than those of all the blocks of the chain. -/
def deliver (s : Sync) : Message → Option Sync
  | .rollForward block tip =>
      if ∀ b ∈ block.body, ∀ c ∈ s.chain, c.slot < b.slot then
        some ⟨exec (rollForward env block tip) s.follower, s.chain ++ block.body.toList⟩
      else none
  | .rollBackward point =>
      some ⟨exec (rollBackward env point) s.follower, keepTo point s.chain⟩

def initial : Sync := ⟨start env [], []⟩

def Mints (b : BlockBody) (assetId : String) : Prop := assetId ∈ (mintsOf b).map mintedId

instance (b : BlockBody) (assetId : String) : Decidable (Mints b assetId) :=
  inferInstanceAs (Decidable (assetId ∈ (mintsOf b).map mintedId))

def earliestMint (chain : List BlockBody) (assetId : String) : Option BlockBody :=
  chain.find? fun b => decide (Mints b assetId)

/-- The slot of the row where there is one, otherwise of the earliest cache entry. -/
def firstAppearedInSlot (s : Follower) (assetId : String) : Option Nat :=
  ((lookup Asset.assetId assetId s.assets).map Asset.firstAppearedInSlot).or
    ((s.cacheAssets.find? fun a => decide (withHexPrefix (some a.assetId) = assetId)).map
      AssetWithoutTokens.firstAppearedInSlot)

structure Synced (s : Sync) : Prop where
  named : ∀ assetId, Named s.follower assetId ↔ ∃ b ∈ s.chain, Mints b assetId
  slot : ∀ assetId b, earliestMint s.chain assetId = some b →
    firstAppearedInSlot s.follower assetId = some b.slot

/-- Nothing that the rollback should take away is in the cache, and for a rollback to
origin, none of the rows has slot 0, which `_gt: 0` keeps. -/
def Clean (s : Follower) : PointOrOrigin → Prop
  | .origin => s.cacheAssets = [] ∧ ∀ row ∈ s.assets, row.firstAppearedInSlot ≠ 0
  | .point p => ∀ entry ∈ s.cacheAssets, ∀ slot,
      firstAppearedInSlot s (withHexPrefix (some entry.assetId)) = some slot → slot ≤ p.slot

def CleanMessage (s : Sync) : Message → Prop
  | .rollForward _ _ => True
  | .rollBackward point => Clean s.follower point

theorem lookup_cache (cache : List AssetWithoutTokens) (assetId : String) :
    lookup Asset.assetId assetId (cache.map insertInput) =
      (cache.find? fun a => decide (withHexPrefix (some a.assetId) = assetId)).map insertInput := by
  induction cache with
  | nil => rfl
  | cons a cache ih =>
      rw [List.map_cons, lookup_cons, ih]
      by_cases h : withHexPrefix (some a.assetId) = assetId <;> simp [h]

theorem firstAppearedInSlot_eq (s : Follower) (assetId : String) :
    firstAppearedInSlot s assetId =
      (lookup Asset.assetId assetId (settled s)).map Asset.firstAppearedInSlot := by
  rw [settled, insertAssets, lookup_insertAbsent, lookup_cache, firstAppearedInSlot]
  cases lookup Asset.assetId assetId s.assets with
  | some row => rfl
  | none =>
      simp only [Option.map_none, Option.none_or, Option.map_map]
      rfl

theorem firstAppearedInSlot_isSome (s : Follower) (assetId : String) :
    (firstAppearedInSlot s assetId).isSome = true ↔ Named s assetId := by
  rw [firstAppearedInSlot_eq, Option.isSome_map, lookup_isSome_iff, named_iff_settled]

theorem earliestMint_isSome (chain : List BlockBody) (assetId : String) :
    (earliestMint chain assetId).isSome = true ↔ ∃ b ∈ chain, Mints b assetId := by
  simp [earliestMint]

theorem synced_iff (s : Sync) :
    Synced s ↔ ∀ assetId,
      firstAppearedInSlot s.follower assetId = (earliestMint s.chain assetId).map BlockBody.slot := by
  constructor
  · intro h assetId
    cases he : earliestMint s.chain assetId with
    | some b => exact h.slot assetId b he
    | none =>
        have hn : ¬ Named s.follower assetId := by
          rw [h.named, ← earliestMint_isSome, he]
          simp
        rw [← firstAppearedInSlot_isSome] at hn
        simpa using hn
  · intro h
    refine ⟨fun assetId => ?_, fun assetId b hb => ?_⟩
    · rw [← firstAppearedInSlot_isSome, h, Option.isSome_map, earliestMint_isSome]
    · rw [h, hb]
      rfl

theorem lookup_minted (b : BlockBody) (mints : List (String × String)) (assetId : String) :
    (lookup Asset.assetId assetId (mints.map (mintedRow env b))).map Asset.firstAppearedInSlot =
      if assetId ∈ mints.map mintedId then some b.slot else none := by
  induction mints with
  | nil => rfl
  | cons m ms ih =>
      have hm : (mintedRow env b m).assetId = mintedId m := rfl
      rw [List.map_cons, lookup_cons, hm]
      by_cases h : mintedId m = assetId
      · rw [if_pos h, if_pos (by simp [h])]
        rfl
      · rw [if_neg h, ih]
        simp only [List.map_cons, List.mem_cons, eq_comm (a := assetId), h, false_or]

theorem earliestMint_concat (chain : List BlockBody) (b : BlockBody) (assetId : String) :
    earliestMint (chain ++ [b]) assetId =
      (earliestMint chain assetId).or (if Mints b assetId then some b else none) := by
  rw [earliestMint, List.find?_append]
  by_cases h : Mints b assetId <;> simp [earliestMint, h]

theorem earliestMint_keepTo (chain : List BlockBody) (p : Point) (assetId : String)
    (hc : chain.Pairwise fun a b => a.slot < b.slot) :
    earliestMint (keepTo (.point p) chain) assetId =
      (earliestMint chain assetId).filter fun b => decide (b.slot ≤ p.slot) := by
  induction chain with
  | nil => rfl
  | cons b chain ih =>
      obtain ⟨hb, hc⟩ := List.pairwise_cons.mp hc
      have ih := ih hc
      simp only [keepTo, earliestMint] at ih ⊢
      by_cases hs : b.slot ≤ p.slot
      · by_cases hm : Mints b assetId <;> simp [hs, hm, ih, Option.filter]
      · have hlate : ∀ c ∈ chain, ¬ c.slot ≤ p.slot := by
          intro c hcm
          have := hb c hcm
          omega
        have hnil : chain.filter (fun c => decide (c.slot ≤ p.slot)) = [] := by
          simpa [List.filter_eq_nil_iff] using hlate
        have hnone : (List.find? (fun c => decide (Mints c assetId)) chain).filter
            (fun c => decide (c.slot ≤ p.slot)) = none := by
          rw [← ih, hnil]
          rfl
        by_cases hm : Mints b assetId
        · simp [hs, hm, hnil, Option.filter]
        · simp [hs, hm, hnil, hnone]

theorem settled_rollForward (hok : Reliable env) (block : Block) (tip : Tip) (s : Follower) :
    settled (exec (rollForward env block tip) s) = insertAbsent Asset.assetId (settled s)
      (block.body.toList.flatMap fun b => (mintsOf b).map (mintedRow env b)) := by
  have hs : settled (exec (rollForward env block tip) s) = settled (exec (saveBlock env block tip) s) := by
    rw [exec_rollForward]
    rfl
  rw [hs, exec_saveBlock]
  cases block.body with
  | none => rfl
  | some b => simpa using saveAll_settled env hok.inserts b tip (mintsOf b) s

theorem rollForward_synced (hok : Reliable env) (s : Sync) (block : Block) (tip : Tip) (hs : Synced s) :
    Synced ⟨exec (rollForward env block tip) s.follower, s.chain ++ block.body.toList⟩ := by
  rw [synced_iff] at hs ⊢
  intro assetId
  rw [firstAppearedInSlot_eq, settled_rollForward env hok, lookup_insertAbsent, Option.map_or,
    ← firstAppearedInSlot_eq, hs]
  cases hb : block.body with
  | none => simp
  | some b =>
      simp only [Option.toList_some, List.flatMap_cons, List.flatMap_nil, List.append_nil,
        lookup_minted, earliestMint_concat, Option.map_or]
      congr 1
      by_cases h : assetId ∈ (mintsOf b).map mintedId <;> simp [Mints, h]

theorem exec_rollBackward (hok : Reliable env) (point : PointOrOrigin) (s : Follower) :
    (exec (rollBackward env point) s).assets =
        deleteAssetsAfterSlot s.assets (match point with | .origin => 0 | .point p => p.slot) ∧
      (exec (rollBackward env point) s).cacheAssets = s.cacheAssets := by
  have hd : ∀ slotNo, call (deleteAssets env slotNo) s =
      (.ok (), { s with deleteCalls := s.deleteCalls + 1 }.deleteAfter slotNo) := by
    intro slotNo
    simp only [call, deleteAssets, ExceptT.run, hok.deletes]
  cases point with
  | origin => simp only [exec, rollBackward, call_bind, hd, call_log]; exact ⟨rfl, rfl⟩
  | point p => simp only [exec, rollBackward, call_bind, hd, call_log]; exact ⟨rfl, rfl⟩

theorem rollBackward_origin (hok : Reliable env) (s : Sync) :
    Synced ⟨exec (rollBackward env .origin) s.follower, []⟩ ↔ Clean s.follower .origin := by
  obtain ⟨ha, hc⟩ := exec_rollBackward env hok .origin s.follower
  have hno : Synced ⟨exec (rollBackward env .origin) s.follower, []⟩ ↔
      ∀ assetId, ¬ Named (exec (rollBackward env .origin) s.follower) assetId := by
    rw [synced_iff]
    constructor
    · intro h assetId
      have he := h assetId
      rw [← firstAppearedInSlot_isSome, he]
      simp [earliestMint]
    · intro h assetId
      have he := h assetId
      rw [← firstAppearedInSlot_isSome] at he
      simpa [earliestMint] using he
  rw [hno]
  simp only [Named, ha, hc, Clean, deleteAssetsAfterSlot]
  constructor
  · intro h
    constructor
    · rw [List.eq_nil_iff_forall_not_mem]
      intro entry he
      exact h _ (Or.inr (List.mem_map_of_mem he))
    · intro row hr hz
      refine h row.assetId (Or.inl (List.mem_map_of_mem (List.mem_filter.mpr ⟨hr, ?_⟩)))
      simp [hz]
  · rintro ⟨hcache, hrows⟩ assetId (hm | hm)
    · obtain ⟨row, hr, -⟩ := List.mem_map.mp hm
      obtain ⟨hr, hz⟩ := List.mem_filter.mp hr
      exact hrows row hr (by simpa using hz)
    · simp [hcache] at hm

theorem firstAppearedInSlot_rollBackward (hok : Reliable env) (s : Follower) (p : Point)
    (hn : (s.assets.map Asset.assetId).Nodup) (assetId : String) :
    firstAppearedInSlot (exec (rollBackward env (.point p)) s) assetId =
      (((lookup Asset.assetId assetId s.assets).map Asset.firstAppearedInSlot).filter
        fun slot => decide (slot ≤ p.slot)).or
      ((s.cacheAssets.find? fun a => decide (withHexPrefix (some a.assetId) = assetId)).map
        AssetWithoutTokens.firstAppearedInSlot) := by
  obtain ⟨ha, hc⟩ := exec_rollBackward env hok (.point p) s
  rw [firstAppearedInSlot, ha, hc, deleteAssetsAfterSlot, lookup_filter Asset.assetId _ _ hn]
  congr 1
  cases lookup Asset.assetId assetId s.assets with
  | none => rfl
  | some row => by_cases h : row.firstAppearedInSlot ≤ p.slot <;> simp [h, Option.filter]

theorem rollBackward_point (hok : Reliable env) (s : Sync) (p : Point) (hs : Synced s)
    (hc : s.chain.Pairwise fun a b => a.slot < b.slot)
    (hn : (s.follower.assets.map Asset.assetId).Nodup) :
    Synced ⟨exec (rollBackward env (.point p)) s.follower, keepTo (.point p) s.chain⟩ ↔
      Clean s.follower (.point p) := by
  rw [synced_iff] at hs ⊢
  have hkept : ∀ assetId, (earliestMint (keepTo (.point p) s.chain) assetId).map BlockBody.slot =
      (firstAppearedInSlot s.follower assetId).filter fun slot => decide (slot ≤ p.slot) := by
    intro assetId
    rw [earliestMint_keepTo _ _ _ hc, hs]
    cases earliestMint s.chain assetId with
    | none => rfl
    | some b => by_cases h : b.slot ≤ p.slot <;> simp [h, Option.filter]
  simp only [hkept]
  constructor
  · intro h entry he slot hslot
    have hr := h (withHexPrefix (some entry.assetId))
    have hnamed : (firstAppearedInSlot (exec (rollBackward env (.point p)) s.follower)
        (withHexPrefix (some entry.assetId))).isSome = true := by
      rw [firstAppearedInSlot_isSome]
      refine Or.inr ?_
      rw [(exec_rollBackward env hok (.point p) s.follower).2]
      exact List.mem_map_of_mem he
    by_contra hlate
    rw [hr, hslot] at hnamed
    simp [Option.filter, hlate] at hnamed
  · intro h assetId
    rw [firstAppearedInSlot_rollBackward env hok s.follower p hn]
    have hcache : ∀ entry, s.follower.cacheAssets.find?
        (fun a => decide (withHexPrefix (some a.assetId) = assetId)) = some entry →
        ∀ slot, firstAppearedInSlot s.follower assetId = some slot → slot ≤ p.slot := by
      intro entry he slot hslot
      have hid : withHexPrefix (some entry.assetId) = assetId := by
        simpa using List.find?_some he
      exact h entry (List.mem_of_find?_eq_some he) slot (hid ▸ hslot)
    rw [firstAppearedInSlot] at hcache ⊢
    cases hl : lookup Asset.assetId assetId s.follower.assets with
    | some row =>
        by_cases hrow : row.firstAppearedInSlot ≤ p.slot
        · simp [hrow, Option.filter]
        · cases hf : s.follower.cacheAssets.find?
              (fun a => decide (withHexPrefix (some a.assetId) = assetId)) with
          | none => simp [hrow, Option.filter]
          | some entry => exact absurd (hcache entry hf _ (by rw [hl]; rfl)) hrow
    | none =>
        cases hf : s.follower.cacheAssets.find?
            (fun a => decide (withHexPrefix (some a.assetId) = assetId)) with
        | none => rfl
        | some entry =>
            have he := hcache entry hf entry.firstAppearedInSlot (by rw [hl, hf]; rfl)
            simp [he, Option.filter]

structure Regular (s : Sync) : Prop where
  chain : s.chain.Pairwise fun a b => a.slot < b.slot
  keys : (s.follower.assets.map Asset.assetId).Nodup

theorem rollForward_keys (block : Block) (tip : Tip) (s : Follower)
    (hn : (s.assets.map Asset.assetId).Nodup) :
    ((exec (rollForward env block tip) s).assets.map Asset.assetId).Nodup := by
  rw [exec_rollForward, exec_saveBlock]
  cases block.body with
  | none => exact hn
  | some b =>
      exact saveAll_invariant env (P := fun t => (t.assets.map Asset.assetId).Nodup)
        (fun _ _ _ _ _ hstep => saves_nodup env hstep) b tip (mintsOf b) s hn

theorem deliver_regular (hok : Reliable env) (s t : Sync) (msg : Message) (hs : Regular s)
    (h : deliver env s msg = some t) : Regular t := by
  cases msg with
  | rollForward block tip =>
      rw [deliver] at h
      split at h
      next hext =>
        cases h
        refine ⟨?_, rollForward_keys env block tip _ hs.keys⟩
        cases hb : block.body with
        | none => simpa using hs.chain
        | some b =>
            refine List.pairwise_append.mpr ⟨hs.chain, List.pairwise_singleton _ _, ?_⟩
            intro c hc d hd
            rw [List.mem_singleton.mp hd]
            exact hext b (by simp [hb]) c hc
      next => cases h
  | rollBackward point =>
      cases h
      have hsub : (keepTo point s.chain).Sublist s.chain := by
        cases point with
        | origin => exact List.nil_sublist _
        | point p => exact List.filter_sublist
      refine ⟨hs.chain.sublist hsub, ?_⟩
      rw [(exec_rollBackward env hok point s.follower).1]
      exact hs.keys.sublist (List.filter_sublist.map _)

theorem deliver_synced_iff (hok : Reliable env) (s t : Sync) (msg : Message) (hr : Regular s)
    (hs : Synced s) (h : deliver env s msg = some t) : Synced t ↔ CleanMessage s msg := by
  cases msg with
  | rollForward block tip =>
      rw [deliver] at h
      split at h
      next hext =>
        cases h
        exact iff_of_true (rollForward_synced env hok s block tip hs) trivial
      next => cases h
  | rollBackward point =>
      cases h
      cases point with
      | origin => exact rollBackward_origin env hok s
      | point p => exact rollBackward_point env hok s p hs hr.chain hr.keys

theorem initial_synced : Synced (initial env) :=
  (synced_iff _).mpr fun _ => rfl

/-- A run keeps the Asset table and the cache in step with the chain exactly when
each rollback meets a cache with nothing from beyond the point. -/
theorem assets_follow_chain_iff (hok : Reliable env) (msgs : List Message) (s : Sync)
    (hrun : run (deliver env) (initial env) msgs = some s) :
    Throughout (deliver env) Synced (initial env) msgs ↔
      EachStep (deliver env) CleanMessage (initial env) msgs :=
  throughout_iff (I := Regular)
    (fun a e b ha _ hab => deliver_regular env hok a b e ha hab)
    (fun a e b ha hp hab => deliver_synced_iff env hok a b e ha hp hab)
    ⟨List.Pairwise.nil, by simp [initial, start]⟩ (initial_synced env) hrun

def forkRun : List Message :=
  [.rollForward (.praos (mintBlock 10 "a1" ["61"])) (.tip 90 "f0"),
    .rollBackward (.point ⟨5, "a0"⟩),
    .rollForward (.praos (mintBlock 20 "b1" ["62"])) (.tip 20 "b1")]

theorem forkRun_isSome : (run (deliver quiet) (initial quiet) forkRun).isSome = true := by
  decide +kernel

theorem forkRun_phantom_row :
    ∃ s, run (deliver quiet) (initial quiet) forkRun = some s ∧
      (∃ row ∈ s.follower.assets, row.assetId = mintedId (policy, "61") ∧ row.firstAppearedInSlot = 10) ∧
      (∀ b ∈ s.chain, ¬ Mints b (mintedId (policy, "61"))) ∧ ¬ Synced s := by
  have hrow : ∃ row ∈ ((run (deliver quiet) (initial quiet) forkRun).get forkRun_isSome).follower.assets,
      row.assetId = mintedId (policy, "61") ∧ row.firstAppearedInSlot = 10 := by
    decide +kernel
  have hchain : ∀ b ∈ ((run (deliver quiet) (initial quiet) forkRun).get forkRun_isSome).chain,
      ¬ Mints b (mintedId (policy, "61")) := by
    decide +kernel
  refine ⟨_, (Option.some_get forkRun_isSome).symm, hrow, hchain, fun hs => ?_⟩
  obtain ⟨row, hr, hid, -⟩ := hrow
  obtain ⟨b, hb, hm⟩ := (hs.named (mintedId (policy, "61"))).mp
    (Or.inl (List.mem_map.mpr ⟨row, hr, hid⟩))
  exact hchain b hb hm

theorem forkRun_iff :
    Throughout (deliver quiet) Synced (initial quiet) forkRun ↔
      EachStep (deliver quiet) CleanMessage (initial quiet) forkRun :=
  assets_follow_chain_iff quiet quiet_reliable forkRun _ (Option.some_get forkRun_isSome).symm

end CardanoGraphql.AssetSync
