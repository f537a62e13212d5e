import CardanoGraphql.ResumePoint

namespace CardanoGraphql.SentRows

open HasuraBackgroundClient KeyedTable ChainFollower SaveAsset AssetSync ResumePoint

section Rows

variable (env : Externals)

theorem lookup_chainRows (chain : List BlockBody) (assetId : String) :
    (lookup Asset.assetId assetId (chainRows env chain)).map Asset.firstAppearedInSlot =
      (earliestMint chain assetId).map BlockBody.slot := by
  induction chain with
  | nil => rfl
  | cons b chain ih =>
      have hcons : earliestMint (b :: chain) assetId =
          if Mints b assetId then some b else earliestMint chain assetId := by
        by_cases h : Mints b assetId <;> simp [earliestMint, h]
      rw [chainRows, List.flatMap_cons, lookup_append, Option.map_or, mintedRows, lookup_minted,
        ← chainRows, ih, hcons]
      by_cases h : Mints b assetId
      · rw [if_pos h, if_pos (show assetId ∈ (mintsOf b).map mintedId from h)]
        rfl
      · rw [if_neg h, if_neg (show assetId ∉ (mintsOf b).map mintedId from h), Option.none_or]

theorem mem_chainRows {chain : List BlockBody} {row : Asset} (h : row ∈ chainRows env chain) :
    ∃ b ∈ chain, row.firstAppearedInSlot = b.slot ∧ Mints b row.assetId := by
  obtain ⟨b, hb, hr⟩ := List.mem_flatMap.mp h
  obtain ⟨m, hm, rfl⟩ := List.mem_map.mp hr
  exact ⟨b, hb, rfl, List.mem_map_of_mem hm⟩

theorem chainRows_sorted {chain : List BlockBody} (hc : chain.Pairwise fun a b => a.slot < b.slot) :
    (chainRows env chain).Pairwise fun r s => r.firstAppearedInSlot ≤ s.firstAppearedInSlot := by
  refine List.pairwise_flatMap.mpr ⟨fun b _ => ?_, hc.imp fun {a b} hab r hr s hs => ?_⟩
  · refine List.pairwise_map.mpr (List.pairwise_of_forall fun m n => ?_)
    exact Nat.le_refl b.slot
  · obtain ⟨m, -, rfl⟩ := List.mem_map.mp hr
    obtain ⟨n, -, rfl⟩ := List.mem_map.mp hs
    exact Nat.le_of_lt hab

theorem sent_reaches {chain : List BlockBody} (hc : chain.Pairwise fun a b => a.slot < b.slot)
    {sent : List Asset} (hsent : sent <+: chainRows env chain) {row : Asset} (hrow : row ∈ sent)
    {b : BlockBody} (hb : b ∈ chain) (hlt : b.slot < row.firstAppearedInSlot) {assetId : String}
    (hm : Mints b assetId) : assetId ∈ sent.map Asset.assetId := by
  obtain ⟨rest, hrest⟩ := hsent
  obtain ⟨m, hmint, rfl⟩ := List.mem_map.mp hm
  have hin : mintedRow env b m ∈ sent ++ rest := by
    rw [hrest]
    exact List.mem_flatMap.mpr ⟨b, hb, List.mem_map_of_mem hmint⟩
  rcases List.mem_append.mp hin with hin | hin
  · exact List.mem_map_of_mem hin
  · have hsorted := chainRows_sorted env hc
    rw [← hrest] at hsorted
    have hle : row.firstAppearedInSlot ≤ b.slot := (List.pairwise_append.mp hsorted).2.2 row hrow _ hin
    omega

end Rows

theorem bodies_append (xs ys : List (Block × Tip)) : bodies (xs ++ ys) = bodies xs ++ bodies ys :=
  List.filterMap_append

theorem bodies_cons (m : Block × Tip) (messages : List (Block × Tip)) :
    bodies (m :: messages) = m.1.body.toList ++ bodies messages := by
  cases h : m.1.body <;> simp [bodies, h]

section Flushes

variable (env : Externals)

/-- Of the rows that have been pushed, those of the flushes went to the table and the others
are in the cache. -/
def FlushedOnto (table rows : List Asset) (s : Follower) : Prop :=
  ∃ sent, rows = sent ++ s.cacheAssets.map insertInput ∧ s.assets = insertAbsent Asset.assetId table sent

variable {env} in
theorem saveAsset_flushed (hok : Reliable env) (m : String × String) (b : BlockBody) (tip : Tip)
    (table rows : List Asset) (s : Follower) (hs : FlushedOnto table rows s) :
    FlushedOnto table (rows ++ [mintedRow env b m]) (exec (saveAsset env m.1 (some m.2) b tip) s) := by
  have h := saveAsset_saves env m.1 (some m.2) b tip s
  have hrow : mintedRow env b m = insertInput (cacheEntry env m.1 (some m.2) b) := rfl
  rw [hrow]
  generalize cacheEntry env m.1 (some m.2) b = entry at h ⊢
  generalize exec (saveAsset env m.1 (some m.2) b tip) s = t at h ⊢
  generalize (call (saveAsset env m.1 (some m.2) b tip) s).1 = r at h
  generalize due env (isTip b tip) (s.push entry) = flushed at h
  obtain ⟨sent, hrows, hassets⟩ := hs
  cases h with
  | cached timer reads => exact ⟨sent, by simp [hrows, Follower.push], hassets⟩
  | flushed timer reads u hu hcall =>
      subst hu
      refine ⟨rows ++ [insertInput entry], by simp [Follower.publish], ?_⟩
      simp only [Follower.publish, Follower.insertCache, Follower.push, insertAssets, hassets,
        List.map_append, List.map_cons, List.map_nil]
      rw [← insertAbsent_append, ← List.append_assoc, ← hrows]
  | unapplied timer reads u hu hcall =>
      rw [hok.inserts] at hcall
      cases hcall
  | applied timer reads u hu hcall =>
      rw [hok.inserts] at hcall
      cases hcall

variable {env} in
theorem saveAll_flushed (hok : Reliable env) (b : BlockBody) (tip : Tip)
    (mints : List (String × String)) (table rows : List Asset) (s : Follower) (hs : FlushedOnto table rows s) :
    FlushedOnto table (rows ++ mints.map (mintedRow env b)) (exec (saveAll env b tip mints) s) := by
  induction mints generalizing rows s with
  | nil =>
      rw [List.map_nil, List.append_nil]
      exact hs
  | cons m ms ih =>
      have hm := ih _ _ (saveAsset_flushed hok m b tip table rows s hs)
      rw [exec_saveAll_cons env hok.inserts, List.map_cons]
      rwa [List.append_assoc, List.singleton_append] at hm

variable {env} in
theorem follow_flushed (hok : Reliable env) (messages : List (Block × Tip)) (table rows : List Asset)
    (s : Follower) (hs : FlushedOnto table rows s) :
    FlushedOnto table (rows ++ chainRows env (bodies messages)) (follow env messages s) := by
  induction messages generalizing rows s with
  | nil =>
      rw [bodies, List.filterMap_nil, chainRows, List.flatMap_nil, List.append_nil]
      exact hs
  | cons m messages ih =>
      have hstep : FlushedOnto table (rows ++ m.1.body.toList.flatMap (mintedRows env))
          (exec (rollForward env m.1 m.2) s) := by
        have hblock : FlushedOnto table (rows ++ m.1.body.toList.flatMap (mintedRows env))
            (exec (saveBlock env m.1 m.2) s) := by
          rw [exec_saveBlock]
          cases m.1.body with
          | none => simpa using hs
          | some b => simpa [mintedRows] using saveAll_flushed hok b m.2 (mintsOf b) table rows s hs
        rw [exec_rollForward]
        exact hblock
      have hm := ih _ _ hstep
      rw [List.append_assoc] at hm
      rw [bodies_cons, chainRows, List.flatMap_append]
      exact hm

def stopped (messages : List (Block × Tip)) (crash : CrashPoint) (start : Follower) : Follower :=
  let s := follow env (messages.take crash.blocks) start
  match messages[crash.blocks]? with
  | none => s
  | some (block, tip) =>
      match block.body with
      | none => s
      | some b => exec (saveAll env b tip ((mintsOf b).take crash.mints)) s

theorem stopped_prefix (hok : Reliable env) (messages : List (Block × Tip)) (crash : CrashPoint)
    (s : Follower) (hcache : s.cacheAssets = []) :
    ∃ sent, sent <+: chainRows env (bodies messages) ∧
      (stopped env messages crash s).assets = insertAbsent Asset.assetId s.assets sent := by
  have hprefix : ∀ rows, rows <+: chainRows env (bodies messages) →
      FlushedOnto s.assets rows (stopped env messages crash s) → ∃ sent, sent <+: chainRows env (bodies messages) ∧
        (stopped env messages crash s).assets = insertAbsent Asset.assetId s.assets sent := by
    rintro rows hrows ⟨sent, rfl, hassets⟩
    exact ⟨sent, (List.prefix_append sent _).trans hrows, hassets⟩
  have hs : FlushedOnto s.assets ([] ++ chainRows env (bodies (messages.take crash.blocks)))
      (follow env (messages.take crash.blocks) s) :=
    follow_flushed hok _ _ [] s ⟨[], by rw [hcache]; rfl, rfl⟩
  rw [List.nil_append] at hs
  have hsplit : bodies messages =
      bodies (messages.take crash.blocks) ++ bodies (messages.drop crash.blocks) := by
    rw [← bodies_append, List.take_append_drop]
  have hbefore : chainRows env (bodies (messages.take crash.blocks)) <+: chainRows env (bodies messages) := by
    rw [hsplit, chainRows, chainRows, List.flatMap_append]
    exact List.prefix_append _ _
  cases hm : messages[crash.blocks]? with
  | none =>
      refine hprefix _ hbefore ?_
      rw [stopped, hm]
      exact hs
  | some m =>
      obtain ⟨block, tip⟩ := m
      cases hb : block.body with
      | none =>
          refine hprefix _ hbefore ?_
          simp only [stopped, hm, hb]
          exact hs
      | some b =>
          refine hprefix (chainRows env (bodies (messages.take crash.blocks)) ++
            ((mintsOf b).take crash.mints).map (mintedRow env b)) ?_ ?_
          · obtain ⟨hlt, hget⟩ := List.getElem?_eq_some_iff.mp hm
            have hdrop : messages.drop crash.blocks = (block, tip) :: messages.drop (crash.blocks + 1) := by
              rw [List.drop_eq_getElem_cons hlt, hget]
            have hcut : (mintsOf b).map (mintedRow env b) = ((mintsOf b).take crash.mints).map (mintedRow env b) ++
                ((mintsOf b).drop crash.mints).map (mintedRow env b) := by
              rw [← List.map_append, List.take_append_drop]
            refine ⟨((mintsOf b).drop crash.mints).map (mintedRow env b) ++
              chainRows env (bodies (messages.drop (crash.blocks + 1))), ?_⟩
            rw [hsplit, hdrop, bodies_cons, hb]
            simp only [chainRows, Option.toList_some, List.flatMap_append, List.flatMap_cons,
              List.flatMap_nil, List.append_nil, mintedRows, hcut, List.append_assoc]
          · simp only [stopped, hm, hb]
            exact saveAll_flushed hok b tip _ _ _ _ hs

theorem crashed_prefix (hok : Reliable env) (messages : List (Block × Tip)) (crash : CrashPoint) :
    ∃ sent, sent <+: chainRows env (bodies messages) ∧
      (crashed env messages crash).assets = insertAbsent Asset.assetId [] sent :=
  stopped_prefix env hok messages crash (start env []) rfl

end Flushes

end CardanoGraphql.SentRows
