import CardanoGraphql.SentRows

namespace CardanoGraphql.CrashReplay

open HasuraBackgroundClient KeyedTable ChainFollower SaveAsset AssetSync ResumePoint SentRows

section Replay

variable (env : Externals)

theorem settled_follow (hok : Reliable env) (messages : List (Block × Tip)) (s : Follower) :
    settled (follow env messages s) =
      insertAbsent Asset.assetId (settled s) (chainRows env (bodies messages)) := by
  induction messages generalizing s with
  | nil => rfl
  | cons m messages ih =>
      have hstep : follow env (m :: messages) s =
          follow env messages (exec (rollForward env m.1 m.2) s) := rfl
      have hrows : chainRows env (m.1.body.toList ++ bodies messages) =
          m.1.body.toList.flatMap (mintedRows env) ++ chainRows env (bodies messages) :=
        List.flatMap_append
      rw [hstep, ih, settled_rollForward env hok, ← insertAbsent_append, bodies_cons, hrows]
      rfl

theorem settled_rollBackward (hok : Reliable env) (point : PointOrOrigin) (table : List Asset) :
    settled (exec (rollBackward env point) (start env table)) =
      deleteAssetsAfterSlot table (match point with | .origin => 0 | .point p => p.slot) := by
  obtain ⟨hassets, hcache⟩ := exec_rollBackward env hok point (start env table)
  rw [settled, hassets, hcache]
  rfl

theorem bodies_laterThan (messages : List (Block × Tip)) (p : Point) :
    bodies (laterThan messages (.point p)) =
      (bodies messages).filter fun b => decide (p.slot < b.slot) := by
  induction messages with
  | nil => rfl
  | cons m messages ih =>
      have hcons : laterThan (m :: messages) (.point p) =
          (if m.1.body.all fun b => decide (p.slot < b.slot) then [m] else []) ++
            laterThan messages (.point p) := by
        simp only [laterThan, List.filter_cons]
        split <;> rfl
      rw [hcons, bodies_append, bodies_cons, List.filter_append, ih]
      congr 1
      cases h : m.1.body with
      | none => simp [bodies, h]
      | some b => by_cases hlt : p.slot < b.slot <;> simp [bodies, h, hlt]

theorem lookup_replayed (table : List Asset) (hn : (table.map Asset.assetId).Nodup) (slotNo : Nat)
    (later : List BlockBody) (assetId : String) :
    (lookup Asset.assetId assetId
        (insertAbsent Asset.assetId (deleteAssetsAfterSlot table slotNo) (chainRows env later))).map
          Asset.firstAppearedInSlot =
      (((lookup Asset.assetId assetId table).map Asset.firstAppearedInSlot).filter
        fun slot => decide (slot ≤ slotNo)).or ((earliestMint later assetId).map BlockBody.slot) := by
  rw [lookup_insertAbsent, Option.map_or, lookup_chainRows, deleteAssetsAfterSlot,
    lookup_filter Asset.assetId _ _ hn]
  congr 1
  cases lookup Asset.assetId assetId table with
  | none => rfl
  | some row => by_cases h : row.firstAppearedInSlot ≤ slotNo <;> simp [h, Option.filter]

theorem earliestMint_later {chain : List BlockBody} {assetId : String} {b : BlockBody} {slotNo : Nat}
    (hb : earliestMint chain assetId = some b) (hlt : slotNo < b.slot) :
    earliestMint (chain.filter fun c => decide (slotNo < c.slot)) assetId = some b := by
  obtain ⟨hm, before, after, rfl, hno⟩ := List.find?_eq_some_iff_append.mp hb
  rw [earliestMint, List.filter_append, List.find?_append, List.filter_cons, if_pos (by simpa using hlt)]
  have hnone : (before.filter fun c => decide (slotNo < c.slot)).find?
      (fun c => decide (Mints c assetId)) = none := by
    rw [List.find?_eq_none]
    intro c hc
    simpa using hno c (List.mem_filter.mp hc).1
  rw [hnone, Option.none_or, List.find?_cons, hm]

theorem earliestMint_le {chain : List BlockBody} (hc : chain.Pairwise fun a b => a.slot < b.slot)
    {assetId : String} {b c : BlockBody} (hb : b ∈ chain) (hm : Mints b assetId)
    (he : earliestMint chain assetId = some c) : c.slot ≤ b.slot := by
  obtain ⟨-, before, after, rfl, hno⟩ := List.find?_eq_some_iff_append.mp he
  rcases List.mem_append.mp hb with hb | hb
  · have := hno b hb
    simp [hm] at this
  · rcases List.mem_cons.mp hb with rfl | hb
    · exact Nat.le_refl _
    · exact Nat.le_of_lt ((List.pairwise_cons.mp (List.pairwise_append.mp hc).2.1).1 b hb)

theorem lookup_sent {chain : List BlockBody} {sent : List Asset} (hsent : sent <+: chainRows env chain)
    {assetId : String} {b : BlockBody} (hb : earliestMint chain assetId = some b) {row : Asset}
    (hr : lookup Asset.assetId assetId (insertAbsent Asset.assetId [] sent) = some row) :
    row.firstAppearedInSlot = b.slot := by
  obtain ⟨rest, hrest⟩ := hsent
  have hl := lookup_chainRows env chain assetId
  rw [lookup_insertAbsent, lookup_nil, Option.none_or] at hr
  rw [← hrest, lookup_append, hr, hb] at hl
  simpa using hl

theorem complete_replayed_iff {chain : List BlockBody} {sent : List Asset}
    (hsent : sent <+: chainRows env chain) (env' : Externals) (slotNo : Nat) :
    Complete chain (insertAbsent Asset.assetId
        (deleteAssetsAfterSlot (insertAbsent Asset.assetId [] sent) slotNo)
        (chainRows env' (chain.filter fun b => decide (slotNo < b.slot)))) ↔
      ∀ assetId b, earliestMint chain assetId = some b → b.slot ≤ slotNo →
        assetId ∈ (insertAbsent Asset.assetId [] sent).map Asset.assetId := by
  have hn : ((insertAbsent Asset.assetId [] sent).map Asset.assetId).Nodup :=
    insertAbsent_nodup Asset.assetId (by simp) sent
  have hone : ∀ assetId b, earliestMint chain assetId = some b →
      ((lookup Asset.assetId assetId (insertAbsent Asset.assetId
        (deleteAssetsAfterSlot (insertAbsent Asset.assetId [] sent) slotNo)
        (chainRows env' (chain.filter fun b => decide (slotNo < b.slot))))).map
          Asset.firstAppearedInSlot = some b.slot ↔
        (b.slot ≤ slotNo → assetId ∈ (insertAbsent Asset.assetId [] sent).map Asset.assetId)) := by
    intro assetId b hb
    rw [lookup_replayed env' _ hn, ← lookup_isSome_iff]
    cases hl : lookup Asset.assetId assetId (insertAbsent Asset.assetId [] sent) with
    | some row =>
        have hslot := lookup_sent env hsent hb hl
        refine iff_of_true ?_ fun _ => rfl
        by_cases hle : b.slot ≤ slotNo
        · simp [hslot, hle, Option.filter]
        · simp [hslot, hle, Option.filter, earliestMint_later hb (Nat.lt_of_not_le hle)]
    | none =>
        by_cases hle : b.slot ≤ slotNo
        · refine iff_of_false ?_ fun h => by simpa using h hle
          intro h
          obtain ⟨c, hc, hcb⟩ := Option.map_eq_some_iff.mp (by simpa using h)
          have hlate := (List.mem_filter.mp (List.mem_of_find?_eq_some hc)).2
          simp only [decide_eq_true_eq] at hlate
          omega
        · refine iff_of_true ?_ fun h => absurd h hle
          simp [earliestMint_later hb (Nat.lt_of_not_le hle)]
  exact ⟨fun h assetId b hb => (hone assetId b hb).mp (h assetId b hb),
    fun h assetId b hb => (hone assetId b hb).mpr (h assetId b hb)⟩

theorem complete_from_origin {chain : List BlockBody} {sent : List Asset}
    (hsent : sent <+: chainRows env chain) (env' : Externals) :
    Complete chain (insertAbsent Asset.assetId
      (deleteAssetsAfterSlot (insertAbsent Asset.assetId [] sent) 0) (chainRows env' chain)) := by
  have hn : ((insertAbsent Asset.assetId [] sent).map Asset.assetId).Nodup :=
    insertAbsent_nodup Asset.assetId (by simp) sent
  intro assetId b hb
  rw [lookup_replayed env' _ hn, hb]
  cases hl : lookup Asset.assetId assetId (insertAbsent Asset.assetId [] sent) with
  | none => rfl
  | some row =>
      rw [Option.map_some, lookup_sent env hsent hb hl]
      by_cases hz : b.slot = 0 <;> simp [hz, Option.filter]

end Replay

section Main

variable (env env' : Externals)

theorem crashHarmless_iff {chain : List BlockBody} (hc : chain.Pairwise fun a b => a.slot < b.slot)
    {sent : List Asset} (hsent : sent <+: chainRows env chain) {table : List Asset}
    (htable : table = insertAbsent Asset.assetId [] sent) {b : BlockBody}
    (hrow : ∃ row ∈ table, row.firstAppearedInSlot = b.slot)
    (hge : 2 ≤ table.countP fun row => decide (b.slot ≤ row.firstAppearedInSlot))
    (hgt : table.countP (fun row => decide (b.slot < row.firstAppearedInSlot)) ≤ 1) :
    (∀ assetId c, earliestMint chain assetId = some c → c.slot ≤ b.slot →
      assetId ∈ table.map Asset.assetId) ↔ CrashHarmless chain table := by
  have hsub : ∀ row ∈ table, row ∈ sent := by
    intro row hr
    rw [htable, insertAbsent_eq, List.nil_append] at hr
    exact (newRows_sublist Asset.assetId [] sent).subset hr
  have hkeys : ∀ assetId, assetId ∈ sent.map Asset.assetId → assetId ∈ table.map Asset.assetId := by
    intro assetId h
    rw [htable]
    exact (mem_keys_insertAbsent Asset.assetId assetId [] sent).mpr (Or.inr h)
  constructor
  · intro h c hcm htwo assetId hm
    have hle : c.slot ≤ b.slot := by
      by_contra hlt
      have hmono := List.countP_mono_left (l := table)
        (p := fun row => decide (row.firstAppearedInSlot = c.slot))
        (q := fun row => decide (b.slot < row.firstAppearedInSlot)) (by
          intro row _ hr
          simp only [decide_eq_true_eq] at hr ⊢
          omega)
      omega
    have hsome := (earliestMint_isSome chain assetId).mpr ⟨c, hcm, hm⟩
    obtain ⟨d, hd⟩ := Option.isSome_iff_exists.mp hsome
    exact h assetId d hd (Nat.le_trans (earliestMint_le hc hcm hm hd) hle)
  · intro h assetId c he hle
    have hcm : c ∈ chain := List.mem_of_find?_eq_some he
    have hm : Mints c assetId := by simpa using List.find?_some he
    rcases Nat.lt_or_eq_of_le hle with hlt | heq
    · obtain ⟨row, hr, hslot⟩ := hrow
      exact hkeys _ (sent_reaches env hc hsent (hsub row hr) hcm (by omega) hm)
    · by_cases htwo : 2 ≤ table.countP fun row => decide (row.firstAppearedInSlot = c.slot)
      · exact h c hcm htwo assetId hm
      · obtain ⟨row, hr, hlater⟩ := exists_above Asset.firstAppearedInSlot (n := c.slot)
          (by rw [heq]; exact hge) (by omega)
        exact hkeys _ (sent_reaches env hc hsent (hsub row hr) hcm hlater hm)

theorem recovered_of_points {table : List Asset} {blocks : List DbSync.Block}
    {messages : List (Block × Tip)} {points : List PointOrOrigin} {point : PointOrOrigin}
    (hpoints : getChainSyncPoints table blocks = .ok points)
    (hpoint : intersection (bodies messages) points = point) :
    recovered env table blocks messages =
      .ok (settled (follow env (laterThan messages point) (exec (rollBackward env point) (start env table)))) := by
  simp only [recovered, restarted, hpoints]
  subst hpoint
  rfl

/-- A restart after a crash ends with every asset of the chain exactly when no block
had two of its rows or more, but not all its assets, in the table. -/
theorem resume_complete_iff (hok : Reliable env) (hok' : Reliable env')
    (messages messages' : List (Block × Tip)) (hsame : messages'.map Prod.fst = messages.map Prod.fst)
    (hslots : (bodies messages).Pairwise fun a b => a.slot < b.slot) (blocks : List DbSync.Block)
    (hdb : HasEveryBlock blocks (bodies messages)) (crash : CrashPoint) :
    ∃ table, recovered env' (crashed env messages crash).assets blocks messages' = .ok table ∧
      (Complete (bodies messages) table ↔
        CrashHarmless (bodies messages) (crashed env messages crash).assets) := by
  obtain ⟨sent, hsent, hcrash⟩ := crashed_prefix env hok messages crash
  generalize (crashed env messages crash).assets = left at hcrash ⊢
  have hbodies : bodies messages' = bodies messages := by
    have hmap : ∀ ms : List (Block × Tip), bodies ms = (ms.map Prod.fst).filterMap Block.body := by
      intro ms
      rw [bodies, List.filterMap_map]
      rfl
    rw [hmap, hmap, hsame]
  have hrows : ∀ row ∈ left, ∃ b ∈ bodies messages, row.firstAppearedInSlot = b.slot := by
    intro row hr
    rw [hcrash, insertAbsent_eq, List.nil_append] at hr
    obtain ⟨b, hb, hslot, -⟩ := mem_chainRows env
      (hsent.subset ((newRows_sublist Asset.assetId [] sent).subset hr))
    exact ⟨b, hb, hslot⟩
  rcases point_rank hdb hrows with ⟨hpoint, hlen⟩ | ⟨b, hb, hpoint, hrow, hge, hgt⟩
  · refine ⟨insertAbsent Asset.assetId (deleteAssetsAfterSlot left 0) (chainRows env' (bodies messages)), ?_, ?_⟩
    · have hpoints : getChainSyncPoints left blocks = .ok [.origin] := by
        rw [getChainSyncPoints, hpoint]
        rfl
      rw [recovered_of_points env' hpoints rfl, settled_follow env' hok', settled_rollBackward env' hok',
        ← hbodies]
      rfl
    · refine iff_of_true ?_ fun c _ htwo => ?_
      · rw [hcrash]
        exact complete_from_origin env hsent env'
      · have := List.countP_le_length (l := left) (p := fun row => decide (row.firstAppearedInSlot = c.slot))
        omega
  · refine ⟨insertAbsent Asset.assetId (deleteAssetsAfterSlot left b.slot)
      (chainRows env' ((bodies messages).filter fun c => decide (b.slot < c.slot))), ?_, ?_⟩
    · have hpoints : getChainSyncPoints left blocks = .ok [.point ⟨b.slot, b.id⟩, .origin] := by
        rw [getChainSyncPoints, hpoint]
        rfl
      have hinter : intersection (bodies messages') [.point ⟨b.slot, b.id⟩, .origin] =
          .point ⟨b.slot, b.id⟩ := by
        have hon : onChain (bodies messages') (.point ⟨b.slot, b.id⟩) = true :=
          List.any_eq_true.mpr ⟨b, hbodies ▸ hb, by simp⟩
        rw [intersection, List.find?_cons, hon]
        rfl
      rw [recovered_of_points env' hpoints hinter, settled_follow env' hok',
        settled_rollBackward env' hok', bodies_laterThan, hbodies]
    · rw [← crashHarmless_iff env hslots hsent hcrash hrow hge hgt, hcrash]
      exact complete_replayed_iff env hsent env' b.slot

def threeMints : List (Block × Tip) := [(.praos (mintBlock 10 "a1" ["61", "62", "63"]), .tip 10 "a1")]

def threeMintsBlocks : List DbSync.Block := [⟨0, "\\xa1", some 1, some 10⟩]

theorem partial_block_skipped :
    ∃ table, recovered quiet (crashed quiet threeMints ⟨0, 2⟩).assets threeMintsBlocks threeMints = .ok table ∧
      ¬ Complete (bodies threeMints) table := by
  refine ⟨(crashed quiet threeMints ⟨0, 2⟩).assets, by decide +kernel, fun h => ?_⟩
  have hlost := h (mintedId (policy, "63")) (mintBlock 10 "a1" ["61", "62", "63"]) (by decide +kernel)
  revert hlost
  decide +kernel

theorem threeMintsBlocks_all : HasEveryBlock threeMintsBlocks (bodies threeMints) where
  stored := by decide +kernel
  slots := by decide +kernel

theorem threeMints_iff :
    ∃ table, recovered quiet (crashed quiet threeMints ⟨0, 2⟩).assets threeMintsBlocks threeMints = .ok table ∧
      (Complete (bodies threeMints) table ↔
        CrashHarmless (bodies threeMints) (crashed quiet threeMints ⟨0, 2⟩).assets) :=
  resume_complete_iff quiet quiet quiet_reliable quiet_reliable threeMints threeMints rfl
    (by decide +kernel) threeMintsBlocks threeMintsBlocks_all ⟨0, 2⟩

end Main

end CardanoGraphql.CrashReplay
