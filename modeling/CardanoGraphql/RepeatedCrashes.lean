import CardanoGraphql.CrashReplay

namespace CardanoGraphql.RepeatedCrashes

open HasuraBackgroundClient KeyedTable ChainFollower SaveAsset AssetSync ResumePoint SentRows CrashReplay

structure Process where
  now : Nat → Int
  messages : List (Block × Tip)
  blocks : List DbSync.Block

/-- A process that stops, with its rollback not applied yet or at some point after it. -/
structure Life extends Process where
  stop : Option CrashPoint

def Process.chain (p : Process) : List BlockBody := bodies p.messages

section Definitions

variable (env : Externals)

def Process.externals (p : Process) : Externals := { env with now := p.now }

def Life.leaves (l : Life) (table : List Asset) : Except String (List Asset) :=
  match l.stop with
  | none => return table
  | some crash => do
      let points ← getChainSyncPoints table l.blocks
      let point := intersection l.chain points
      return (stopped (l.toProcess.externals env) (laterThan l.messages point) crash
        (exec (rollBackward (l.toProcess.externals env) point) (start (l.toProcess.externals env) table))).assets

def history (table : List Asset) : List Life → Except String (List (Life × List Asset))
  | [] => return []
  | l :: lives => do
      let left ← l.leaves env table
      let later ← history left lives
      return (l, left) :: later

def Process.recovers (p : Process) (table : List Asset) : Except String (List Asset) :=
  recovered (p.externals env) table p.blocks p.messages

end Definitions

def endOf (table : List Asset) : List (Life × List Asset) → List Asset
  | [] => table
  | p :: past => endOf p.2 past

def processes (lives : List Life) (last : Process) : List Process := lives.map Life.toProcess ++ [last]

/-- The chain only grows from process to process, and cardano-db-sync has every block of it. -/
structure Timeline (lives : List Life) (last : Process) : Prop where
  grows : (processes lives last).Pairwise fun p q => p.chain <+: q.chain
  slots : last.chain.Pairwise fun a b => a.slot < b.slot
  stored : ∀ p ∈ processes lives last, HasEveryBlock p.blocks p.chain

section Tables

variable (env : Externals)

/-- The table is what some first part of the chain's mints makes. -/
def Reached (chain : List BlockBody) (table : List Asset) : Prop :=
  ∃ sent, sent <+: chainRows env chain ∧ table = insertAbsent Asset.assetId [] sent

/-- An asset is lost: its block has two rows, and it has none with that slot. -/
structure Lost (chain : List BlockBody) (table : List Asset) (b : BlockBody) (assetId : String) : Prop where
  earliest : earliestMint chain assetId = some b
  two : 2 ≤ table.countP fun row => decide (row.firstAppearedInSlot = b.slot)
  absent : ∀ row, lookup Asset.assetId assetId table = some row → row.firstAppearedInSlot ≠ b.slot
  keys : (table.map Asset.assetId).Nodup
  onChain : ∀ row ∈ table, ∃ c ∈ chain, row.firstAppearedInSlot = c.slot

variable {env} {chain : List BlockBody} {table : List Asset}

theorem Reached.onChain (h : Reached env chain table) : ∀ row ∈ table, ∃ b ∈ chain, row.firstAppearedInSlot = b.slot := by
  obtain ⟨sent, hsent, rfl⟩ := h
  intro row hr
  rw [insertAbsent_eq, List.nil_append] at hr
  obtain ⟨b, hb, hslot, -⟩ := mem_chainRows env (hsent.subset ((newRows_sublist Asset.assetId [] sent).subset hr))
  exact ⟨b, hb, hslot⟩

theorem Reached.extend (h : Reached env chain table) {longer : List BlockBody} (hlonger : chain <+: longer) :
    Reached env longer table := by
  obtain ⟨sent, hsent, htable⟩ := h
  obtain ⟨more, rfl⟩ := hlonger
  refine ⟨sent, hsent.trans ?_, htable⟩
  rw [chainRows, chainRows, List.flatMap_append]
  exact List.prefix_append _ _

theorem insertAbsent_again {sent rows : List Asset} (h : sent <+: rows) :
    insertAbsent Asset.assetId (insertAbsent Asset.assetId [] sent) rows = insertAbsent Asset.assetId [] rows := by
  obtain ⟨more, rfl⟩ := h
  rw [insertAbsent_append, insertAbsent_self, ← insertAbsent_append]

theorem Reached.send (h : Reached env chain table) {part : List Asset} (hpart : part <+: chainRows env chain) :
    Reached env chain (insertAbsent Asset.assetId table part) := by
  obtain ⟨sent, hsent, rfl⟩ := h
  rcases List.prefix_or_prefix_of_prefix hsent hpart with hlonger | hshorter
  · exact ⟨part, hpart, insertAbsent_again hlonger⟩
  · refine ⟨sent, hsent, ?_⟩
    obtain ⟨more, rfl⟩ := hshorter
    refine insertAbsent_of_mem Asset.assetId fun row hr => ?_
    rw [mem_keys_insertAbsent, List.map_append]
    exact Or.inr (List.mem_append_left _ (List.mem_map_of_mem hr))

theorem chain_split (hslots : chain.Pairwise fun a b => a.slot < b.slot) (slotNo : Nat) :
    chain = (chain.filter fun b => decide (b.slot ≤ slotNo)) ++ chain.filter fun b => decide (slotNo < b.slot) := by
  induction chain with
  | nil => rfl
  | cons b chain ih =>
      obtain ⟨hb, hslots⟩ := List.pairwise_cons.mp hslots
      by_cases hle : b.slot ≤ slotNo
      · rw [List.filter_cons, if_pos (decide_eq_true hle), List.filter_cons,
          if_neg (by simpa using hle), List.cons_append, ← ih hslots]
      · have hnone : chain.filter (fun c => decide (c.slot ≤ slotNo)) = [] := by
          rw [List.filter_eq_nil_iff]
          intro c hc
          have := hb c hc
          simp only [decide_eq_true_eq]
          omega
        have hall : chain.filter (fun c => decide (slotNo < c.slot)) = chain := by
          rw [List.filter_eq_self]
          intro c hc
          have := hb c hc
          simp only [decide_eq_true_eq]
          omega
        rw [List.filter_cons, if_neg (by simpa using hle), hnone, List.nil_append, List.filter_cons,
          if_pos (by simpa using hle), hall]

theorem chainRows_split (hslots : chain.Pairwise fun a b => a.slot < b.slot) (slotNo : Nat) :
    chainRows env chain = chainRows env (chain.filter fun b => decide (b.slot ≤ slotNo)) ++
      chainRows env (chain.filter fun b => decide (slotNo < b.slot)) := by
  rw [chainRows, chainRows, chainRows, ← List.flatMap_append, ← chain_split hslots slotNo]

theorem slot_le {slotNo : Nat} {row : Asset}
    (h : row ∈ chainRows env (chain.filter fun b => decide (b.slot ≤ slotNo))) : row.firstAppearedInSlot ≤ slotNo := by
  obtain ⟨b, hb, hslot, -⟩ := mem_chainRows env h
  rw [hslot]
  simpa using (List.mem_filter.mp hb).2

theorem lt_slot {slotNo : Nat} {row : Asset}
    (h : row ∈ chainRows env (chain.filter fun b => decide (slotNo < b.slot))) : slotNo < row.firstAppearedInSlot := by
  obtain ⟨b, hb, hslot, -⟩ := mem_chainRows env h
  rw [hslot]
  simpa using (List.mem_filter.mp hb).2

theorem Reached.rollBack (h : Reached env chain table) (hslots : chain.Pairwise fun a b => a.slot < b.slot)
    (slotNo : Nat) : ∃ sent, sent <+: chainRows env (chain.filter fun b => decide (b.slot ≤ slotNo)) ∧
      deleteAssetsAfterSlot table slotNo = insertAbsent Asset.assetId [] sent := by
  obtain ⟨sent, hsent, rfl⟩ := h
  obtain ⟨early, hearly⟩ : ∃ early, chainRows env (chain.filter fun b => decide (b.slot ≤ slotNo)) = early := ⟨_, rfl⟩
  have hle : ∀ row ∈ early, row.firstAppearedInSlot ≤ slotNo := fun row hr => slot_le (hearly ▸ hr)
  rw [chainRows_split hslots slotNo, hearly] at hsent
  rw [hearly]
  rcases List.prefix_or_prefix_of_prefix hsent (List.prefix_append early _) with hshort | hlong
  · refine ⟨sent, hshort, ?_⟩
    rw [deleteAssetsAfterSlot, List.filter_eq_self]
    intro row hr
    rw [insertAbsent_eq, List.nil_append] at hr
    exact decide_eq_true (hle row (hshort.subset ((newRows_sublist Asset.assetId [] sent).subset hr)))
  · obtain ⟨more, rfl⟩ := hlong
    have hmore := (List.prefix_append_right_inj early).mp hsent
    refine ⟨early, List.prefix_rfl, ?_⟩
    rw [insertAbsent_append, insertAbsent_eq, deleteAssetsAfterSlot, List.filter_append]
    have hkept : (insertAbsent Asset.assetId [] early).filter (fun row => decide (row.firstAppearedInSlot ≤ slotNo)) =
        insertAbsent Asset.assetId [] early := by
      rw [List.filter_eq_self]
      intro row hr
      rw [insertAbsent_eq, List.nil_append] at hr
      exact decide_eq_true (hle row ((newRows_sublist Asset.assetId [] early).subset hr))
    have hnone : (newRows Asset.assetId (insertAbsent Asset.assetId [] early) more).filter
        (fun row => decide (row.firstAppearedInSlot ≤ slotNo)) = [] := by
      rw [List.filter_eq_nil_iff]
      intro row hr
      have := lt_slot (hmore.subset ((newRows_sublist Asset.assetId _ more).subset hr))
      simp only [decide_eq_true_eq]
      omega
    rw [hkept, hnone, List.append_nil]

end Tables

section Resuming

inductive Resumes (chain : List BlockBody) (table : List Asset) : Nat → List BlockBody → Prop
  | origin (hfew : table.length < 2) : Resumes chain table 0 chain
  | point (b : BlockBody) (hb : b ∈ chain) (hrow : ∃ row ∈ table, row.firstAppearedInSlot = b.slot)
      (hge : 2 ≤ table.countP fun row => decide (b.slot ≤ row.firstAppearedInSlot))
      (hgt : table.countP (fun row => decide (b.slot < row.firstAppearedInSlot)) ≤ 1) :
      Resumes chain table b.slot (chain.filter fun c => decide (b.slot < c.slot))

variable {env : Externals} {table : List Asset}

def slotOf : PointOrOrigin → Nat
  | .origin => 0
  | .point p => p.slot

theorem rolledBack (hok : Reliable env) (point : PointOrOrigin) :
    (exec (rollBackward env point) (start env table)).assets = deleteAssetsAfterSlot table (slotOf point) ∧
      (exec (rollBackward env point) (start env table)).cacheAssets = [] := by
  have h := exec_rollBackward env hok point (start env table)
  cases point with
  | origin => exact h
  | point p => exact h

theorem resumes {blocks : List DbSync.Block} {messages : List (Block × Tip)}
    (hdb : HasEveryBlock blocks (bodies messages))
    (honChain : ∀ row ∈ table, ∃ b ∈ bodies messages, row.firstAppearedInSlot = b.slot) :
    ∃ points point slotNo, getChainSyncPoints table blocks = .ok points ∧
      intersection (bodies messages) points = point ∧
      Resumes (bodies messages) table slotNo (bodies (laterThan messages point)) ∧ slotOf point = slotNo := by
  rcases point_rank hdb honChain with ⟨hnone, hfew⟩ | ⟨b, hb, hpoint, hrow, hge, hgt⟩
  · refine ⟨[.origin], .origin, 0, ?_, rfl, .origin hfew, rfl⟩
    rw [getChainSyncPoints, hnone]
    rfl
  · refine ⟨[.point ⟨b.slot, b.id⟩, .origin], .point ⟨b.slot, b.id⟩, b.slot, ?_, ?_, ?_, rfl⟩
    · rw [getChainSyncPoints, hpoint]
      rfl
    · have hon : onChain (bodies messages) (.point ⟨b.slot, b.id⟩) = true :=
        List.any_eq_true.mpr ⟨b, hb, by simp⟩
      rw [intersection, List.find?_cons, hon]
      rfl
    · rw [bodies_laterThan]
      exact .point b hb hrow hge hgt

theorem recovered_resumes (hok : Reliable env) {blocks : List DbSync.Block} {messages : List (Block × Tip)}
    (hdb : HasEveryBlock blocks (bodies messages))
    (honChain : ∀ row ∈ table, ∃ b ∈ bodies messages, row.firstAppearedInSlot = b.slot) :
    ∃ slotNo later, Resumes (bodies messages) table slotNo later ∧
      recovered env table blocks messages =
        .ok (insertAbsent Asset.assetId (deleteAssetsAfterSlot table slotNo) (chainRows env later)) := by
  obtain ⟨points, point, slotNo, hpoints, hinter, hresumes, hslot⟩ := resumes hdb honChain
  refine ⟨slotNo, _, hresumes, ?_⟩
  obtain ⟨hassets, hcache⟩ := @rolledBack env table hok point
  have hsettled : settled (exec (rollBackward env point) (start env table)) = deleteAssetsAfterSlot table slotNo := by
    rw [settled, hassets, hcache, hslot]
    rfl
  rw [recovered_of_points env hpoints hinter, settled_follow env hok, hsettled]

theorem leaves_resumes (hok : Reliable env) {l : Life} (hdb : HasEveryBlock l.blocks l.chain)
    (honChain : ∀ row ∈ table, ∃ b ∈ l.chain, row.firstAppearedInSlot = b.slot) :
    ∃ left, l.leaves env table = .ok left ∧ (left = table ∨ ∃ slotNo later part,
      Resumes l.chain table slotNo later ∧ part <+: chainRows env later ∧
        left = insertAbsent Asset.assetId (deleteAssetsAfterSlot table slotNo) part) := by
  cases hstop : l.stop with
  | none => exact ⟨table, by rw [Life.leaves, hstop]; rfl, Or.inl rfl⟩
  | some crash =>
      have hlife : Reliable (l.toProcess.externals env) := ⟨hok.inserts, hok.deletes⟩
      obtain ⟨points, point, slotNo, hpoints, hinter, hresumes, hslot⟩ := resumes hdb honChain
      obtain ⟨hassets, hcache⟩ := @rolledBack (l.toProcess.externals env) table hlife point
      obtain ⟨part, hpart, hleft⟩ := stopped_prefix (l.toProcess.externals env) hlife (laterThan l.messages point) crash
        (exec (rollBackward (l.toProcess.externals env) point) (start (l.toProcess.externals env) table)) hcache
      rw [hassets, hslot] at hleft
      refine ⟨_, ?_, Or.inr ⟨slotNo, _, part, hresumes, hpart, hleft⟩⟩
      subst hinter
      simp only [Life.leaves, hstop, hpoints]
      rfl

end Resuming

section Lives

variable {env : Externals} {chain : List BlockBody} {table : List Asset}

theorem Reached.keys_nodup (h : Reached env chain table) : (table.map Asset.assetId).Nodup := by
  obtain ⟨sent, -, rfl⟩ := h
  exact insertAbsent_nodup Asset.assetId (by simp) sent

theorem Reached.resume (h : Reached env chain table) (hslots : chain.Pairwise fun a b => a.slot < b.slot)
    (hharmless : CrashHarmless chain table) {slotNo : Nat} {later : List BlockBody}
    (hresumes : Resumes chain table slotNo later) {part : List Asset} (hpart : part <+: chainRows env later) :
    Reached env chain (insertAbsent Asset.assetId (deleteAssetsAfterSlot table slotNo) part) := by
  obtain ⟨early, hearly, hdeleted⟩ := h.rollBack hslots slotNo
  cases hresumes with
  | origin hfew =>
      refine Reached.send ⟨early, hearly.trans ?_, hdeleted⟩ hpart
      rw [chainRows_split hslots 0]
      exact List.prefix_append _ _
  | point b hb hrow hge hgt =>
      obtain ⟨sent, hsent, htable⟩ := h
      have hhas := (crashHarmless_iff env hslots hsent htable hrow hge hgt).mpr hharmless
      have hkeys : ∀ row ∈ chainRows env (chain.filter fun c => decide (c.slot ≤ b.slot)),
          row.assetId ∈ (deleteAssetsAfterSlot table b.slot).map Asset.assetId := by
        intro row hr
        obtain ⟨c, hc, hslot, hm⟩ := mem_chainRows env hr
        obtain ⟨hc, hle⟩ := List.mem_filter.mp hc
        obtain ⟨d, hd⟩ := Option.isSome_iff_exists.mp ((earliestMint_isSome chain row.assetId).mpr ⟨c, hc, hm⟩)
        have hdb : d.slot ≤ b.slot := (earliestMint_le hslots hc hm hd).trans (by simpa using hle)
        have hin := hhas row.assetId d hd hdb
        obtain ⟨old, hold⟩ := Option.isSome_iff_exists.mp ((lookup_isSome_iff Asset.assetId _ _).mpr hin)
        have hslot := lookup_sent env hsent hd (htable ▸ hold)
        rw [← lookup_isSome_iff, deleteAssetsAfterSlot, lookup_filter Asset.assetId _ _
          (Reached.keys_nodup ⟨sent, hsent, htable⟩), hold, Option.filter_some, if_pos (decide_eq_true (hslot ▸ hdb))]
        rfl
      rw [hdeleted] at hkeys ⊢
      have hearlier : insertAbsent Asset.assetId [] early =
          insertAbsent Asset.assetId [] (chainRows env (chain.filter fun c => decide (c.slot ≤ b.slot))) := by
        rw [← insertAbsent_again hearly, insertAbsent_of_mem Asset.assetId hkeys]
      rw [hearlier, ← insertAbsent_append]
      refine ⟨_, ?_, rfl⟩
      rw [chainRows_split hslots b.slot]
      exact (List.prefix_append_right_inj _).mpr hpart

theorem Reached.completes (h : Reached env chain table) (hslots : chain.Pairwise fun a b => a.slot < b.slot)
    (hharmless : CrashHarmless chain table) {slotNo : Nat} {later : List BlockBody}
    (hresumes : Resumes chain table slotNo later) :
    Complete chain (insertAbsent Asset.assetId (deleteAssetsAfterSlot table slotNo) (chainRows env later)) := by
  obtain ⟨sent, hsent, htable⟩ := h
  cases hresumes with
  | origin hfew =>
      rw [htable]
      exact complete_from_origin env hsent env
  | point b hb hrow hge hgt =>
      have hhas := (crashHarmless_iff env hslots hsent htable hrow hge hgt).mpr hharmless
      rw [htable] at hhas ⊢
      exact (complete_replayed_iff env hsent env b.slot).mpr hhas

theorem Reached.loses (h : Reached env chain table) (hslots : chain.Pairwise fun a b => a.slot < b.slot)
    (hharm : ¬ CrashHarmless chain table) : ∃ b assetId, Lost chain table b assetId := by
  rw [CrashHarmless] at hharm
  push Not at hharm
  obtain ⟨b, hb, htwo, assetId, hm, hno⟩ := hharm
  obtain ⟨d, hd⟩ := Option.isSome_iff_exists.mp ((earliestMint_isSome chain assetId).mpr ⟨b, hb, hm⟩)
  have hnone := (lookup_eq_none_iff Asset.assetId assetId table).mpr hno
  have hslot : d.slot = b.slot := by
    rcases Nat.lt_or_eq_of_le (earliestMint_le hslots hb hm hd) with hlt | heq
    · exfalso
      obtain ⟨row, hr, hrslot⟩ := List.countP_pos_iff.mp (Nat.lt_of_lt_of_le Nat.zero_lt_two htwo)
      rw [decide_eq_true_iff] at hrslot
      obtain ⟨sent, hsent, htable⟩ := h
      have hsub : row ∈ sent := by
        rw [htable, insertAbsent_eq, List.nil_append] at hr
        exact (newRows_sublist Asset.assetId [] sent).subset hr
      have hdm : Mints d assetId := by simpa using List.find?_some hd
      have hreach := sent_reaches env hslots hsent hsub (List.mem_of_find?_eq_some hd) (by omega) hdm
      exact hno (htable ▸ (mem_keys_insertAbsent Asset.assetId assetId [] sent).mpr (Or.inr hreach))
    · exact heq
  refine ⟨d, assetId, hd, hslot ▸ htwo, ?_, h.keys_nodup, h.onChain⟩
  intro row hr
  rw [hnone] at hr
  cases hr

theorem Lost.resume {b : BlockBody} {assetId : String} (h : Lost chain table b assetId) {slotNo : Nat}
    {later : List BlockBody} (hresumes : Resumes chain table slotNo later) {part : List Asset}
    (hpart : part <+: chainRows env later) :
    Lost chain (insertAbsent Asset.assetId (deleteAssetsAfterSlot table slotNo) part) b assetId := by
  have hlate : b.slot ≤ slotNo ∧ (∀ row ∈ part, slotNo < row.firstAppearedInSlot) ∧ ∀ c ∈ later, c ∈ chain := by
    cases hresumes with
    | origin hfew =>
        have := List.countP_le_length (l := table) (p := fun row => decide (row.firstAppearedInSlot = b.slot))
        have := h.two
        omega
    | point c hc hrow hge hgt =>
        refine ⟨?_, fun row hr => lt_slot (hpart.subset hr), fun d hd => (List.mem_filter.mp hd).1⟩
        by_contra hlt
        have hmono := List.countP_mono_left (l := table)
          (p := fun row => decide (row.firstAppearedInSlot = b.slot))
          (q := fun row => decide (c.slot < row.firstAppearedInSlot)) (by
            intro row _ hr
            simp only [decide_eq_true_eq] at hr ⊢
            omega)
        have := h.two
        omega
  obtain ⟨hle, hpartLate, hlater⟩ := hlate
  refine ⟨h.earliest, ?_, ?_, ?_, ?_⟩
  · rw [insertAbsent_eq, List.countP_append, deleteAssetsAfterSlot, List.countP_filter]
    refine Nat.le_add_right_of_le (h.two.trans (Nat.le_of_eq (List.countP_congr fun row _ => ?_)))
    simp only [Bool.and_eq_true, decide_eq_true_eq]
    omega
  · intro row hr
    rw [lookup_insertAbsent, deleteAssetsAfterSlot, lookup_filter Asset.assetId _ _ h.keys] at hr
    rcases Option.or_eq_some_iff.mp hr with hold | ⟨-, hnew⟩
    · exact h.absent row (Option.eq_some_of_filter_eq_some hold)
    · have := hpartLate row (lookup_some Asset.assetId hnew).1
      omega
  · refine insertAbsent_nodup Asset.assetId ?_ part
    exact h.keys.sublist ((List.filter_sublist).map Asset.assetId)
  · intro row hr
    rw [insertAbsent_eq] at hr
    rcases List.mem_append.mp hr with hr | hr
    · exact h.onChain row (List.mem_filter.mp hr).1
    · obtain ⟨c, hc, hslot, -⟩ :=
        mem_chainRows env (hpart.subset ((newRows_sublist Asset.assetId _ part).subset hr))
      exact ⟨c, hlater c hc, hslot⟩

theorem Lost.incomplete {b : BlockBody} {assetId : String} (h : Lost chain table b assetId) :
    ¬ Complete chain table := by
  intro hcomplete
  obtain ⟨row, hr, hslot⟩ := Option.map_eq_some_iff.mp (hcomplete assetId b h.earliest)
  exact h.absent row hr hslot

theorem Lost.extend {b : BlockBody} {assetId : String} (h : Lost chain table b assetId) {longer : List BlockBody}
    (hlonger : chain <+: longer) : Lost longer table b assetId := by
  obtain ⟨more, rfl⟩ := hlonger
  refine ⟨?_, h.two, h.absent, h.keys, fun row hr => ?_⟩
  · rw [earliestMint, List.find?_append, ← earliestMint, h.earliest]
    rfl
  · obtain ⟨c, hc, hslot⟩ := h.onChain row hr
    exact ⟨c, List.mem_append_left _ hc, hslot⟩

theorem Reached.harmless_extend (h : Reached env chain table) (hharmless : CrashHarmless chain table)
    {longer : List BlockBody} (hlonger : chain <+: longer)
    (hslots : longer.Pairwise fun a b => a.slot < b.slot) : CrashHarmless longer table := by
  intro b hb htwo assetId hm
  obtain ⟨row, hr, hslot⟩ := List.countP_pos_iff.mp (Nat.lt_of_lt_of_le Nat.zero_lt_two htwo)
  rw [decide_eq_true_iff] at hslot
  obtain ⟨c, hc, hcslot⟩ := h.onChain row hr
  have hdistinct : (longer.map BlockBody.slot).Nodup := List.pairwise_map.mpr (hslots.imp Nat.ne_of_lt)
  have hsame : c = b :=
    List.inj_on_of_nodup_map hdistinct (hlonger.subset hc) hb (hcslot.symm.trans hslot)
  exact hharmless b (hsame ▸ hc) htwo assetId hm

theorem Timeline.next {l : Life} {lives : List Life} {last : Process} (h : Timeline (l :: lives) last) :
    HasEveryBlock l.blocks l.chain ∧ (l.chain.Pairwise fun a b => a.slot < b.slot) ∧
      (∀ p ∈ processes lives last, l.chain <+: p.chain) ∧ Timeline lives last := by
  obtain ⟨hl, hgrows⟩ := List.pairwise_cons.mp h.grows
  have hlast : last ∈ processes lives last := List.mem_append_right _ (List.mem_singleton_self last)
  exact ⟨h.stored _ List.mem_cons_self, h.slots.sublist (hl last hlast).sublist, hl, hgrows, h.slots,
    fun p hp => h.stored p (List.mem_cons_of_mem _ hp)⟩

theorem history_cons {l : Life} {left : List Asset} (hleft : l.leaves env table = .ok left) {lives : List Life}
    {past : List (Life × List Asset)} (hpast : history env left lives = .ok past) :
    history env table (l :: lives) = .ok ((l, left) :: past) := by
  rw [history, hleft]
  simp only [Except.bind, bind, hpast, pure, Except.pure]

theorem Lost.lives {b : BlockBody} {assetId : String} (h : Lost chain table b assetId) (hok : Reliable env)
    {lives : List Life} {last : Process} (htime : Timeline lives last)
    (hchain : ∀ p ∈ processes lives last, chain <+: p.chain) :
    ∃ past final, history env table lives = .ok past ∧ last.recovers env (endOf table past) = .ok final ∧
      ¬ Complete last.chain final := by
  induction lives generalizing chain table with
  | nil =>
      have h := h.extend (hchain last List.mem_cons_self)
      obtain ⟨slotNo, later, hresumes, hfinal⟩ := @recovered_resumes (last.externals env) table
        ⟨hok.inserts, hok.deletes⟩ _ _ (htime.stored last List.mem_cons_self) h.onChain
      have hlost : Lost last.chain (insertAbsent Asset.assetId (deleteAssetsAfterSlot table slotNo)
          (chainRows env later)) b assetId := h.resume hresumes List.prefix_rfl
      exact ⟨[], _, rfl, hfinal, hlost.incomplete⟩
  | cons l lives ih =>
      obtain ⟨hstored, -, hlater, hrest⟩ := htime.next
      have h := h.extend (hchain l.toProcess List.mem_cons_self)
      obtain ⟨left, hleft, hdone⟩ := leaves_resumes hok hstored h.onChain
      have hlost : Lost l.chain left b assetId := by
        rcases hdone with rfl | ⟨slotNo, later, part, hresumes, hpart, rfl⟩
        · exact h
        · exact h.resume hresumes hpart
      obtain ⟨past, final, hpast, hfinal, hincomplete⟩ := ih hlost hrest hlater
      exact ⟨(l, left) :: past, final, history_cons hleft hpast, hfinal, hincomplete⟩

theorem Reached.lives (h : Reached env chain table) (hharmless : CrashHarmless chain table) (hok : Reliable env)
    {lives : List Life} {last : Process} (htime : Timeline lives last)
    (hchain : ∀ p ∈ processes lives last, chain <+: p.chain) :
    ∃ past final, history env table lives = .ok past ∧ last.recovers env (endOf table past) = .ok final ∧
      (Complete last.chain final ↔ ∀ p ∈ past, CrashHarmless p.1.chain p.2) := by
  induction lives generalizing chain table with
  | nil =>
      have hlast := hchain last List.mem_cons_self
      have hreached := h.extend hlast
      obtain ⟨slotNo, later, hresumes, hfinal⟩ := @recovered_resumes (last.externals env) table
        ⟨hok.inserts, hok.deletes⟩ _ _ (htime.stored last List.mem_cons_self) hreached.onChain
      have hcomplete := hreached.completes htime.slots (h.harmless_extend hharmless hlast htime.slots) hresumes
      exact ⟨[], _, rfl, hfinal, iff_of_true hcomplete (List.forall_mem_nil _)⟩
  | cons l lives ih =>
      obtain ⟨hstored, hslots, hlater, hrest⟩ := htime.next
      have hl := hchain l.toProcess List.mem_cons_self
      have hreached := h.extend hl
      have hcalm := h.harmless_extend hharmless hl hslots
      obtain ⟨left, hleft, hdone⟩ := leaves_resumes hok hstored hreached.onChain
      have hnext : Reached env l.chain left := by
        rcases hdone with rfl | ⟨slotNo, later, part, hresumes, hpart, rfl⟩
        · exact hreached
        · exact hreached.resume hslots hcalm hresumes hpart
      by_cases hleftCalm : CrashHarmless l.chain left
      · obtain ⟨past, final, hpast, hfinal, hiff⟩ := ih hnext hleftCalm hrest hlater
        refine ⟨(l, left) :: past, final, history_cons hleft hpast, hfinal, hiff.trans ?_⟩
        rw [List.forall_mem_cons, and_iff_right hleftCalm]
      · obtain ⟨b, assetId, hlost⟩ := hnext.loses hslots hleftCalm
        obtain ⟨past, final, hpast, hfinal, hincomplete⟩ := hlost.lives hok hrest hlater
        refine ⟨(l, left) :: past, final, history_cons hleft hpast, hfinal, iff_of_false hincomplete fun hall => ?_⟩
        exact hleftCalm (hall (l, left) List.mem_cons_self)

end Lives

/-- However often the process stops and starts again, the last start ends with every asset
of the chain exactly when none of the stops left a block with two of its rows or more but
not all its assets. -/
theorem lives_complete_iff {env : Externals} (hok : Reliable env) {lives : List Life} {last : Process}
    (htime : Timeline lives last) :
    ∃ past final, history env [] lives = .ok past ∧ last.recovers env (endOf [] past) = .ok final ∧
      (Complete last.chain final ↔ ∀ p ∈ past, CrashHarmless p.1.chain p.2) := by
  have hempty : CrashHarmless [] [] := fun b hb => absurd hb List.not_mem_nil
  exact Reached.lives ⟨[], List.nil_prefix, rfl⟩ hempty hok htime fun p _ => List.nil_prefix

def threeMintsProcess : Process := ⟨fun _ => 0, threeMints, threeMintsBlocks⟩

def threeMintsLives : List Life := [⟨threeMintsProcess, some ⟨0, 1⟩⟩, ⟨threeMintsProcess, none⟩]

theorem threeMints_timeline : Timeline threeMintsLives threeMintsProcess where
  grows := by decide +kernel
  slots := by decide +kernel
  stored := by
    intro p hp
    have hsame : p = threeMintsProcess := by
      rcases List.mem_append.mp hp with hp | hp
      · obtain ⟨l, hl, rfl⟩ := List.mem_map.mp hp
        rcases List.mem_cons.mp hl with rfl | hl
        · rfl
        · rw [List.mem_singleton.mp hl]
      · exact List.mem_singleton.mp hp
    rw [hsame]
    exact threeMintsBlocks_all

theorem threeMintsLives_iff : ∃ past final, history quiet [] threeMintsLives = .ok past ∧
    threeMintsProcess.recovers quiet (endOf [] past) = .ok final ∧
      (Complete threeMintsProcess.chain final ↔ ∀ p ∈ past, CrashHarmless p.1.chain p.2) :=
  lives_complete_iff quiet_reliable threeMints_timeline

end CardanoGraphql.RepeatedCrashes
