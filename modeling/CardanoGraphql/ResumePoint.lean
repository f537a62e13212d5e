import CardanoGraphql.AssetSync

namespace CardanoGraphql.ResumePoint

open HasuraBackgroundClient KeyedTable ChainFollower SaveAsset AssetSync

def bodies (messages : List (Block × Tip)) : List BlockBody := messages.filterMap fun m => m.1.body

def getChainSyncPoints (table : List Asset) (blocks : List DbSync.Block) :
    Except String (List PointOrOrigin) := do
  match ← getMostRecentPointWithNewAsset table blocks with
  | some mostRecentPoint => return [.point mostRecentPoint, .origin]
  | none => return [.origin]

def onChain (chain : List BlockBody) : PointOrOrigin → Bool
  | .origin => true
  | .point p => chain.any fun b => decide (b.slot = p.slot ∧ b.id = p.id)

def intersection (chain : List BlockBody) (points : List PointOrOrigin) : PointOrOrigin :=
  (points.find? (onChain chain)).getD .origin

def laterThan (messages : List (Block × Tip)) : PointOrOrigin → List (Block × Tip)
  | .origin => messages
  | .point p => messages.filter fun m => m.1.body.all fun b => decide (p.slot < b.slot)

/-- The process stops after some blocks and some of the mints of the next. -/
structure CrashPoint where
  blocks : Nat
  mints : Nat
deriving DecidableEq, Repr

section Definitions

variable (env : Externals)

def follow (messages : List (Block × Tip)) (s : Follower) : Follower :=
  messages.foldl (fun t m => exec (rollForward env m.1 m.2) t) s

def crashed (messages : List (Block × Tip)) (crash : CrashPoint) : Follower :=
  let s := follow env (messages.take crash.blocks) (start env [])
  match messages[crash.blocks]? with
  | none => s
  | some (block, tip) =>
      match block.body with
      | none => s
      | some b => exec (saveAll env b tip ((mintsOf b).take crash.mints)) s

/-- The next process: it starts from the points, chain-sync rolls back to their
intersection with the chain, and the later blocks follow. -/
def restarted (table : List Asset) (blocks : List DbSync.Block) (messages : List (Block × Tip)) :
    Except String Follower := do
  let points ← getChainSyncPoints table blocks
  let point := intersection (bodies messages) points
  return follow env (laterThan messages point) (exec (rollBackward env point) (start env table))

def recovered (table : List Asset) (blocks : List DbSync.Block) (messages : List (Block × Tip)) :
    Except String (List Asset) := do
  let s ← restarted env table blocks messages
  return settled s

def mintedRows (b : BlockBody) : List Asset := (mintsOf b).map (mintedRow env b)

def chainRows (chain : List BlockBody) : List Asset := chain.flatMap (mintedRows env)

end Definitions

/-- cardano-db-sync has every block, and one block for a slot. -/
structure HasEveryBlock (blocks : List DbSync.Block) (chain : List BlockBody) : Prop where
  stored : ∀ b ∈ chain, ∃ x ∈ blocks, x.slotNo = some b.slot ∧ x.hash = withHexPrefix (some b.id)
  slots : ∀ x ∈ blocks, ∀ y ∈ blocks, x.slotNo = y.slotNo → x.slotNo.isSome = true → x = y

def Complete (chain : List BlockBody) (table : List Asset) : Prop :=
  ∀ assetId b, earliestMint chain assetId = some b →
    (lookup Asset.assetId assetId table).map Asset.firstAppearedInSlot = some b.slot

/-- A block with two rows or more has a row for each of its assets. -/
def CrashHarmless (chain : List BlockBody) (table : List Asset) : Prop :=
  ∀ b ∈ chain, 2 ≤ table.countP (fun row => decide (row.firstAppearedInSlot = b.slot)) →
    ∀ assetId, Mints b assetId → assetId ∈ table.map Asset.assetId

section Ranking

variable {α : Type} (rank : α → Nat)

theorem second_rank {xs : List α} (hs : xs.Pairwise fun a b => rank b ≤ rank a) {x : α}
    (hx : xs[1]? = some x) :
    2 ≤ xs.countP (fun y => decide (rank x ≤ rank y)) ∧
      xs.countP (fun y => decide (rank x < rank y)) ≤ 1 := by
  match xs, hs, hx with
  | a :: b :: rest, hs, hx =>
      obtain rfl : b = x := Option.some.inj hx
      obtain ⟨ha, hs⟩ := List.pairwise_cons.mp hs
      obtain ⟨hb, -⟩ := List.pairwise_cons.mp hs
      have hab := ha b List.mem_cons_self
      have hrest : rest.countP (fun y => decide (rank b < rank y)) = 0 := by
        rw [List.countP_eq_zero]
        intro y hy
        have := hb y hy
        simpa using this
      constructor
      · simp only [List.countP_cons, hab, decide_true, if_true, Nat.le_refl]
        omega
      · rw [List.countP_cons, List.countP_cons, hrest]
        by_cases hlt : rank b < rank a <;> simp [hlt]

theorem exists_above {xs : List α} {n : Nat} (hge : 2 ≤ xs.countP fun y => decide (n ≤ rank y))
    (heq : xs.countP (fun y => decide (rank y = n)) < 2) : ∃ y ∈ xs, n < rank y := by
  by_contra hno
  have hle : ∀ y ∈ xs, rank y ≤ n := by
    intro y hy
    by_contra hlt
    exact hno ⟨y, hy, by omega⟩
  have hsame : xs.countP (fun y => decide (n ≤ rank y)) = xs.countP fun y => decide (rank y = n) := by
    apply List.countP_congr
    intro y hy
    have := hle y hy
    simp only [decide_eq_true_eq]
    omega
  omega

end Ranking

section Point

variable {blocks : List DbSync.Block} {chain : List BlockBody}

theorem firstAppearedInBlock_eq (hdb : HasEveryBlock blocks chain) {b : BlockBody} (hb : b ∈ chain)
    {row : Asset} (hr : row.firstAppearedInSlot = b.slot) :
    ∃ x, firstAppearedInBlock blocks row = some x ∧ x.slotNo = some b.slot ∧
      x.hash = withHexPrefix (some b.id) := by
  obtain ⟨x, hx, hslot, hhash⟩ := hdb.stored b hb
  cases hf : firstAppearedInBlock blocks row with
  | none =>
      have hno := List.find?_eq_none.mp hf x hx
      simp [hslot, hr] at hno
  | some y =>
      have hy : y.slotNo = some b.slot := by
        simpa [hr] using List.find?_some hf
      have hyx : y = x := hdb.slots y (List.mem_of_find?_eq_some hf) x hx (by rw [hy, hslot]) (by simp [hy])
      exact ⟨y, rfl, hy, hyx ▸ hhash⟩

theorem slotNoDesc_trans (r s t : Asset) (hrs : slotNoDesc blocks r s = true)
    (hst : slotNoDesc blocks s t = true) : slotNoDesc blocks r t = true := by
  simp only [slotNoDesc] at *
  generalize (firstAppearedInBlock blocks r).bind DbSync.Block.slotNo = l at *
  generalize (firstAppearedInBlock blocks s).bind DbSync.Block.slotNo = m at *
  generalize (firstAppearedInBlock blocks t).bind DbSync.Block.slotNo = n at *
  cases l with
  | none => rfl
  | some l =>
      cases m with
      | none => cases hrs
      | some m =>
          cases n with
          | none => cases hst
          | some n =>
              simp only [decide_eq_true_eq] at *
              omega

theorem slotNoDesc_total (r s : Asset) : (slotNoDesc blocks r s || slotNoDesc blocks s r) = true := by
  simp only [slotNoDesc]
  cases (firstAppearedInBlock blocks r).bind DbSync.Block.slotNo with
  | none => rfl
  | some m =>
      cases (firstAppearedInBlock blocks s).bind DbSync.Block.slotNo with
      | none => rfl
      | some n =>
          simp only [Bool.or_eq_true, decide_eq_true_eq]
          omega

theorem point_rank (hdb : HasEveryBlock blocks chain) {table : List Asset}
    (htable : ∀ row ∈ table, ∃ b ∈ chain, row.firstAppearedInSlot = b.slot) :
    (getMostRecentPointWithNewAsset table blocks = .ok none ∧ table.length < 2) ∨
      ∃ b ∈ chain, getMostRecentPointWithNewAsset table blocks = .ok (some ⟨b.slot, b.id⟩) ∧
        (∃ row ∈ table, row.firstAppearedInSlot = b.slot) ∧
        2 ≤ table.countP (fun row => decide (b.slot ≤ row.firstAppearedInSlot)) ∧
        table.countP (fun row => decide (b.slot < row.firstAppearedInSlot)) ≤ 1 := by
  have htotal : Std.Total fun r s => slotNoDesc blocks r s = true :=
    ⟨fun r s => by simpa using slotNoDesc_total r s⟩
  have htrans : IsTrans Asset fun r s => slotNoDesc blocks r s = true := ⟨slotNoDesc_trans⟩
  have hperm := List.perm_insertionSort (fun r s => slotNoDesc blocks r s = true) table
  cases hsecond : (table.insertionSort fun r s => slotNoDesc blocks r s = true)[1]? with
  | none =>
      refine Or.inl ⟨by rw [getMostRecentPointWithNewAsset, hsecond], ?_⟩
      have hlen := List.getElem?_eq_none_iff.mp hsecond
      rw [List.length_insertionSort] at hlen
      omega
  | some row =>
      have hmem : row ∈ table := hperm.mem_iff.mp (List.mem_of_getElem? hsecond)
      obtain ⟨b, hb, hslot⟩ := htable row hmem
      obtain ⟨x, hx, hxslot, hhash⟩ := firstAppearedInBlock_eq hdb hb hslot
      have hsorted : (table.insertionSort fun r s => slotNoDesc blocks r s = true).Pairwise
          fun r s => s.firstAppearedInSlot ≤ r.firstAppearedInSlot := by
        refine (List.pairwise_insertionSort _ table).imp_of_mem ?_
        intro r s hr hs hrs
        obtain ⟨c, hc, hcslot⟩ := htable r (hperm.mem_iff.mp hr)
        obtain ⟨d, hd, hdslot⟩ := htable s (hperm.mem_iff.mp hs)
        obtain ⟨y, hy, hyslot, -⟩ := firstAppearedInBlock_eq hdb hc hcslot
        obtain ⟨z, hz, hzslot, -⟩ := firstAppearedInBlock_eq hdb hd hdslot
        simp only [slotNoDesc, hy, hz, Option.bind_some, hyslot, hzslot, decide_eq_true_eq] at hrs
        omega
      obtain ⟨hge, hgt⟩ := second_rank Asset.firstAppearedInSlot hsorted hsecond
      rw [hperm.countP_eq, hslot] at hge hgt
      refine Or.inr ⟨b, hb, ?_, ⟨row, hmem, hslot⟩, hge, hgt⟩
      rw [getMostRecentPointWithNewAsset, hsecond]
      simp only [hx, hxslot, hhash, Option.getD_some, withHexPrefix]
      simp

end Point

end CardanoGraphql.ResumePoint
