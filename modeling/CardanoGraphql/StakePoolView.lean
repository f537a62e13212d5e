import Mathlib.Data.Finset.Max
import Mathlib.Data.List.Dedup
import Mathlib.Data.Prod.Lex
import CardanoGraphql.TransactionViews

namespace CardanoGraphql.StakePoolView

open DbSync SqlJoin

structure TimedBlock extends BlockRecord where
  time : Nat
deriving DecidableEq, Repr

structure IndexedTx extends TxRecord where
  blockIndex : Nat
deriving DecidableEq, Repr

structure PoolUpdateRecord where
  id : Nat
  hashId : Nat
  certIndex : Nat
  pledge : Nat
  rewardAddrId : Nat
  metaId : Option Nat
  margin : Rat
  fixedCost : Nat
  registeredTxId : Nat
  deposit : Option Nat
deriving DecidableEq, Repr

structure PoolMetadataRefRecord where
  id : Nat
  url : String
  hash : String
deriving DecidableEq, Repr

structure StakeAddressRecord where
  id : Nat
  view : String
deriving DecidableEq, Repr

structure PoolHashRecord where
  id : Nat
  hashRaw : String
  view : String
deriving DecidableEq, Repr

structure PoolTables where
  block : List TimedBlock
  tx : List IndexedTx
  poolUpdate : List PoolUpdateRecord
  poolMetadataRef : List PoolMetadataRefRecord
  stakeAddress : List StakeAddressRecord
  poolHash : List PoolHashRecord

structure StakePool where
  fixedCost : Nat
  hash : String
  id : String
  hashId : Nat
  updateId : Nat
  margin : Rat
  metadataHash : Option String
  blockNo : Option Nat
  updatedInTxId : Nat
  pledge : Nat
  rewardAddress : String
  url : Option String
  deposit : Option Nat
deriving DecidableEq, Repr

abbrev PlacedUpdate := (PoolUpdateRecord × IndexedTx) × TimedBlock

variable (db : PoolTables)

def placedUpdates : List PlacedUpdate :=
  innerJoin (fun (p : PoolUpdateRecord × IndexedTx) b => decide (p.2.blockId = b.id))
    (innerJoin (fun (u : PoolUpdateRecord) (t : IndexedTx) => decide (u.registeredTxId = t.id))
      db.poolUpdate db.tx)
    db.block

def latestBlockTime (hashId : Nat) : Option Nat :=
  (((placedUpdates db).filter fun p => p.1.1.hashId = hashId).map fun p => p.2.time).max?

def latestBlockTimes : List (Nat × Nat) :=
  ((placedUpdates db).map fun p => p.1.1.hashId).dedup.filterMap fun hashId =>
    (latestBlockTime db hashId).map fun blockTime => (hashId, blockTime)

def withMetadata : List (PoolUpdateRecord × Option PoolMetadataRefRecord) :=
  leftJoin (fun u m => decide (u.metaId = some m.id)) db.poolUpdate db.poolMetadataRef

def withTx : List ((PoolUpdateRecord × Option PoolMetadataRefRecord) × IndexedTx) :=
  innerJoin (fun p t => decide (p.1.registeredTxId = t.id)) (withMetadata db) db.tx

def withBlockTime : List (((PoolUpdateRecord × Option PoolMetadataRefRecord) × IndexedTx) × (Nat × Nat)) :=
  innerJoin (fun p latest => decide (latest.1 = p.1.1.hashId)) (withTx db) (latestBlockTimes db)

def inLatestBlock : List ((((PoolUpdateRecord × Option PoolMetadataRefRecord) × IndexedTx) ×
    (Nat × Nat)) × TimedBlock) :=
  innerJoin (fun p b => decide (p.1.2.blockId = b.id) && decide (p.2.2 = b.time)) (withBlockTime db) db.block

def withRewardAddress : List (((((PoolUpdateRecord × Option PoolMetadataRefRecord) × IndexedTx) ×
    (Nat × Nat)) × TimedBlock) × StakeAddressRecord) :=
  innerJoin (fun p a => decide (p.1.1.1.1.rewardAddrId = a.id)) (inLatestBlock db) db.stakeAddress

def withPoolHash : List ((((((PoolUpdateRecord × Option PoolMetadataRefRecord) × IndexedTx) ×
    (Nat × Nat)) × TimedBlock) × StakeAddressRecord) × PoolHashRecord) :=
  innerJoin (fun p h => decide (h.id = p.1.1.1.1.1.hashId)) (withRewardAddress db) db.poolHash

def stakePools : List StakePool :=
  (withPoolHash db).map fun p =>
    let pool := p.1.1.1.1.1.1
    let reference := p.1.1.1.1.1.2
    { fixedCost := pool.fixedCost
      hash := p.2.hashRaw
      id := p.2.view
      hashId := pool.hashId
      updateId := pool.id
      margin := pool.margin
      metadataHash := reference.map PoolMetadataRefRecord.hash
      blockNo := p.1.1.2.blockNo
      updatedInTxId := pool.registeredTxId
      pledge := pool.pledge
      rewardAddress := p.1.2.view
      url := reference.map PoolMetadataRefRecord.url
      deposit := pool.deposit }

structure Consistent : Prop where
  block_id : (db.block.map fun b => b.id).Nodup
  tx_id : (db.tx.map fun t => t.id).Nodup
  tx_index : (db.tx.map fun t => (t.blockId, t.blockIndex)).Nodup
  update_id : (db.poolUpdate.map PoolUpdateRecord.id).Nodup
  update_index : (db.poolUpdate.map fun u => (u.registeredTxId, u.certIndex)).Nodup
  metadata_id : (db.poolMetadataRef.map PoolMetadataRefRecord.id).Nodup
  address_id : (db.stakeAddress.map StakeAddressRecord.id).Nodup
  hash_id : (db.poolHash.map PoolHashRecord.id).Nodup
  tx_block : ∀ t ∈ db.tx, ∃ b ∈ db.block, b.id = t.blockId
  update_tx : ∀ u ∈ db.poolUpdate, ∃ t ∈ db.tx, t.id = u.registeredTxId
  update_metadata : ∀ u ∈ db.poolUpdate, ∀ i, u.metaId = some i → ∃ m ∈ db.poolMetadataRef, m.id = i
  update_address : ∀ u ∈ db.poolUpdate, ∃ a ∈ db.stakeAddress, a.id = u.rewardAddrId
  update_hash : ∀ u ∈ db.poolUpdate, ∃ h ∈ db.poolHash, h.id = u.hashId

/-- Chain order: the block, the transaction in the block, the certificate in the transaction. -/
def position (p : PlacedUpdate) : ℕ ×ₗ ℕ ×ₗ ℕ :=
  toLex (p.2.id, toLex (p.1.2.blockIndex, p.1.1.certIndex))

structure MostRecent (hashId : Nat) (p : PlacedUpdate) : Prop where
  placed : p ∈ placedUpdates db
  pool : p.1.1.hashId = hashId
  latest : ∀ q ∈ placedUpdates db, q.1.1.hashId = hashId → q ≠ p → position q < position p

def rowsOf (hashId : Nat) : List Nat :=
  ((stakePools db).filter fun row => row.hashId = hashId).map StakePool.updateId

variable {db}

theorem mem_placedUpdates (p : PlacedUpdate) :
    p ∈ placedUpdates db ↔ p.1.1 ∈ db.poolUpdate ∧ p.1.2 ∈ db.tx ∧ p.2 ∈ db.block ∧
      p.1.1.registeredTxId = p.1.2.id ∧ p.1.2.blockId = p.2.id := by
  rw [placedUpdates, mem_innerJoin_innerJoin, decide_eq_true_eq, decide_eq_true_eq]

theorem placed_of_update (h : Consistent db) {u : PoolUpdateRecord} (hu : u ∈ db.poolUpdate) :
    ∃ p ∈ placedUpdates db, p.1.1 = u := by
  obtain ⟨t, ht, htx⟩ := h.update_tx u hu
  obtain ⟨b, hb, hblock⟩ := h.tx_block t ht
  exact ⟨((u, t), b), (mem_placedUpdates _).mpr ⟨hu, ht, hb, htx.symm, hblock.symm⟩, rfl⟩

theorem placed_eq (h : Consistent db) {p q : PlacedUpdate} (hp : p ∈ placedUpdates db)
    (hq : q ∈ placedUpdates db) (hid : p.1.1.id = q.1.1.id) : p = q := by
  obtain ⟨hu, ht, hb, htx, hblock⟩ := (mem_placedUpdates p).mp hp
  obtain ⟨hu', ht', hb', htx', hblock'⟩ := (mem_placedUpdates q).mp hq
  have hupdate : p.1.1 = q.1.1 := eq_of_key h.update_id hu hu' hid
  have htxs : p.1.2 = q.1.2 := eq_of_key h.tx_id ht ht' (by rw [← htx, ← htx', hupdate])
  have hblocks : p.2 = q.2 := eq_of_key h.block_id hb hb' (by rw [← hblock, ← hblock', htxs])
  exact Prod.ext (Prod.ext hupdate htxs) hblocks

theorem position_injective (h : Consistent db) {p q : PlacedUpdate} (hp : p ∈ placedUpdates db)
    (hq : q ∈ placedUpdates db) (hpos : position p = position q) : p = q := by
  obtain ⟨hu, ht, hb, htx, hblock⟩ := (mem_placedUpdates p).mp hp
  obtain ⟨hu', ht', hb', htx', hblock'⟩ := (mem_placedUpdates q).mp hq
  have hparts := toLex_inj.mp hpos
  have hcert := toLex_inj.mp (Prod.mk.inj hparts).2
  have htxs : p.1.2 = q.1.2 := by
    apply eq_of_key h.tx_index ht ht'
    rw [hblock, hblock', (Prod.mk.inj hparts).1, (Prod.mk.inj hcert).1]
  have hupdate : p.1.1 = q.1.1 := by
    apply eq_of_key h.update_index hu hu'
    rw [htx, htx', htxs, (Prod.mk.inj hcert).2]
  exact placed_eq h hp hq (congrArg _ hupdate)

theorem exists_mostRecent (h : Consistent db) {u : PoolUpdateRecord} (hu : u ∈ db.poolUpdate) :
    ∃ p, MostRecent db u.hashId p := by
  obtain ⟨p, hp, rfl⟩ := placed_of_update h hu
  let group := (placedUpdates db).filter fun q => q.1.1.hashId = p.1.1.hashId
  have hmem : ∀ q, q ∈ group.toFinset ↔ q ∈ placedUpdates db ∧ q.1.1.hashId = p.1.1.hashId := by
    intro q
    rw [List.mem_toFinset, List.mem_filter, decide_eq_true_eq]
  obtain ⟨q, hq, hmax⟩ := Finset.exists_max_image group.toFinset position ⟨p, (hmem p).mpr ⟨hp, rfl⟩⟩
  obtain ⟨hq, hpool⟩ := (hmem q).mp hq
  refine ⟨q, hq, hpool, fun r hr hrpool hne => ?_⟩
  have hle := hmax r ((hmem r).mpr ⟨hr, hrpool⟩)
  exact lt_of_le_of_ne hle fun heq => hne (position_injective h hr hq heq)

theorem latestBlockTime_eq_some {hashId time : Nat} :
    latestBlockTime db hashId = some time ↔
      (∃ p ∈ placedUpdates db, p.1.1.hashId = hashId ∧ p.2.time = time) ∧
        ∀ q ∈ placedUpdates db, q.1.1.hashId = hashId → q.2.time ≤ time := by
  rw [latestBlockTime, List.max?_eq_some_iff]
  simp only [List.mem_map, List.mem_filter, decide_eq_true_eq]
  constructor
  · rintro ⟨⟨p, ⟨hp, hpool⟩, htime⟩, hmax⟩
    exact ⟨⟨p, hp, hpool, htime⟩, fun q hq hqpool => hmax _ ⟨q, ⟨hq, hqpool⟩, rfl⟩⟩
  · rintro ⟨⟨p, hp, hpool, htime⟩, hmax⟩
    refine ⟨⟨p, ⟨hp, hpool⟩, htime⟩, ?_⟩
    rintro _ ⟨q, ⟨hq, hqpool⟩, rfl⟩
    exact hmax q hq hqpool

theorem mem_latestBlockTimes (latest : Nat × Nat) :
    latest ∈ latestBlockTimes db ↔ latestBlockTime db latest.1 = some latest.2 := by
  rw [latestBlockTimes, List.mem_filterMap]
  constructor
  · rintro ⟨hashId, -, hlatest⟩
    obtain ⟨time, htime, rfl⟩ := Option.map_eq_some_iff.mp hlatest
    exact htime
  · intro htime
    obtain ⟨⟨p, hp, hpool, -⟩, -⟩ := latestBlockTime_eq_some.mp htime
    refine ⟨latest.1, List.mem_dedup.mpr (List.mem_map.mpr ⟨p, hp, hpool⟩), ?_⟩
    rw [htime, Option.map_some]

theorem latestBlockTimes_keys : ((latestBlockTimes db).map Prod.fst).Nodup := by
  have hsub : ∀ keys : List Nat, ((keys.filterMap fun hashId =>
      (latestBlockTime db hashId).map fun blockTime => (hashId, blockTime)).map Prod.fst).Sublist keys := by
    intro keys
    induction keys with
    | nil => exact List.Sublist.refl _
    | cons key keys ih =>
        cases hkey : latestBlockTime db key with
        | none => simpa [hkey] using ih.cons key
        | some time => simpa [hkey] using ih.cons_cons key
  exact (List.nodup_dedup _).sublist (hsub _)

theorem updateIds_nodup (h : Consistent db) : ((stakePools db).map StakePool.updateId).Nodup := by
  have hmetadata : (withMetadata db).map Prod.fst = db.poolUpdate := by
    apply map_fst_leftJoin
    intro u _
    cases hm : u.metaId with
    | none => simp
    | some i =>
        simp only [Option.some.injEq]
        exact countP_key_symm h.metadata_id i
  have htx : ((withTx db).map Prod.fst).Sublist (withMetadata db) :=
    innerJoin_sublist fun p _ => countP_key_symm h.tx_id p.1.registeredTxId
  have htime : ((withBlockTime db).map Prod.fst).Sublist (withTx db) :=
    innerJoin_sublist fun p _ => countP_key latestBlockTimes_keys p.1.1.hashId
  have hblock : ((inLatestBlock db).map Prod.fst).Sublist (withBlockTime db) := by
    apply innerJoin_sublist
    intro p _
    refine le_trans (List.countP_mono_left fun b _ hb => ?_) (countP_key h.block_id p.1.2.blockId)
    rw [Bool.and_eq_true, decide_eq_true_eq] at hb
    exact decide_eq_true hb.1.symm
  have haddress : ((withRewardAddress db).map Prod.fst).Sublist (inLatestBlock db) :=
    innerJoin_sublist fun p _ => countP_key_symm h.address_id p.1.1.1.1.rewardAddrId
  have hhash : ((withPoolHash db).map Prod.fst).Sublist (withRewardAddress db) :=
    innerJoin_sublist fun p _ => countP_key h.hash_id p.1.1.1.1.1.hashId
  have hall : ((stakePools db).map StakePool.updateId).Sublist (db.poolUpdate.map PoolUpdateRecord.id) := by
    rw [← hmetadata, stakePools]
    have hchain := ((((((hhash.map Prod.fst).trans haddress).map Prod.fst).trans hblock).map
      Prod.fst).trans htime).map Prod.fst |>.trans htx |>.map Prod.fst |>.map PoolUpdateRecord.id
    simp only [List.map_map] at hchain ⊢
    exact hchain
  exact h.update_id.sublist hall

theorem rowsOf_nodup (h : Consistent db) (hashId : Nat) : (rowsOf db hashId).Nodup :=
  (updateIds_nodup h).sublist (List.filter_sublist.map _)

theorem mem_rowsOf (h : Consistent db) (hashId id : Nat) :
    id ∈ rowsOf db hashId ↔ ∃ p ∈ placedUpdates db,
      p.1.1.hashId = hashId ∧ p.1.1.id = id ∧ latestBlockTime db hashId = some p.2.time := by
  constructor
  · intro hrow
    obtain ⟨row, hrow, hid⟩ := List.mem_map.mp hrow
    obtain ⟨hrow, hpool⟩ := List.mem_filter.mp hrow
    obtain ⟨r, hr, rfl⟩ := List.mem_map.mp hrow
    have haddress := ((mem_innerJoin _ _ _ r.1 r.2).mp hr).1
    have hblock := ((mem_innerJoin _ _ _ r.1.1 r.1.2).mp haddress).1
    obtain ⟨htime, hb, hon⟩ := (mem_innerJoin _ _ _ r.1.1.1 r.1.1.2).mp hblock
    obtain ⟨htx, hlatest, hgroup⟩ := (mem_innerJoin _ _ _ r.1.1.1.1 r.1.1.1.2).mp htime
    obtain ⟨hmetadata, ht, hreg⟩ := (mem_innerJoin _ _ _ r.1.1.1.1.1 r.1.1.1.1.2).mp htx
    have hu : r.1.1.1.1.1.1 ∈ db.poolUpdate := fst_mem_leftJoin hmetadata
    rw [Bool.and_eq_true, decide_eq_true_eq, decide_eq_true_eq] at hon
    rw [decide_eq_true_eq] at hreg hgroup hpool
    refine ⟨((r.1.1.1.1.1.1, r.1.1.1.1.2), r.1.1.2),
      (mem_placedUpdates _).mpr ⟨hu, ht, hb, hreg, hon.1⟩, hpool, hid, ?_⟩
    rw [← hpool, ← hon.2]
    have hmax := (mem_latestBlockTimes _).mp hlatest
    rwa [hgroup] at hmax
  · rintro ⟨p, hp, hpool, hid, hmax⟩
    obtain ⟨hu, ht, hb, hreg, hblock⟩ := (mem_placedUpdates p).mp hp
    obtain ⟨a, ha, haddress⟩ := h.update_address _ hu
    obtain ⟨ph, hph, hhash⟩ := h.update_hash _ hu
    obtain ⟨o, ho⟩ : ∃ o, (p.1.1, o) ∈ withMetadata db := exists_mem_leftJoin _ db.poolMetadataRef hu
    have htx : ((p.1.1, o), p.1.2) ∈ withTx db :=
      (mem_innerJoin _ _ _ _ _).mpr ⟨ho, ht, decide_eq_true hreg⟩
    have htime : (((p.1.1, o), p.1.2), (hashId, p.2.time)) ∈ withBlockTime db :=
      (mem_innerJoin _ _ _ _ _).mpr ⟨htx, (mem_latestBlockTimes _).mpr hmax, decide_eq_true hpool.symm⟩
    have hlatest : ((((p.1.1, o), p.1.2), (hashId, p.2.time)), p.2) ∈ inLatestBlock db :=
      (mem_innerJoin _ _ _ _ _).mpr ⟨htime, hb, by simp [hblock]⟩
    have hreward : (((((p.1.1, o), p.1.2), (hashId, p.2.time)), p.2), a) ∈ withRewardAddress db :=
      (mem_innerJoin _ _ _ _ _).mpr ⟨hlatest, ha, decide_eq_true haddress.symm⟩
    have hrow : ((((((p.1.1, o), p.1.2), (hashId, p.2.time)), p.2), a), ph) ∈ withPoolHash db :=
      (mem_innerJoin _ _ _ _ _).mpr ⟨hreward, hph, decide_eq_true hhash⟩
    refine List.mem_map.mpr ⟨_, List.mem_filter.mpr ⟨List.mem_map.mpr ⟨_, hrow, rfl⟩, ?_⟩, hid⟩
    exact decide_eq_true hpool

/-- The view has one row for a pool, that of its most recent update, exactly when the
block of that update is later in time than the blocks of all its other updates. -/
theorem one_row_iff (h : Consistent db) {u : PoolUpdateRecord} (hu : u ∈ db.poolUpdate) :
    ∃ p, MostRecent db u.hashId p ∧
      (rowsOf db u.hashId = [p.1.1.id] ↔
        ∀ q ∈ placedUpdates db, q.1.1.hashId = u.hashId → q ≠ p → q.2.time < p.2.time) := by
  obtain ⟨p, hp⟩ := exists_mostRecent h hu
  refine ⟨p, hp, fun hrows => ?_, fun hlater => ?_⟩
  · have hmem : ∀ q ∈ placedUpdates db, q.1.1.hashId = u.hashId →
        latestBlockTime db u.hashId = some q.2.time → q = p := by
      intro q hq hpool htime
      have hid : q.1.1.id ∈ rowsOf db u.hashId := (mem_rowsOf h _ _).mpr ⟨q, hq, hpool, rfl, htime⟩
      rw [hrows, List.mem_singleton] at hid
      exact placed_eq h hq hp.placed hid
    have hrow : p.1.1.id ∈ rowsOf db u.hashId := hrows ▸ List.mem_cons_self
    obtain ⟨r, hr, hrpool, -, hmax⟩ := (mem_rowsOf h _ _).mp hrow
    have hrp := hmem r hr hrpool hmax
    subst hrp
    intro q hq hpool hne
    have hle := (latestBlockTime_eq_some.mp hmax).2 q hq hpool
    refine lt_of_le_of_ne hle fun heq => hne (hmem q hq hpool ?_)
    rw [hmax, heq]
  · have hmax : latestBlockTime db u.hashId = some p.2.time := by
      refine latestBlockTime_eq_some.mpr ⟨⟨p, hp.placed, hp.pool, rfl⟩, fun q hq hpool => ?_⟩
      by_cases hq' : q = p
      · rw [hq']
      · exact Nat.le_of_lt (hlater q hq hpool hq')
    apply List.perm_singleton.mp
    apply (List.perm_ext_iff_of_nodup (rowsOf_nodup h _) (List.nodup_singleton _)).mpr
    intro id
    rw [mem_rowsOf h, List.mem_singleton]
    constructor
    · rintro ⟨q, hq, hpool, rfl, htime⟩
      by_cases hq' : q = p
      · rw [hq']
      · have hlt := hlater q hq hpool hq'
        rw [hmax, Option.some.injEq] at htime
        omega
    · rintro rfl
      exact ⟨p, hp.placed, hp.pool, rfl, hmax⟩

def registeredTwice : PoolTables :=
  { block := [⟨⟨1, "\\xb1", some 1, some 10⟩, 200⟩]
    tx := [⟨⟨1, "\\xa1", 1, some 3⟩, 0⟩, ⟨⟨2, "\\xa2", 1, some 3⟩, 1⟩]
    poolUpdate := [⟨1, 5, 0, 1000, 1, none, 0, 340, 1, some 500⟩, ⟨2, 5, 0, 2000, 1, none, 0, 340, 2, none⟩]
    poolMetadataRef := []
    stakeAddress := [⟨1, "stake1"⟩]
    poolHash := [⟨5, "\\x05", "pool1"⟩] }

theorem registeredTwice_consistent : Consistent registeredTwice := by
  constructor <;> decide

theorem registeredTwice_iff :
    ∃ p, MostRecent registeredTwice 5 p ∧ (rowsOf registeredTwice 5 = [p.1.1.id] ↔
      ∀ q ∈ placedUpdates registeredTwice, q.1.1.hashId = 5 → q ≠ p → q.2.time < p.2.time) :=
  one_row_iff registeredTwice_consistent (List.mem_cons_self)

theorem registeredTwice_two_rows :
    Consistent registeredTwice ∧ rowsOf registeredTwice 5 = [1, 2] ∧
      ¬ ∃ p, MostRecent registeredTwice 5 p ∧ rowsOf registeredTwice 5 = [p.1.1.id] := by
  have hrows : rowsOf registeredTwice 5 = [1, 2] := by decide
  refine ⟨registeredTwice_consistent, hrows, ?_⟩
  rintro ⟨p, -, hone⟩
  rw [hrows] at hone
  exact absurd (congrArg List.length hone) (by simp)

end CardanoGraphql.StakePoolView
