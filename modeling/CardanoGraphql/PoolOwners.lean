import CardanoGraphql.StakePoolView

namespace CardanoGraphql.PoolOwners

open SqlJoin StakePoolView

structure HashedAddress extends StakeAddressRecord where
  hashRaw : String
deriving DecidableEq, Repr

structure PoolOwnerRecord where
  id : Nat
  addrId : Nat
  poolUpdateId : Nat
deriving DecidableEq, Repr

structure PoolRelayRecord where
  id : Nat
  updateId : Nat
  ipv4 : Option String
  ipv6 : Option String
  dnsName : Option String
  dnsSrvName : Option String
  port : Option Nat
deriving DecidableEq, Repr

structure OwnerTables where
  block : List TimedBlock
  tx : List IndexedTx
  poolUpdate : List PoolUpdateRecord
  poolMetadataRef : List PoolMetadataRefRecord
  stakeAddress : List HashedAddress
  poolHash : List PoolHashRecord
  poolOwner : List PoolOwnerRecord
  poolRelay : List PoolRelayRecord

structure StakePoolOwner where
  hash : String
  poolHashId : Nat
deriving DecidableEq, Repr

variable (db : OwnerTables)

def toPools : PoolTables :=
  { block := db.block
    tx := db.tx
    poolUpdate := db.poolUpdate
    poolMetadataRef := db.poolMetadataRef
    stakeAddress := db.stakeAddress.map HashedAddress.toStakeAddressRecord
    poolHash := db.poolHash }

abbrev DeclaredOwner := (PoolOwnerRecord × HashedAddress) × PoolUpdateRecord

def withAddress : List (PoolOwnerRecord × HashedAddress) :=
  innerJoin (fun o a => decide (a.id = o.addrId)) db.poolOwner db.stakeAddress

def declaredOwners : List DeclaredOwner :=
  innerJoin (fun p u => decide (p.1.poolUpdateId = u.id)) (withAddress db) db.poolUpdate

def stakePoolOwners : List StakePoolOwner :=
  (declaredOwners db).map fun p => { hash := p.1.2.hashRaw, poolHashId := p.2.hashId }

def owners (row : StakePool) : List StakePoolOwner :=
  (stakePoolOwners db).filter fun o => row.hashId = o.poolHashId

/-- The array relationship `relays`: `update_id` on both sides. -/
def relays (row : StakePool) : List PoolRelayRecord :=
  db.poolRelay.filter fun r => row.updateId = r.updateId

def Declares (updateId : Nat) (hash : String) : Prop :=
  ∃ o ∈ db.poolOwner, o.poolUpdateId = updateId ∧ ∃ a ∈ db.stakeAddress, a.id = o.addrId ∧ a.hashRaw = hash

structure OwnersShown (row : StakePool) : Prop where
  each_once : ((owners db row).map StakePoolOwner.hash).Nodup
  declared : ∀ hash, hash ∈ (owners db row).map StakePoolOwner.hash ↔ Declares db row.updateId hash

def RelaysShown (row : StakePool) : Prop :=
  ∀ r, r ∈ relays db row ↔ r ∈ db.poolRelay ∧ r.updateId = row.updateId

/-- An address has one row, and an update names an owner once. -/
structure OwnersConsistent : Prop extends Consistent (toPools db) where
  address_hash : (db.stakeAddress.map HashedAddress.hashRaw).Nodup
  owner_once : (db.poolOwner.map fun o => (o.addrId, o.poolUpdateId)).Nodup

variable {db}

theorem OwnersConsistent.addressIds (h : OwnersConsistent db) :
    (db.stakeAddress.map fun a => a.id).Nodup := by
  have hid := h.address_id
  rwa [toPools, List.map_map] at hid

theorem mem_declaredOwners (p : DeclaredOwner) :
    p ∈ declaredOwners db ↔ p.1.1 ∈ db.poolOwner ∧ p.1.2 ∈ db.stakeAddress ∧ p.2 ∈ db.poolUpdate ∧
      p.1.2.id = p.1.1.addrId ∧ p.1.1.poolUpdateId = p.2.id := by
  rw [declaredOwners, withAddress, mem_innerJoin_innerJoin, decide_eq_true_eq, decide_eq_true_eq]

theorem owners_hashes (row : StakePool) :
    (owners db row).map StakePoolOwner.hash =
      ((declaredOwners db).filter fun p => row.hashId = p.2.hashId).map fun p => p.1.2.hashRaw := by
  rw [owners, stakePoolOwners, List.filter_map, List.map_map]
  rfl

theorem mem_owners (row : StakePool) (hash : String) :
    hash ∈ (owners db row).map StakePoolOwner.hash ↔
      ∃ u ∈ db.poolUpdate, u.hashId = row.hashId ∧ Declares db u.id hash := by
  rw [owners_hashes, List.mem_map]
  constructor
  · rintro ⟨p, hp, rfl⟩
    obtain ⟨hp, hpool⟩ := List.mem_filter.mp hp
    obtain ⟨ho, ha, hu, haddress, hupdate⟩ := (mem_declaredOwners p).mp hp
    exact ⟨p.2, hu, (of_decide_eq_true hpool).symm, p.1.1, ho, hupdate, p.1.2, ha, haddress, rfl⟩
  · rintro ⟨u, hu, hpool, o, ho, hupdate, a, ha, haddress, rfl⟩
    have hp := (mem_declaredOwners ((o, a), u)).mpr ⟨ho, ha, hu, haddress, hupdate⟩
    exact ⟨((o, a), u), List.mem_filter.mpr ⟨hp, decide_eq_true hpool.symm⟩, rfl⟩

theorem declaredOwners_keys (h : OwnersConsistent db) :
    ((declaredOwners db).map fun p => (p.1.1.addrId, p.1.1.poolUpdateId)).Nodup := by
  have haddress : ((withAddress db).map Prod.fst).Sublist db.poolOwner :=
    innerJoin_sublist fun o _ => countP_key h.addressIds o.addrId
  have hupdate : ((declaredOwners db).map Prod.fst).Sublist (withAddress db) :=
    innerJoin_sublist fun p _ => countP_key_symm h.update_id p.1.poolUpdateId
  have hall := ((hupdate.map Prod.fst).trans haddress).map fun o => (o.addrId, o.poolUpdateId)
  simp only [List.map_map] at hall
  exact h.owner_once.sublist hall

theorem update_of_row (h : Consistent (toPools db)) {row : StakePool} (hrow : row ∈ stakePools (toPools db)) :
    ∃ u ∈ db.poolUpdate, u.id = row.updateId ∧ u.hashId = row.hashId := by
  have hid : row.updateId ∈ rowsOf (toPools db) row.hashId :=
    List.mem_map.mpr ⟨row, List.mem_filter.mpr ⟨hrow, decide_eq_true rfl⟩, rfl⟩
  obtain ⟨p, hp, hpool, hid, -⟩ := (mem_rowsOf h _ _).mp hid
  exact ⟨p.1.1, ((mem_placedUpdates p).mp hp).1, hid, hpool⟩

theorem relays_shown (row : StakePool) : RelaysShown db row := by
  intro r
  rw [relays, List.mem_filter, decide_eq_true_eq, eq_comm (a := row.updateId)]

theorem owners_nodup (h : OwnersConsistent db) {row : StakePool}
    (honly : ∀ u ∈ db.poolUpdate, u.hashId = row.hashId → ∀ hash, Declares db u.id hash →
      u.id = row.updateId) :
    ((owners db row).map StakePoolOwner.hash).Nodup := by
  have hkeys := declaredOwners_keys h
  rw [owners_hashes]
  apply List.Nodup.map_on _ ((List.Nodup.of_map _ hkeys).filter _)
  intro p hp q hq hhash
  have hof : ∀ r ∈ (declaredOwners db).filter (fun r => row.hashId = r.2.hashId),
      r.1.1.poolUpdateId = row.updateId := by
    intro r hr
    obtain ⟨hr, hpool⟩ := List.mem_filter.mp hr
    obtain ⟨ho, ha, hu, haddress, hupdate⟩ := (mem_declaredOwners r).mp hr
    rw [hupdate]
    exact honly r.2 hu (of_decide_eq_true hpool).symm r.1.2.hashRaw
      ⟨r.1.1, ho, hupdate, r.1.2, ha, haddress, rfl⟩
  have hpq : p.1.1.poolUpdateId = q.1.1.poolUpdateId := (hof p hp).trans (hof q hq).symm
  obtain ⟨-, ha, -, haddress, -⟩ := (mem_declaredOwners p).mp (List.mem_of_mem_filter hp)
  obtain ⟨-, ha', -, haddress', -⟩ := (mem_declaredOwners q).mp (List.mem_of_mem_filter hq)
  have hsame : p.1.2 = q.1.2 := eq_of_key h.address_hash ha ha' hhash
  apply eq_of_key hkeys (List.mem_of_mem_filter hp) (List.mem_of_mem_filter hq)
  rw [← haddress, ← haddress', hsame, hpq]

/-- A pool is shown with the owners of the update shown exactly when none of its
other updates declares an owner. -/
theorem owners_shown_iff (h : OwnersConsistent db) {row : StakePool} (hrow : row ∈ stakePools (toPools db)) :
    RelaysShown db row ∧ (OwnersShown db row ↔ ∀ u ∈ db.poolUpdate, u.hashId = row.hashId →
      ∀ hash, Declares db u.id hash → u.id = row.updateId) := by
  obtain ⟨shown, hshown, hid, hpool⟩ := update_of_row h.toConsistent hrow
  refine ⟨relays_shown row, fun howners => ?_, fun honly => ?_⟩
  · intro u hu hupool hash hdeclares
    have hreached := (mem_owners row hash).mpr ⟨u, hu, hupool, hdeclares⟩
    obtain ⟨o', ho', hupdate', a', ha', haddress', hhash'⟩ := (howners.declared hash).mp hreached
    obtain ⟨o, ho, hupdate, a, ha, haddress, hhash⟩ := hdeclares
    have hmem : ((o, a), u) ∈ (declaredOwners db).filter fun p => row.hashId = p.2.hashId :=
      List.mem_filter.mpr ⟨(mem_declaredOwners _).mpr ⟨ho, ha, hu, haddress, hupdate⟩,
        decide_eq_true hupool.symm⟩
    have hmem' : ((o', a'), shown) ∈ (declaredOwners db).filter fun p => row.hashId = p.2.hashId :=
      List.mem_filter.mpr ⟨(mem_declaredOwners _).mpr ⟨ho', ha', hshown, haddress', hupdate'.trans hid.symm⟩,
        decide_eq_true hpool.symm⟩
    have honce := howners.each_once
    rw [owners_hashes] at honce
    have hsame := eq_of_key honce hmem hmem' (hhash.trans hhash'.symm)
    rw [(Prod.mk.inj hsame).2, hid]
  · refine ⟨owners_nodup h honly, fun hash => ?_⟩
    rw [mem_owners]
    constructor
    · rintro ⟨u, hu, hupool, hdeclares⟩
      rwa [← honly u hu hupool hash hdeclares]
    · intro hdeclares
      exact ⟨shown, hshown, hpool, hid ▸ hdeclares⟩

def registered : OwnerTables :=
  { block := [⟨⟨1, "\\xb1", some 1, some 10⟩, 200⟩, ⟨⟨2, "\\xb2", some 2, some 30⟩, 220⟩]
    tx := [⟨⟨1, "\\xa1", 1, some 3⟩, 0⟩, ⟨⟨2, "\\xa2", 2, some 3⟩, 0⟩]
    poolUpdate := [⟨1, 5, 0, 1000, 1, none, 0, 340, 1, some 500⟩]
    poolMetadataRef := []
    stakeAddress := [⟨⟨1, "stake1"⟩, "\\xe1"⟩, ⟨⟨2, "stake2"⟩, "\\xe2"⟩, ⟨⟨3, "stake3"⟩, "\\xe3"⟩]
    poolHash := [⟨5, "\\x05", "pool1"⟩]
    poolOwner := [⟨1, 1, 1⟩, ⟨2, 2, 1⟩]
    poolRelay := [] }

def registeredRow : StakePool :=
  ⟨340, "\\x05", "pool1", 5, 1, 0, none, some 1, 1, 1000, "stake1", none, some 500⟩

theorem registered_owners_shown :
    RelaysShown registered registeredRow ∧ (OwnersShown registered registeredRow ↔
      ∀ u ∈ registered.poolUpdate, u.hashId = registeredRow.hashId →
        ∀ hash, Declares registered u.id hash → u.id = registeredRow.updateId) := by
  have hconsistent : OwnersConsistent registered := by
    refine { toConsistent := ?_, address_hash := by decide, owner_once := by decide }
    constructor <;> decide
  exact owners_shown_iff hconsistent (by decide)

def ownerReplaced : OwnerTables :=
  { registered with
    poolUpdate := registered.poolUpdate ++ [⟨2, 5, 0, 1000, 1, none, 0, 340, 2, none⟩]
    poolOwner := registered.poolOwner ++ [⟨3, 2, 2⟩, ⟨4, 3, 2⟩] }

def replacedRow : StakePool :=
  ⟨340, "\\x05", "pool1", 5, 2, 0, none, some 2, 2, 1000, "stake1", none, none⟩

theorem ownerReplaced_all_owners :
    OwnersConsistent ownerReplaced ∧ stakePools (toPools ownerReplaced) = [replacedRow] ∧
      (owners ownerReplaced replacedRow).map StakePoolOwner.hash = ["\\xe1", "\\xe2", "\\xe2", "\\xe3"] ∧
      ¬ OwnersShown ownerReplaced replacedRow := by
  have hhashes : (owners ownerReplaced replacedRow).map StakePoolOwner.hash =
      ["\\xe1", "\\xe2", "\\xe2", "\\xe3"] := by decide
  refine ⟨?_, by decide, hhashes, fun hshown => ?_⟩
  · refine { toConsistent := ?_, address_hash := by decide, owner_once := by decide }
    constructor <;> decide
  · have honce := hshown.each_once
    rw [hhashes] at honce
    exact absurd honce (by decide)

end CardanoGraphql.PoolOwners
