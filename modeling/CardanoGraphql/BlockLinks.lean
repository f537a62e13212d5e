import CardanoGraphql.TransactionViews

namespace CardanoGraphql.BlockLinks

open DbSync SqlJoin TransactionViews

variable (db : LedgerTables)

def nextBlock (row : BlockRow) : Option BlockRow :=
  row.nextBlockHash.bind fun hash => (blockRows db).find? fun r => decide (r.hash = hash)

def previousBlock (row : BlockRow) : Option BlockRow :=
  row.previousBlockHash.bind fun hash => (blockRows db).find? fun r => decide (r.hash = hash)

def previousOf (b : LedgerBlock) : Option LedgerBlock :=
  db.block.find? fun previous => decide (b.previousId = some previous.id)

def nextOf (b : LedgerBlock) : Option LedgerBlock :=
  db.block.find? fun next => decide (next.previousId = some b.id)

def leaderOf (b : LedgerBlock) : Option SlotLeaderRecord :=
  db.slotLeader.find? fun l => decide (b.slotLeaderId = some l.id)

def rowOf (b : LedgerBlock) : BlockRow :=
  { fees := feesOf db b
    hash := b.hash
    number := b.blockNo
    previousBlockHash := (previousOf db b).map fun previous => previous.hash
    nextBlockHash := (nextOf db b).map fun next => next.hash
    slotNo := b.slotNo
    slotLeaderId := (leaderOf db b).map SlotLeaderRecord.id
    poolHashId := (leaderOf db b).bind SlotLeaderRecord.poolHashId }

variable {db}

theorem countP_reference {α : Type} {key : α → Nat} {xs : List α} (h : (xs.map key).Nodup) (r : Option Nat) :
    xs.countP (fun a => decide (r = some (key a))) ≤ 1 := by
  cases r with
  | none => simp
  | some k =>
      simp only [Option.some.injEq]
      exact countP_key_symm h k

theorem blockRows_map (hid : (db.block.map fun b => b.id).Nodup)
    (hleader : (db.slotLeader.map SlotLeaderRecord.id).Nodup)
    (hnext : ∀ b ∈ db.block, db.block.countP (fun next => decide (next.previousId = some b.id)) ≤ 1) :
    blockRows db = db.block.map (rowOf db) := by
  rw [blockRows, leftJoin_find, leftJoin_find, leftJoin_find]
  · simp only [List.map_map]
    rfl
  · intro b _
    exact countP_reference hid b.previousId
  · intro p hp
    exact hnext p.1 (fst_mem_leftJoin hp)
  · intro p _
    exact countP_reference hleader p.1.1.slotLeaderId

/-- A block is shown once for each block that names it as its predecessor, and once if none
does. -/
theorem block_shown (hid : (db.block.map fun b => b.id).Nodup) (hhash : (db.block.map fun b => b.hash).Nodup)
    (hleader : (db.slotLeader.map SlotLeaderRecord.id).Nodup) {b : LedgerBlock} (hb : b ∈ db.block) :
    (blockRows db).countP (fun row => decide (row.hash = b.hash)) =
      max 1 (db.block.countP fun next => decide (next.previousId = some b.id)) := by
  have hprevious : leftJoin (fun (b : LedgerBlock) previous => decide (b.previousId = some previous.id))
      db.block db.block = db.block.map fun b => (b, previousOf db b) :=
    leftJoin_find fun b _ => countP_reference hid b.previousId
  have hcount := countP_leftJoin
    (fun (p : LedgerBlock × Option LedgerBlock) (next : LedgerBlock) => decide (next.previousId = some p.1.id))
    (db.block.map fun b => (b, previousOf db b)) db.block (fun p => decide (p.1.hash = b.hash))
  have hfilter : (db.block.map fun b => (b, previousOf db b)).filter (fun p => decide (p.1.hash = b.hash)) =
      [(b, previousOf db b)] := by
    rw [List.filter_map]
    exact congrArg (List.map _) (filter_key hhash hb)
  rw [hfilter, List.map_singleton, List.sum_singleton] at hcount
  rw [blockRows, hprevious, leftJoin_find fun p _ => countP_reference hleader p.1.1.slotLeaderId,
    List.countP_map, List.countP_map, ← hcount]
  rfl

/-- The blocks of a chain, whatever their order in the table. -/
structure Linked (db : LedgerTables) (chain : List LedgerBlock) : Prop where
  stored : db.block.Perm chain
  ids : (chain.map fun b => b.id).Nodup
  hashes : (chain.map fun b => b.hash).Nodup
  leaders : (db.slotLeader.map SlotLeaderRecord.id).Nodup
  linked : chain.IsChain fun a b => b.previousId = some a.id
  first : ∀ a ∈ chain.head?, ∀ b ∈ chain, a.previousId ≠ some b.id

section Chain

variable {chain : List LedgerBlock} (h : Linked db chain)

include h

theorem previous_iff {i j : Nat} {a b : LedgerBlock} (ha : chain[i]? = some a) (hb : chain[j]? = some b) :
    b.previousId = some a.id ↔ j = i + 1 := by
  constructor
  · intro hprevious
    cases j with
    | zero =>
        have hhead : b ∈ chain.head? := by rw [List.head?_eq_getElem?, hb]; rfl
        exact absurd hprevious (h.first b hhead a (List.mem_of_getElem? ha))
    | succ j =>
        obtain ⟨hj, hbj⟩ := List.getElem?_eq_some_iff.mp hb
        obtain ⟨hi, hai⟩ := List.getElem?_eq_some_iff.mp ha
        have hlink := List.isChain_iff_getElem.mp h.linked j hj
        rw [hbj, hprevious, Option.some.injEq, ← hai] at hlink
        have hblock : chain[i] = chain[j] := eq_of_key h.ids (List.getElem_mem _) (List.getElem_mem _) hlink
        rw [(List.Nodup.of_map _ h.ids).getElem_inj_iff.mp hblock]
  · rintro rfl
    obtain ⟨hj, hbj⟩ := List.getElem?_eq_some_iff.mp hb
    obtain ⟨hi, hai⟩ := List.getElem?_eq_some_iff.mp ha
    have hlink := List.isChain_iff_getElem.mp h.linked i hj
    rw [hbj, hai] at hlink
    exact hlink

theorem blocks_find {p : LedgerBlock → Bool} {j : Nat}
    (hp : ∀ k b, chain[k]? = some b → (p b = true ↔ k = j)) : db.block.find? p = chain[j]? := by
  cases hb : chain[j]? with
  | some b =>
      apply find?_of_unique (h.stored.mem_iff.mpr (List.mem_of_getElem? hb)) ((hp j b hb).mpr rfl)
      intro c hc hpc
      obtain ⟨k, hk⟩ := List.mem_iff_getElem?.mp (h.stored.mem_iff.mp hc)
      rw [(hp k c hk).mp hpc, hb] at hk
      exact (Option.some.inj hk).symm
  | none =>
      rw [List.find?_eq_none]
      intro c hc hpc
      obtain ⟨k, hk⟩ := List.mem_iff_getElem?.mp (h.stored.mem_iff.mp hc)
      rw [(hp k c hk).mp hpc, hb] at hk
      cases hk

theorem nextOf_eq {i : Nat} {b : LedgerBlock} (hb : chain[i]? = some b) : nextOf db b = chain[i + 1]? := by
  apply blocks_find h
  intro k c hc
  rw [decide_eq_true_iff, previous_iff h hb hc]

theorem previousOf_eq {i : Nat} {b : LedgerBlock} (hb : chain[i]? = some b) :
    previousOf db b = if i = 0 then none else chain[i - 1]? := by
  cases i with
  | zero =>
      rw [if_pos rfl, previousOf, List.find?_eq_none]
      intro c hc hprevious
      obtain ⟨k, hk⟩ := List.mem_iff_getElem?.mp (h.stored.mem_iff.mp hc)
      exact absurd ((previous_iff h hk hb).mp (of_decide_eq_true hprevious)) (Nat.succ_ne_zero k).symm
  | succ i =>
      rw [if_neg (Nat.succ_ne_zero i)]
      apply blocks_find h
      intro k c hc
      rw [decide_eq_true_iff, previous_iff h hc hb]
      omega

theorem rows_of_chain : blockRows db = db.block.map (rowOf db) := by
  have hid : (db.block.map fun b => b.id).Nodup := (h.stored.map _).nodup_iff.mpr h.ids
  refine blockRows_map hid h.leaders fun b hb => ?_
  obtain ⟨i, hi⟩ := List.mem_iff_getElem?.mp (h.stored.mem_iff.mp hb)
  rw [h.stored.countP_eq]
  apply countP_unique (List.Nodup.of_map _ h.ids)
  have hindex : ∀ c ∈ chain, decide (c.previousId = some b.id) = true → chain[i + 1]? = some c := by
    intro c hc hprevious
    obtain ⟨k, hk⟩ := List.mem_iff_getElem?.mp hc
    rw [← (previous_iff h hi hk).mp (of_decide_eq_true hprevious), hk]
  intro c hc d hd hprevious hprevious'
  have hsame := hindex c hc hprevious
  rw [hindex d hd hprevious'] at hsame
  exact (Option.some.inj hsame).symm

theorem row_of_hash {i : Nat} {b : LedgerBlock} (hb : chain[i]? = some b) :
    (blockRows db).find? (fun r => decide (r.hash = b.hash)) = some (rowOf db b) := by
  have hmem : b ∈ db.block := h.stored.mem_iff.mpr (List.mem_of_getElem? hb)
  have hhash : (db.block.map fun b => b.hash).Nodup := (h.stored.map _).nodup_iff.mpr h.hashes
  rw [rows_of_chain h]
  refine find?_of_unique (a := rowOf db b) (List.mem_map_of_mem hmem) (decide_eq_true_iff.mpr rfl) ?_
  intro r hr hrow
  obtain ⟨c, hc, rfl⟩ := List.mem_map.mp hr
  have hcb : c = b := eq_of_key hhash hc hmem (of_decide_eq_true hrow)
  rw [hcb]

theorem linked_row (o : Option LedgerBlock) (ho : ∀ b ∈ o, b ∈ chain) :
    ((o.map fun b => b.hash).bind fun hash => (blockRows db).find? fun r => decide (r.hash = hash)) =
      o.map (rowOf db) := by
  cases o with
  | none => rfl
  | some b =>
      obtain ⟨i, hi⟩ := List.mem_iff_getElem?.mp (ho b rfl)
      exact row_of_hash h hi

/-- Each block is shown once, and the relationships of its row lead to the rows of its
neighbours in the chain. -/
theorem rows_follow_chain :
    ∃ rows : List BlockRow, rows.Perm (blockRows db) ∧ rows.map BlockRow.hash = chain.map (fun b => b.hash) ∧
      ∀ i row, rows[i]? = some row →
        nextBlock db row = rows[i + 1]? ∧ previousBlock db row = if i = 0 then none else rows[i - 1]? := by
  refine ⟨chain.map (rowOf db), ?_, ?_, ?_⟩
  · rw [rows_of_chain h]
    exact (h.stored.map _).symm
  · rw [List.map_map]
    rfl
  · intro i row hrow
    rw [List.getElem?_map] at hrow
    obtain ⟨b, hb, rfl⟩ := Option.map_eq_some_iff.mp hrow
    constructor
    · rw [nextBlock, rowOf, nextOf_eq h hb, List.getElem?_map]
      exact linked_row h _ fun c hc => List.mem_of_getElem? hc
    · rw [previousBlock, rowOf, previousOf_eq h hb]
      split
      next => rfl
      next =>
        rw [List.getElem?_map]
        exact linked_row h _ fun c hc => List.mem_of_getElem? hc

end Chain

def threeBlocks : LedgerTables :=
  { block := [⟨⟨2, "c", some 2, some 9⟩, some 1, none⟩, ⟨⟨0, "a", some 0, some 1⟩, none, none⟩,
      ⟨⟨1, "b", some 1, some 4⟩, some 0, some 5⟩]
    slotLeader := [⟨5, none⟩]
    tx := []
    txOut := []
    txIn := [] }

def threeChain : List LedgerBlock :=
  [⟨⟨0, "a", some 0, some 1⟩, none, none⟩, ⟨⟨1, "b", some 1, some 4⟩, some 0, some 5⟩,
    ⟨⟨2, "c", some 2, some 9⟩, some 1, none⟩]

theorem threeBlocks_follow :
    ∃ rows : List BlockRow, rows.Perm (blockRows threeBlocks) ∧
      rows.map BlockRow.hash = threeChain.map (fun b => b.hash) ∧
      ∀ i row, rows[i]? = some row → nextBlock threeBlocks row = rows[i + 1]? ∧
        previousBlock threeBlocks row = if i = 0 then none else rows[i - 1]? :=
  rows_follow_chain ⟨by decide, by decide, by decide, by decide, by decide, by decide⟩

theorem threeBlocks_shown :
    (blockRows threeBlocks).countP (fun row => decide (row.hash = "a")) =
      max 1 (threeBlocks.block.countP fun next => decide (next.previousId = some 0)) :=
  block_shown (b := ⟨⟨0, "a", some 0, some 1⟩, none, none⟩) (by decide) (by decide) (by decide) (by decide)

end CardanoGraphql.BlockLinks
