import Mathlib.Data.List.Induction
import CardanoGraphql.SaveAsset

namespace CardanoGraphql.FailedInserts

open HasuraBackgroundClient KeyedTable ChainFollower SaveAsset

variable (env : Externals)

/-- At the moment `requestNext` is called, every asset the block mints is a row or
a cache entry. -/
def MintsHeld (block : Block) (tip : Tip) (s : Follower) : Prop :=
  ∃ t, exec (rollForward env block tip) s = { t with trace := t.trace ++ [.requestNext] } ∧
    ∀ b ∈ block.body, ∀ m ∈ mintsOf b, Named t (mintedId m)

def deletedSlot : PointOrOrigin → Nat
  | .origin => 0
  | .point p => p.slot

def RequestsAfterDelete (point : PointOrOrigin) (s : Follower) : Prop :=
  ∃ new, (exec (rollBackward env point) s).trace = s.trace ++ new ∧
    (.requestNext ∈ new → new = [.deleted (deletedSlot point), .requestNext] ∧
      (exec (rollBackward env point) s).assets = deleteAssetsAfterSlot s.assets (deletedSlot point))

def Throws (b : BlockBody) (tip : Tip) (m : String × String) (s : Follower) : Prop :=
  (call (saveAsset env m.1 (some m.2) b tip) s).1 ≠ .ok ()

/-- Every mint after the first whose insert fails is of an asset that was held
before the block or that an earlier mint of the block has already pushed. -/
def FailureHarmless (b : BlockBody) (tip : Tip) (s : Follower) : Prop :=
  ∀ before m after, mintsOf b = before ++ m :: after →
    (call (saveAll env b tip before) s).1 = .ok () →
    Throws env b tip m (exec (saveAll env b tip before) s) →
    ∀ m' ∈ after, Named s (mintedId m') ∨ mintedId m' ∈ (before ++ [m]).map mintedId

theorem named_saveAsset (b : BlockBody) (tip : Tip) (m : String × String) (s : Follower) (id : String) :
    Named (exec (saveAsset env m.1 (some m.2) b tip) s) id ↔ Named s id ∨ id = mintedId m := by
  rw [named_iff_settled, saves_settled env (saveAsset_saves env m.1 (some m.2) b tip s),
    mem_keys_insertAbsent, ← named_iff_settled]
  simp [mintedId, cacheEntry]

theorem exec_saveAll_append (b : BlockBody) (tip : Tip) (ms ns : List (String × String)) (s : Follower)
    (hok : (call (saveAll env b tip ms) s).1 = .ok ()) :
    call (saveAll env b tip (ms ++ ns)) s = call (saveAll env b tip ns) (exec (saveAll env b tip ms) s) := by
  rw [call_saveAll_append, exec]
  rcases hc : call (saveAll env b tip ms) s with ⟨r, t⟩
  rw [hc] at hok
  rw [show r = .ok () from hok]

theorem named_saveAll (b : BlockBody) (tip : Tip) (mints : List (String × String)) (s : Follower)
    (hok : (call (saveAll env b tip mints) s).1 = .ok ()) (id : String) :
    Named (exec (saveAll env b tip mints) s) id ↔ Named s id ∨ id ∈ mints.map mintedId := by
  induction mints generalizing s with
  | nil => simp [saveAll, exec]
  | cons m ms ih =>
      have hm := named_saveAsset env b tip m s id
      rw [exec] at hm ⊢
      rw [call_saveAll_cons] at hok ⊢
      rcases hc : call (saveAsset env m.1 (some m.2) b tip) s with ⟨r, t⟩
      rw [hc] at hok hm
      cases r with
      | error e => cases hok
      | ok u =>
          have ht := ih t hok
          rw [exec] at ht
          rw [ht, hm, List.map_cons, List.mem_cons, or_assoc]

theorem first_throw (b : BlockBody) (tip : Tip) (mints : List (String × String)) (s : Follower)
    (hthrow : (call (saveAll env b tip mints) s).1 ≠ .ok ()) :
    ∃ before m after, mints = before ++ m :: after ∧
      (call (saveAll env b tip before) s).1 = .ok () ∧
      Throws env b tip m (exec (saveAll env b tip before) s) := by
  induction mints using List.reverseRecOn with
  | nil => exact absurd rfl hthrow
  | append_singleton ms m ih =>
      by_cases hok : (call (saveAll env b tip ms) s).1 = .ok ()
      · refine ⟨ms, m, [], rfl, hok, fun hm => hthrow ?_⟩
        rw [exec_saveAll_append env b tip ms [m] s hok, call_saveAll_cons]
        rcases hc : call (saveAsset env m.1 (some m.2) b tip) (exec (saveAll env b tip ms) s) with ⟨r, t⟩
        rw [hc] at hm
        rw [show r = .ok () from hm]
        rfl
      · obtain ⟨before, p, after, heq, hbefore, hp⟩ := ih hok
        exact ⟨before, p, after ++ [m], by rw [heq, List.append_assoc, List.cons_append], hbefore, hp⟩

theorem saveAll_stops (b : BlockBody) (tip : Tip) (before : List (String × String)) (m : String × String)
    (after : List (String × String)) (s : Follower)
    (hok : (call (saveAll env b tip before) s).1 = .ok ())
    (hthrow : Throws env b tip m (exec (saveAll env b tip before) s)) :
    exec (saveAll env b tip (before ++ m :: after)) s =
      exec (saveAsset env m.1 (some m.2) b tip) (exec (saveAll env b tip before) s) := by
  rw [exec, exec_saveAll_append env b tip before (m :: after) s hok, call_saveAll_cons]
  rw [Throws] at hthrow
  conv_rhs => rw [exec]
  rcases hc : call (saveAsset env m.1 (some m.2) b tip) (exec (saveAll env b tip before) s) with ⟨r, t⟩
  cases r with
  | error e => rfl
  | ok u => rw [hc] at hthrow; exact absurd rfl hthrow

theorem saveAll_held_iff (b : BlockBody) (tip : Tip) (s : Follower) :
    (∀ m ∈ mintsOf b, Named (exec (saveAll env b tip (mintsOf b)) s) (mintedId m)) ↔
      FailureHarmless env b tip s := by
  have hstop : ∀ before m after, mintsOf b = before ++ m :: after →
      (call (saveAll env b tip before) s).1 = .ok () →
      Throws env b tip m (exec (saveAll env b tip before) s) →
      ∀ id, Named (exec (saveAll env b tip (mintsOf b)) s) id ↔
        Named s id ∨ id ∈ (before ++ [m]).map mintedId := by
    intro before m after heq hok hthrow id
    rw [heq, saveAll_stops env b tip before m after s hok hthrow, named_saveAsset,
      named_saveAll env b tip before s hok, List.map_append, List.mem_append, List.map_singleton,
      List.mem_singleton, or_assoc]
  constructor
  · intro h before m after heq hok hthrow m' hm'
    exact (hstop before m after heq hok hthrow _).mp (h m' (by rw [heq]; simp [hm']))
  · intro h m hm
    by_cases hok : (call (saveAll env b tip (mintsOf b)) s).1 = .ok ()
    · exact (named_saveAll env b tip (mintsOf b) s hok _).mpr (Or.inr (List.mem_map_of_mem hm))
    · obtain ⟨before, p, after, heq, hbefore, hp⟩ := first_throw env b tip (mintsOf b) s hok
      rw [hstop before p after heq hbefore hp]
      have hcase : m ∈ before ++ [p] ∨ m ∈ after := by
        rw [heq] at hm
        simpa [or_assoc] using hm
      rcases hcase with hin | hin
      · exact Or.inr (List.mem_map_of_mem hin)
      · exact h before p after heq hbefore hp m hin

theorem rollBackward_deletes (point : PointOrOrigin) (s : Follower) :
    exec (rollBackward env point) s =
      match call (deleteAssets env (deletedSlot point)) s with
        | (.ok _, t) => { t with trace := t.trace ++ [.requestNext] }
        | (.error _, t) => t := by
  cases point with
  | origin =>
      rw [exec, rollBackward, call_bind, deletedSlot]
      rcases call (deleteAssets env 0) s with ⟨r, t⟩
      cases r <;> rfl
  | point p =>
      rw [exec, rollBackward, call_bind, deletedSlot]
      rcases call (deleteAssets env p.slot) s with ⟨r, t⟩
      cases r <;> rfl

theorem requests_after_delete (point : PointOrOrigin) (s : Follower) :
    RequestsAfterDelete env point s := by
  rw [RequestsAfterDelete, rollBackward_deletes]
  cases hc : env.deleteCall s.deleteCalls with
  | succeeds =>
      simp only [call, deleteAssets, ExceptT.run, hc, Follower.deleteAfter]
      exact ⟨[.deleted (deletedSlot point), .requestNext], by simp, fun _ => ⟨rfl, trivial⟩⟩
  | failsUnapplied =>
      simp only [call, deleteAssets, ExceptT.run, hc]
      exact ⟨[], by simp, fun h => absurd h (by simp)⟩
  | failsApplied =>
      simp only [call, deleteAssets, ExceptT.run, hc, Follower.deleteAfter]
      exact ⟨[.deleted (deletedSlot point)], rfl, fun h => absurd h (by simp)⟩

/-- The block's mints are all held when the next block is requested exactly when the
first failed insert, if any, skips no asset that is not held already. A rollback
always deletes first. -/
theorem mints_held_iff (block : Block) (tip : Tip) (s : Follower) :
    (MintsHeld env block tip s ∧ ∀ point t, RequestsAfterDelete env point t) ↔
      ∀ b ∈ block.body, FailureHarmless env b tip s := by
  have hheld : MintsHeld env block tip s ↔
      ∀ b ∈ block.body, ∀ m ∈ mintsOf b, Named (exec (saveBlock env block tip) s) (mintedId m) := by
    constructor
    · rintro ⟨t, ht, h⟩ b hb m hm
      have ha : (exec (saveBlock env block tip) s).assets = t.assets ∧
          (exec (saveBlock env block tip) s).cacheAssets = t.cacheAssets := by
        rw [exec_rollForward] at ht
        have hassets := congrArg Follower.assets ht
        have hcache := congrArg Follower.cacheAssets ht
        exact ⟨hassets, hcache⟩
      rw [Named, ha.1, ha.2]
      exact h b hb m hm
    · intro h
      exact ⟨_, exec_rollForward env block tip s, h⟩
  rw [hheld, and_iff_left (fun point t => requests_after_delete env point t), exec_saveBlock]
  cases block.body with
  | none => simp
  | some b => simpa using saveAll_held_iff env b tip s

def firstInsertFails : Externals :=
  { quiet with insertCall := fun n => if n = 0 then .failsUnapplied else .succeeds }

theorem second_mint_skipped :
    ¬ MintsHeld firstInsertFails (.praos (mintBlock 10 "a1" ["61", "62"])) (.tip 10 "a1")
      (start firstInsertFails []) := by
  rintro ⟨t, ht, h⟩
  have hnamed := h _ rfl (policy, "62") (by decide +kernel)
  have hassets := congrArg Follower.assets ht
  have hcache := congrArg Follower.cacheAssets ht
  have hnot : ¬ Named (exec (rollForward firstInsertFails
      (.praos (mintBlock 10 "a1" ["61", "62"])) (.tip 10 "a1")) (start firstInsertFails []))
      (mintedId (policy, "62")) := by
    unfold Named
    decide +kernel
  rw [Named, hassets, hcache] at hnot
  exact hnot hnamed

end CardanoGraphql.FailedInserts
