import CardanoGraphql.Fallible
import CardanoGraphql.ChainFollower

namespace CardanoGraphql.SaveAsset

open HasuraBackgroundClient KeyedTable ChainFollower

/-- The arguments of one call of `saveAsset`. -/
structure SaveCall where
  policyId : String
  assetName : Option String
  block : BlockBody
  tip : Tip
deriving DecidableEq, Repr

variable (env : Externals)

def SaveCall.entry (c : SaveCall) : AssetWithoutTokens :=
  cacheEntry env c.policyId c.assetName c.block

def save (s : Follower) (c : SaveCall) : Follower :=
  exec (saveAsset env c.policyId c.assetName c.block c.tip) s

def due (tipReached : Bool) (s : Follower) : Bool :=
  tipReached || decide (s.cacheAssets.length > 1000) ||
    decide (env.now s.clockReads - s.cacheTimer > 60 * 1000)

/-- All a call of `saveAsset` can do: keep the entry in the cache, or make the next
`insertAssets` call and meet one of its outcomes. -/
inductive Saves (asset : AssetWithoutTokens) (s : Follower) :
    Bool → Except String Unit → Follower → Prop
  | cached (timer : Int) (reads : Nat) :
      Saves asset s false (.ok ()) { s.push asset with cacheTimer := timer, clockReads := reads }
  | flushed (timer : Int) (reads : Nat) (t : Follower)
      (ht : t = { s.push asset with
        cacheTimer := timer, clockReads := reads, insertCalls := s.insertCalls + 1 })
      (hcall : env.insertCall s.insertCalls = .succeeds) :
      Saves asset s true (.ok ()) (t.insertCache.publish (insertedAssets t.assets t.cacheAssets))
  | unapplied (timer : Int) (reads : Nat) (t : Follower)
      (ht : t = { s.push asset with
        cacheTimer := timer, clockReads := reads, insertCalls := s.insertCalls + 1 })
      (hcall : env.insertCall s.insertCalls = .failsUnapplied) :
      Saves asset s true (.error "insertAssets") t
  | applied (timer : Int) (reads : Nat) (t : Follower)
      (ht : t = { s.push asset with
        cacheTimer := timer, clockReads := reads, insertCalls := s.insertCalls + 1 })
      (hcall : env.insertCall s.insertCalls = .failsApplied) :
      Saves asset s true (.error "insertAssets") t.insertCache

@[simp] theorem call_dateNow (s : Follower) :
    call (dateNow env) s = (.ok (env.now s.clockReads), { s with clockReads := s.clockReads + 1 }) := rfl

theorem call_insertCache_succeeds (s : Follower) (h : env.insertCall s.insertCalls = .succeeds) :
    call (insertCache env) s = (.ok (insertedAssets s.assets s.cacheAssets),
      { s with insertCalls := s.insertCalls + 1 }.insertCache) := by
  simp only [call, insertCache, ExceptT.run, h]

theorem call_insertCache_failsUnapplied (s : Follower)
    (h : env.insertCall s.insertCalls = .failsUnapplied) :
    call (insertCache env) s = (.error "insertAssets", { s with insertCalls := s.insertCalls + 1 }) := by
  simp only [call, insertCache, ExceptT.run, h]

theorem call_insertCache_failsApplied (s : Follower)
    (h : env.insertCall s.insertCalls = .failsApplied) :
    call (insertCache env) s =
      (.error "insertAssets", { s with insertCalls := s.insertCalls + 1 }.insertCache) := by
  simp only [call, insertCache, ExceptT.run, h]

theorem call_flushDue (tipReached : Bool) (s : Follower) :
    ∃ reads, call (flushDue env tipReached) s = (.ok (due env tipReached s), { s with clockReads := reads }) := by
  cases h : tipReached || decide (s.cacheAssets.length > 1000) with
  | true => exact ⟨s.clockReads, by rw [flushDue, call_bind]; simp only [call_get, h, due]; rfl⟩
  | false =>
      refine ⟨s.clockReads + 1, ?_⟩
      rw [flushDue, call_bind]
      simp only [call_get, h, due, call_bind, call_dateNow, Bool.false_or]
      rfl

theorem saveAsset_saves (policyId : String) (assetName : Option String) (b : BlockBody) (tip : Tip)
    (s : Follower) :
    Saves env (cacheEntry env policyId assetName b) s
      (due env (isTip b tip) (s.push (cacheEntry env policyId assetName b)))
      (call (saveAsset env policyId assetName b tip) s).1
      (exec (saveAsset env policyId assetName b tip) s) := by
  rw [exec]
  obtain ⟨reads, hr⟩ := call_flushDue env (isTip b tip) (s.push (cacheEntry env policyId assetName b))
  cases hd : due env (isTip b tip) (s.push (cacheEntry env policyId assetName b)) with
  | false =>
      have hc : call (saveAsset env policyId assetName b tip) s =
          (.ok (), { s.push (cacheEntry env policyId assetName b) with clockReads := reads }) := by
        simp only [saveAsset, call_bind, call_modify, hr, hd, Bool.false_eq_true, if_false, call_pure]
      rw [hc]
      exact .cached s.cacheTimer reads
  | true =>
      obtain ⟨u, hu⟩ : ∃ u : Follower, u = { s.push (cacheEntry env policyId assetName b) with
        cacheTimer := env.now reads, clockReads := reads + 1 } := ⟨_, rfl⟩
      have hc : call (saveAsset env policyId assetName b tip) s =
          call (insertCache env >>= fun returning => modify (Follower.publish returning)) u := by
        simp only [saveAsset, call_bind, call_modify, hr, hd, if_true, call_dateNow, hu]
      have hn : u.insertCalls = s.insertCalls := by rw [hu]; rfl
      have ht : { u with insertCalls := u.insertCalls + 1 } =
          { s.push (cacheEntry env policyId assetName b) with
            cacheTimer := env.now reads, clockReads := reads + 1, insertCalls := s.insertCalls + 1 } := by
        rw [hu]; rfl
      rw [hc, call_bind]
      cases hcall : env.insertCall s.insertCalls with
      | succeeds =>
          rw [call_insertCache_succeeds env u (hn ▸ hcall)]
          exact .flushed (env.now reads) (reads + 1) _ ht hcall
      | failsUnapplied =>
          rw [call_insertCache_failsUnapplied env u (hn ▸ hcall)]
          exact .unapplied (env.now reads) (reads + 1) _ ht hcall
      | failsApplied =>
          rw [call_insertCache_failsApplied env u (hn ▸ hcall)]
          exact .applied (env.now reads) (reads + 1) _ ht hcall

def beginSave (c : SaveCall) : Handler (Option (List AssetWithoutTokens)) := do
  modify (Follower.push (c.entry env))
  if ← flushDue env (isTip c.block c.tip) then
    let now ← dateNow env
    modify fun s => { s with cacheTimer := now, insertCalls := s.insertCalls + 1 }
    let s ← get
    return some s.cacheAssets
  else return none

def applyInsert (sent : List AssetWithoutTokens) (s : Follower) : Follower :=
  { s with
    assets := insertAssets s.assets sent
    trace := s.trace ++ (insertedAssets s.assets sent).map fun a => .inserted a.assetId }

theorem call_beginSave (c : SaveCall) (s : Follower) :
    ∃ t, call (beginSave env c) s =
        (.ok (if due env (isTip c.block c.tip) (s.push (c.entry env)) then some t.cacheAssets else none), t) ∧
      t.assets = s.assets ∧ t.cacheAssets = s.cacheAssets ++ [c.entry env] ∧ t.trace = s.trace := by
  obtain ⟨reads, hr⟩ := call_flushDue env (isTip c.block c.tip) (s.push (c.entry env))
  simp only [beginSave, call_bind, call_modify, hr]
  cases due env (isTip c.block c.tip) (s.push (c.entry env)) with
  | false => exact ⟨{ s.push (c.entry env) with clockReads := reads }, rfl, rfl, rfl, rfl⟩
  | true =>
      simp only [if_true, call_bind, call_dateNow, call_modify, call_get, call_pure]
      refine ⟨{ s.push (c.entry env) with
        cacheTimer := env.now reads, clockReads := reads + 1, insertCalls := s.insertCalls + 1 }, ?_⟩
      exact ⟨rfl, rfl, rfl, rfl⟩

theorem call_saveAsset (c : SaveCall) (s : Follower) :
    call (saveAsset env c.policyId c.assetName c.block c.tip) s =
      match call (beginSave env c) s with
      | (.ok (some sent), t) =>
          match env.insertCall s.insertCalls with
          | .succeeds => (.ok (), (applyInsert sent t).publish (insertedAssets t.assets sent))
          | .failsUnapplied => (.error "insertAssets", t)
          | .failsApplied => (.error "insertAssets", applyInsert sent t)
      | (.ok none, t) => (.ok (), t)
      | (.error e, t) => (.error e, t) := by
  obtain ⟨reads, hr⟩ := call_flushDue env (isTip c.block c.tip) (s.push (c.entry env))
  have he : cacheEntry env c.policyId c.assetName c.block = c.entry env := rfl
  have hn : (s.push (c.entry env)).insertCalls = s.insertCalls := rfl
  simp only [beginSave, saveAsset, call_bind, call_modify, he, hr]
  cases due env (isTip c.block c.tip) (s.push (c.entry env)) with
  | false => rfl
  | true =>
      simp only [if_true, call_bind, call_dateNow, call_modify, call_get, call_pure]
      cases hcall : env.insertCall s.insertCalls with
      | succeeds =>
          rw [call_insertCache_succeeds env _ (hn ▸ hcall)]
          rfl
      | failsUnapplied =>
          rw [call_insertCache_failsUnapplied env _ (hn ▸ hcall)]
      | failsApplied =>
          rw [call_insertCache_failsApplied env _ (hn ▸ hcall)]
          rfl

/-- The table as it would be with the cache inserted now. -/
def settled (s : Follower) : List Asset := insertAssets s.assets s.cacheAssets

theorem saves_settled {asset : AssetWithoutTokens} {s t : Follower} {flushed : Bool}
    {r : Except String Unit} (h : Saves env asset s flushed r t) :
    settled t = insertAbsent Asset.assetId (settled s) [insertInput asset] := by
  have hpush : insertAssets s.assets (s.cacheAssets ++ [asset]) =
      insertAbsent Asset.assetId (settled s) [insertInput asset] := by
    rw [insertAssets, List.map_append, insertAbsent_append]
    rfl
  cases h with
  | cached timer reads => exact hpush
  | flushed timer reads u hu hcall =>
      subst hu
      exact hpush
  | unapplied timer reads u hu hcall =>
      subst hu
      exact hpush
  | applied timer reads u hu hcall =>
      subst hu
      rw [← hpush]
      exact insertAbsent_self Asset.assetId _ _

def Named (s : Follower) (assetId : String) : Prop :=
  assetId ∈ s.assets.map Asset.assetId ∨
    assetId ∈ s.cacheAssets.map fun a => withHexPrefix (some a.assetId)

theorem named_iff_settled (s : Follower) (assetId : String) :
    Named s assetId ↔ assetId ∈ (settled s).map Asset.assetId := by
  rw [settled, insertAssets, mem_keys_insertAbsent, List.map_map]
  rfl

def mintsOf (b : BlockBody) : List (String × String) :=
  (b.transactions.getD []).flatMap fun tx =>
    (tx.mint.getD []).flatMap fun entry => entry.2.map fun asset => (entry.1, asset.1)

def mintedId (m : String × String) : String := withHexPrefix (some (m.1 ++ m.2))

def mintedRow (b : BlockBody) (m : String × String) : Asset :=
  insertInput (cacheEntry env m.1 (some m.2) b)

def saveAll (b : BlockBody) (tip : Tip) (mints : List (String × String)) : Handler Unit :=
  forM mints fun m => saveAsset env m.1 (some m.2) b tip

theorem saveMints_eq (b : BlockBody) (tip : Tip) (tx : Transaction) :
    saveMints env b tip tx = saveAll env b tip
      ((tx.mint.getD []).flatMap fun entry => entry.2.map fun asset => (entry.1, asset.1)) := by
  cases h : tx.mint with
  | none => simp [saveMints, saveAll, h]
  | some mint => simp only [saveMints, h, saveAll, Option.getD_some, Fallible.forM_flatMap, Fallible.forM_map]

theorem saveBody_eq (b : BlockBody) (tip : Tip) :
    (match b.transactions with
      | none => pure ()
      | some transactions => forM transactions (saveMints env b tip)) =
        saveAll env b tip (mintsOf b) := by
  cases h : b.transactions with
  | none => simp [saveAll, mintsOf, h]
  | some txs =>
      simp only [saveAll, mintsOf, h, Option.getD_some, Fallible.forM_flatMap]
      congr 1
      funext tx
      rw [saveMints_eq, saveAll, Fallible.forM_flatMap]

theorem saveBlock_eq (block : Block) (tip : Tip) :
    saveBlock env block tip =
      match block.body with
      | none => pure ()
      | some b => saveAll env b tip (mintsOf b) := by
  cases block with
  | praos b => exact saveBody_eq env b tip
  | bft b => exact saveBody_eq env b tip
  | ebb id => rfl

theorem exec_saveBlock (block : Block) (tip : Tip) (s : Follower) :
    exec (saveBlock env block tip) s =
      match block.body with
      | none => s
      | some b => exec (saveAll env b tip (mintsOf b)) s := by
  rw [saveBlock_eq]
  cases block.body <;> rfl

theorem exec_rollForward (block : Block) (tip : Tip) (s : Follower) :
    exec (rollForward env block tip) s =
      { exec (saveBlock env block tip) s with
        trace := (exec (saveBlock env block tip) s).trace ++ [.requestNext] } := by
  rw [exec, rollForward, call_bind, call_catchAndLog]
  rfl

theorem call_saveAll_cons (b : BlockBody) (tip : Tip) (m : String × String)
    (ms : List (String × String)) (s : Follower) :
    call (saveAll env b tip (m :: ms)) s = match call (saveAsset env m.1 (some m.2) b tip) s with
      | (.ok _, t) => call (saveAll env b tip ms) t
      | (.error e, t) => (.error e, t) := by
  rw [saveAll, List.forM_cons, call_bind]
  rcases call (saveAsset env m.1 (some m.2) b tip) s with ⟨r, t⟩
  cases r <;> rfl

theorem call_saveAll_append (b : BlockBody) (tip : Tip) (ms ns : List (String × String)) (s : Follower) :
    call (saveAll env b tip (ms ++ ns)) s = match call (saveAll env b tip ms) s with
      | (.ok _, t) => call (saveAll env b tip ns) t
      | (.error e, t) => (.error e, t) := by
  induction ms generalizing s with
  | nil => rfl
  | cons m ms ih =>
      rw [List.cons_append, call_saveAll_cons, call_saveAll_cons]
      rcases call (saveAsset env m.1 (some m.2) b tip) s with ⟨r, t⟩
      cases r with
      | error e => rfl
      | ok u => exact ih t

/-- What every save keeps, the walk over a block keeps, also one that an exception ends. -/
theorem saveAll_invariant {P : Follower → Prop}
    (hstep : ∀ asset s flushed r t, Saves env asset s flushed r t → P s → P t)
    (b : BlockBody) (tip : Tip) (mints : List (String × String)) (s : Follower) (hs : P s) :
    P (exec (saveAll env b tip mints) s) := by
  induction mints generalizing s with
  | nil => exact hs
  | cons m ms ih =>
      have ht := hstep _ _ _ _ _ (saveAsset_saves env m.1 (some m.2) b tip s) hs
      rw [exec] at ht ⊢
      rw [call_saveAll_cons]
      rcases hc : call (saveAsset env m.1 (some m.2) b tip) s with ⟨r, t⟩
      rw [hc] at ht
      cases r with
      | error e => exact ht
      | ok u => exact ih t ht

theorem saves_nodup {asset : AssetWithoutTokens} {s t : Follower} {flushed : Bool}
    {r : Except String Unit} (h : Saves env asset s flushed r t)
    (hn : (s.assets.map Asset.assetId).Nodup) : (t.assets.map Asset.assetId).Nodup := by
  cases h with
  | cached timer reads => exact hn
  | unapplied timer reads u hu hcall =>
      subst hu
      exact hn
  | flushed timer reads u hu hcall | applied timer reads u hu hcall =>
      subst hu
      exact insertAbsent_nodup Asset.assetId hn _

structure Reliable : Prop where
  inserts : ∀ n, env.insertCall n = .succeeds
  deletes : ∀ n, env.deleteCall n = .succeeds

theorem quiet_reliable : Reliable quiet := ⟨fun _ => rfl, fun _ => rfl⟩

theorem saveAsset_ok (hok : ∀ n, env.insertCall n = .succeeds) (policyId : String)
    (assetName : Option String) (b : BlockBody) (tip : Tip) (s : Follower) :
    (call (saveAsset env policyId assetName b tip) s).1 = .ok () := by
  have h := saveAsset_saves env policyId assetName b tip s
  generalize (call (saveAsset env policyId assetName b tip) s).1 = r at h ⊢
  generalize due env (isTip b tip) (s.push (cacheEntry env policyId assetName b)) = flushed at h
  generalize exec (saveAsset env policyId assetName b tip) s = t at h
  cases h with
  | cached timer reads => rfl
  | flushed timer reads u hu hcall => rfl
  | unapplied timer reads u hu hcall => rw [hok] at hcall; cases hcall
  | applied timer reads u hu hcall => rw [hok] at hcall; cases hcall

theorem exec_saveAll_cons (hok : ∀ n, env.insertCall n = .succeeds) (b : BlockBody) (tip : Tip)
    (m : String × String) (ms : List (String × String)) (s : Follower) :
    exec (saveAll env b tip (m :: ms)) s =
      exec (saveAll env b tip ms) (exec (saveAsset env m.1 (some m.2) b tip) s) := by
  have h := saveAsset_ok env hok m.1 (some m.2) b tip s
  rw [exec, call_saveAll_cons]
  rcases hc : call (saveAsset env m.1 (some m.2) b tip) s with ⟨r, t⟩
  rw [hc] at h
  rw [show r = .ok () from h]
  simp only [exec, hc]

theorem saveAll_settled (hok : ∀ n, env.insertCall n = .succeeds) (b : BlockBody) (tip : Tip)
    (mints : List (String × String)) (s : Follower) :
    settled (exec (saveAll env b tip mints) s) =
      insertAbsent Asset.assetId (settled s) (mints.map (mintedRow env b)) := by
  induction mints generalizing s with
  | nil => rfl
  | cons m ms ih =>
      rw [exec_saveAll_cons env hok, ih,
        saves_settled env (saveAsset_saves env m.1 (some m.2) b tip s), ← insertAbsent_append]
      rfl

end CardanoGraphql.SaveAsset
