import Mathlib.Data.List.Induction
import CardanoGraphql.Runs
import CardanoGraphql.SaveAsset

namespace CardanoGraphql.OverlappingSaves

open HasuraBackgroundClient KeyedTable ChainFollower SaveAsset Runs

/-- An invocation at its `await`: the objects it has sent, and once the database has
applied them, the rows that the reply lists. -/
structure InsertCall where
  sent : List AssetWithoutTokens
  returning : Option (List Asset)
deriving DecidableEq, Repr

structure Overlap where
  follower : Follower
  awaiting : List InsertCall
  passed : List AssetWithoutTokens
deriving DecidableEq, Repr

inductive Step
  | start (c : SaveCall)
  | apply (n : Nat)
  | reply (n : Nat)
deriving DecidableEq, Repr

variable (env : Externals)

/-- One step of the invocations: an invocation starts and runs to its `await`, the
database applies a call, or the reply of a call comes and its invocation goes on. -/
def interleave (s : Overlap) : Step → Option Overlap
  | .start c =>
      match call (beginSave env c) s.follower with
      | (.ok (some sent), t) => some ⟨t, s.awaiting ++ [⟨sent, none⟩], s.passed ++ [c.entry env]⟩
      | (.ok none, t) => some ⟨t, s.awaiting, s.passed ++ [c.entry env]⟩
      | (.error _, _) => none
  | .apply n =>
      match s.awaiting[n]? with
      | some ⟨sent, none⟩ =>
          some { s with
            follower := applyInsert sent s.follower
            awaiting := s.awaiting.set n ⟨sent, some (insertedAssets s.follower.assets sent)⟩ }
      | _ => none
  | .reply n =>
      match s.awaiting[n]? with
      | some ⟨_, some returning⟩ =>
          some { s with
            follower := s.follower.publish returning
            awaiting := s.awaiting.eraseIdx n }
      | _ => none

def fromFollower (s : Follower) : Overlap := ⟨s, [], []⟩

def assetIdOf (entry : AssetWithoutTokens) : String := withHexPrefix (some entry.assetId)

def Outstanding (awaiting : List InsertCall) (assetId : String) : Prop :=
  ∃ a ∈ awaiting, a.returning = none ∧ assetId ∈ a.sent.map assetIdOf

def Held (s : Overlap) (assetId : String) : Prop :=
  Named s.follower assetId ∨ Outstanding s.awaiting assetId

/-- The asset is in the cache that a reply would empty, and nowhere else. -/
def OnlyCached (s : Overlap) (assetId : String) : Prop :=
  assetId ∈ s.follower.cacheAssets.map assetIdOf ∧
    assetId ∉ s.follower.assets.map Asset.assetId ∧ ¬ Outstanding s.awaiting assetId

/-- A reply of the run empties the cache of an asset that is nowhere else, and no
later invocation is passed the asset again. -/
def LostFor (s : Overlap) (steps : List Step) (assetId : String) : Prop :=
  ∃ before n after, steps = before ++ .reply n :: after ∧
    (∃ t, run (interleave env) s before = some t ∧ OnlyCached t assetId) ∧
    ∀ c, .start c ∈ after → assetIdOf (c.entry env) ≠ assetId

/-- An invocation whose call is applied and answered before anything else happens does
what `saveAsset` does. -/
theorem interleave_alone (c : SaveCall) (s : Follower) (hok : ∀ n, env.insertCall n = .succeeds) :
    run (interleave env) (fromFollower s) [.start c] =
        some ⟨exec (saveAsset env c.policyId c.assetName c.block c.tip) s, [], [c.entry env]⟩ ∨
      run (interleave env) (fromFollower s) [.start c, .apply 0, .reply 0] =
        some ⟨exec (saveAsset env c.policyId c.assetName c.block c.tip) s, [], [c.entry env]⟩ := by
  obtain ⟨t, ht, -⟩ := call_beginSave env c s
  simp only [exec, call_saveAsset env c s, hok, run, fromFollower, interleave, ht]
  cases due env (isTip c.block c.tip) (s.push (c.entry env)) with
  | false => exact Or.inl rfl
  | true => exact Or.inr rfl

theorem held_split {xs ys : List InsertCall} {a : InsertCall} (assetId : String) :
    Outstanding (xs ++ a :: ys) assetId ↔
      Outstanding (xs ++ ys) assetId ∨ (a.returning = none ∧ assetId ∈ a.sent.map assetIdOf) := by
  simp only [Outstanding, List.mem_append, List.mem_cons]
  constructor
  · rintro ⟨b, hb | rfl | hb, h⟩
    · exact Or.inl ⟨b, Or.inl hb, h⟩
    · exact Or.inr h
    · exact Or.inl ⟨b, Or.inr hb, h⟩
  · rintro (⟨b, hb | hb, h⟩ | h)
    · exact ⟨b, Or.inl hb, h⟩
    · exact ⟨b, Or.inr (Or.inr hb), h⟩
    · exact ⟨a, Or.inr (Or.inl rfl), h⟩

theorem held_start {s t : Overlap} {c : SaveCall} (h : interleave env s (.start c) = some t)
    (assetId : String) : Held t assetId ↔ Held s assetId ∨ assetIdOf (c.entry env) = assetId := by
  obtain ⟨u, hu, hassets, hcache, -⟩ := call_beginSave env c s.follower
  have hnamed : Named u assetId ↔ Named s.follower assetId ∨ assetIdOf (c.entry env) = assetId := by
    rw [Named, Named, hassets, hcache, List.map_append, List.mem_append, List.map_singleton,
      List.mem_singleton, or_assoc, eq_comm (a := assetId)]
    rfl
  simp only [interleave, hu] at h
  cases hd : due env (isTip c.block c.tip) (s.follower.push (c.entry env)) with
  | false =>
      rw [hd] at h
      cases h
      rw [Held, Held, hnamed, or_right_comm]
  | true =>
      rw [hd] at h
      cases h
      have hsent : assetId ∈ u.cacheAssets.map assetIdOf → Named u assetId := Or.inr
      have happ : Outstanding (s.awaiting ++ [⟨u.cacheAssets, none⟩]) assetId ↔
          Outstanding s.awaiting assetId ∨ assetId ∈ u.cacheAssets.map assetIdOf := by
        rw [held_split, List.append_nil]
        simp
      rw [Held, Held, happ, or_right_comm, ← hnamed]
      constructor
      · rintro (h | h | h)
        · exact Or.inl h
        · exact Or.inr h
        · exact Or.inl (hsent h)
      · rintro (h | h)
        · exact Or.inl h
        · exact Or.inr (Or.inl h)

theorem held_apply {s t : Overlap} {n : Nat} (h : interleave env s (.apply n) = some t)
    (assetId : String) : Held t assetId ↔ Held s assetId := by
  rw [interleave] at h
  split at h
  next sent hn =>
    cases h
    obtain ⟨xs, ys, hsplit, -, hset⟩ := split_at hn
    have hrows : assetId ∈ (insertAssets s.follower.assets sent).map Asset.assetId ↔
        assetId ∈ s.follower.assets.map Asset.assetId ∨ assetId ∈ sent.map assetIdOf := by
      rw [insertAssets, mem_keys_insertAbsent, List.map_map]
      rfl
    have hbefore : Outstanding s.awaiting assetId ↔
        Outstanding (xs ++ ys) assetId ∨ assetId ∈ sent.map assetIdOf := by
      rw [hsplit, held_split]
      simp
    have hafter : Outstanding (s.awaiting.set n ⟨sent, some (insertedAssets s.follower.assets sent)⟩) assetId ↔
        Outstanding (xs ++ ys) assetId := by
      rw [hset, held_split]
      simp
    simp only [Held, Named, applyInsert, hrows, hbefore, hafter]
    constructor
    · rintro (((h | h) | h) | h)
      · exact Or.inl (Or.inl h)
      · exact Or.inr (Or.inr h)
      · exact Or.inl (Or.inr h)
      · exact Or.inr (Or.inl h)
    · rintro ((h | h) | h | h)
      · exact Or.inl (Or.inl (Or.inl h))
      · exact Or.inl (Or.inr h)
      · exact Or.inr h
      · exact Or.inl (Or.inl (Or.inr h))
  next => cases h

theorem held_reply {s t : Overlap} {n : Nat} (h : interleave env s (.reply n) = some t)
    (assetId : String) : Held t assetId ↔ Held s assetId ∧ ¬ OnlyCached s assetId := by
  rw [interleave] at h
  split at h
  next sent returning hn =>
    cases h
    obtain ⟨xs, ys, hsplit, herase, -⟩ := split_at hn
    have hout : Outstanding s.awaiting assetId ↔ Outstanding (xs ++ ys) assetId := by
      rw [hsplit, held_split]
      simp
    have hcached : (assetId ∈ s.follower.cacheAssets.map fun a => withHexPrefix (some a.assetId)) ↔
        assetId ∈ s.follower.cacheAssets.map assetIdOf := Iff.rfl
    simp only [Held, Named, OnlyCached, Follower.publish, herase, hout, List.map_nil, List.not_mem_nil,
      or_false, hcached]
    constructor
    · rintro (h | h)
      · exact ⟨Or.inl (Or.inl h), fun hc => hc.2.1 h⟩
      · exact ⟨Or.inr h, fun hc => hc.2.2 h⟩
    · rintro ⟨(h | h) | h, hc⟩
      · exact Or.inl h
      · by_contra hno
        rw [not_or] at hno
        exact hc ⟨h, hno⟩
      · exact Or.inr h
  next => cases h

theorem passed_step {s t : Overlap} {e : Step} (h : interleave env s e = some t) :
    t.passed = s.passed ++ match e with
      | .start c => [c.entry env]
      | _ => [] := by
  cases e with
  | start c =>
      obtain ⟨u, hu, -⟩ := call_beginSave env c s.follower
      simp only [interleave, hu] at h
      split at h
      next => cases h; rfl
      next => cases h; rfl
      next hno => cases hno
  | apply n =>
      rw [interleave] at h
      split at h
      next => cases h; exact (List.append_nil _).symm
      next => cases h
  | reply n =>
      rw [interleave] at h
      split at h
      next => cases h; exact (List.append_nil _).symm
      next => cases h

theorem lostFor_concat (s : Overlap) (steps : List Step) (e : Step) (assetId : String) :
    LostFor env s (steps ++ [e]) assetId ↔
      (LostFor env s steps assetId ∧ ∀ c, e = .start c → assetIdOf (c.entry env) ≠ assetId) ∨
      (∃ n t, e = .reply n ∧ run (interleave env) s steps = some t ∧ OnlyCached t assetId) := by
  constructor
  · rintro ⟨before, n, after, heq, ⟨t, ht, hc⟩, hlater⟩
    rcases List.eq_nil_or_concat' after with rfl | ⟨rest, f, rfl⟩
    · obtain ⟨rfl, he⟩ := List.append_inj' heq rfl
      exact Or.inr ⟨n, t, (List.cons.inj he).1, ht, hc⟩
    · rw [← List.cons_append, ← List.append_assoc] at heq
      obtain ⟨rfl, he⟩ := List.append_inj' heq rfl
      obtain ⟨rfl, -⟩ := List.cons.inj he
      refine Or.inl ⟨⟨before, n, rest, rfl, ⟨t, ht, hc⟩, fun c hm => hlater c (by simp [hm])⟩, ?_⟩
      rintro c rfl
      exact hlater c (by simp)
  · rintro (⟨⟨before, n, after, rfl, ht, hlater⟩, he⟩ | ⟨n, t, rfl, ht, hc⟩)
    · refine ⟨before, n, after ++ [e], by simp, ht, fun c hm => ?_⟩
      rcases List.mem_append.mp hm with hm | hm
      · exact hlater c hm
      · exact he c (List.mem_singleton.mp hm).symm
    · exact ⟨steps, n, [], rfl, ⟨t, ht, hc⟩, fun c hm => by cases hm⟩

theorem held_iff_not_lostFor (s : Follower) (steps : List Step) (t : Overlap)
    (hrun : run (interleave env) (fromFollower s) steps = some t) (entry : AssetWithoutTokens)
    (hp : entry ∈ t.passed) :
    Held t (assetIdOf entry) ↔ ¬ LostFor env (fromFollower s) steps (assetIdOf entry) := by
  induction steps using List.reverseRecOn generalizing t with
  | nil =>
      cases hrun
      cases hp
  | append_singleton steps e ih =>
      rw [run_concat] at hrun
      obtain ⟨u, hu, hstep⟩ := Option.bind_eq_some_iff.mp hrun
      have hpassed := passed_step env hstep
      rw [lostFor_concat]
      cases e with
      | start c =>
          rw [held_start env hstep]
          by_cases hc : assetIdOf (c.entry env) = assetIdOf entry
          · exact iff_of_true (Or.inr hc) (by simp [hc])
          · have hu' : entry ∈ u.passed := by
              rw [hpassed, List.mem_append, List.mem_singleton] at hp
              exact hp.resolve_right fun h => hc (h ▸ rfl)
            rw [ih u hu hu']
            simp [hc]
      | apply n =>
          rw [held_apply env hstep, ih u hu (by simpa [hpassed] using hp)]
          simp
      | reply n =>
          rw [held_reply env hstep, ih u hu (by simpa [hpassed] using hp)]
          simp [hu, not_or]

/-- Once every invocation has finished, all that was passed is in the table or in the
cache, except what a reply took from the cache before it was anywhere else. -/
theorem nothing_lost_iff (s : Follower) (steps : List Step) (t : Overlap)
    (hrun : run (interleave env) (fromFollower s) steps = some t) (hdone : t.awaiting = []) :
    (∀ entry ∈ t.passed, Named t.follower (assetIdOf entry)) ↔
      ∀ entry ∈ t.passed, ¬ LostFor env (fromFollower s) steps (assetIdOf entry) := by
  have hheld : ∀ assetId, Held t assetId ↔ Named t.follower assetId := by
    intro assetId
    simp [Held, Outstanding, hdone]
  constructor
  · intro h entry hp
    rw [← held_iff_not_lostFor env s steps t hrun entry hp, hheld]
    exact h entry hp
  · intro h entry hp
    rw [← hheld, held_iff_not_lostFor env s steps t hrun entry hp]
    exact h entry hp

def reconnectRun : List Step :=
  [.start ⟨policy, some "61", mintBlock 10 "a1" ["61"], .tip 10 "a1"⟩,
    .apply 0,
    .start ⟨policy, some "62", mintBlock 9 "a0" ["62"], .tip 11 "a2"⟩,
    .reply 0]

theorem reconnectRun_isSome :
    (run (interleave quiet) (fromFollower (start quiet [])) reconnectRun).isSome = true := by
  decide +kernel

theorem reconnectRun_loses :
    ∃ t, run (interleave quiet) (fromFollower (start quiet [])) reconnectRun = some t ∧
      t.awaiting = [] ∧ ∃ entry ∈ t.passed, ¬ Named t.follower (assetIdOf entry) := by
  refine ⟨_, (Option.some_get reconnectRun_isSome).symm, by decide +kernel, ?_⟩
  unfold Named
  decide +kernel

theorem reconnectRun_iff :
    (∀ entry ∈ ((run (interleave quiet) (fromFollower (start quiet [])) reconnectRun).get
        reconnectRun_isSome).passed,
      Named ((run (interleave quiet) (fromFollower (start quiet [])) reconnectRun).get
        reconnectRun_isSome).follower (assetIdOf entry)) ↔
      ∀ entry ∈ ((run (interleave quiet) (fromFollower (start quiet [])) reconnectRun).get
          reconnectRun_isSome).passed,
        ¬ LostFor quiet (fromFollower (start quiet [])) reconnectRun (assetIdOf entry) :=
  nothing_lost_iff quiet (start quiet []) reconnectRun _ (Option.some_get reconnectRun_isSome).symm
    (by decide +kernel)

end CardanoGraphql.OverlappingSaves
