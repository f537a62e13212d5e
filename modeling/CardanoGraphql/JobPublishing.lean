import Mathlib.Data.List.Induction
import CardanoGraphql.SaveAsset

namespace CardanoGraphql.JobPublishing

open HasuraBackgroundClient KeyedTable ChainFollower SaveAsset

variable (env : Externals)

/-- The calls one after the other; the handlers catch what a call throws. -/
def saves (s : Follower) (calls : List SaveCall) : Follower := calls.foldl (save env) s

def fromHere (s : Follower) : Follower := { s with trace := [] }

/-- A row was inserted and no job has been published for it since. -/
def Unpublished (assetId : String) (trace : List Event) : Prop :=
  ∃ before after, trace = before ++ .inserted assetId :: after ∧
    .published (stripHexPrefix assetId) ∉ after

def AllPublished (s : Follower) : Prop :=
  ∀ row ∈ s.assets, ¬ Unpublished row.assetId s.trace

/-- The call is one whose insert the database applies, with at least one new row,
and whose reply does not arrive. -/
def LostReply (s : Follower) (c : SaveCall) : Prop :=
  due env (isTip c.block c.tip) (s.push (c.entry env)) = true ∧
    env.insertCall s.insertCalls = .failsApplied ∧
    insertedAssets s.assets (s.cacheAssets ++ [c.entry env]) ≠ []

def NoLostReply (s : Follower) (calls : List SaveCall) : Prop :=
  ∀ before c, before ++ [c] <+: calls → ¬ LostReply env (saves env s before) c

theorem not_unpublished_nil (assetId : String) : ¬ Unpublished assetId [] := by
  rintro ⟨before, after, h, -⟩
  simp at h

theorem unpublished_append (assetId : String) (xs ys : List Event) :
    Unpublished assetId (xs ++ ys) ↔
      (Unpublished assetId xs ∧ .published (stripHexPrefix assetId) ∉ ys) ∨ Unpublished assetId ys := by
  constructor
  · rintro ⟨before, after, h, hno⟩
    rcases List.append_eq_append_iff.mp h with ⟨mid, rfl, hys⟩ | ⟨mid, rfl, hys⟩
    · exact Or.inr ⟨mid, after, hys, hno⟩
    · cases mid with
      | nil => exact Or.inr ⟨[], after, hys.symm, hno⟩
      | cons e mid =>
          obtain ⟨rfl, hafter⟩ := List.cons.inj hys
          rw [hafter, List.append_eq, List.mem_append, not_or] at hno
          exact Or.inl ⟨⟨before, mid, rfl, hno.1⟩, hno.2⟩
  · rintro (⟨⟨before, after, rfl, hno⟩, hys⟩ | ⟨before, after, rfl, hno⟩)
    · refine ⟨before, after ++ ys, by simp, ?_⟩
      rw [List.mem_append, not_or]
      exact ⟨hno, hys⟩
    · exact ⟨xs ++ before, after, by simp, hno⟩

theorem not_unpublished_of_not_inserted {assetId : String} {trace : List Event}
    (h : .inserted assetId ∉ trace) : ¬ Unpublished assetId trace := by
  rintro ⟨before, after, rfl, -⟩
  exact h (by simp)

theorem unpublished_inserted (assetId : String) (rows : List Asset) :
    Unpublished assetId (rows.map fun a => .inserted a.assetId) ↔ assetId ∈ rows.map Asset.assetId := by
  constructor
  · rintro ⟨before, after, h, -⟩
    have hm : Event.inserted assetId ∈ rows.map fun a => Event.inserted a.assetId := by
      rw [h]
      simp
    obtain ⟨row, hr, he⟩ := List.mem_map.mp hm
    cases he
    exact List.mem_map_of_mem hr
  · intro h
    obtain ⟨row, hr, rfl⟩ := List.mem_map.mp h
    obtain ⟨before, after, rfl⟩ := List.append_of_mem hr
    refine ⟨before.map fun a => .inserted a.assetId, after.map fun a => .inserted a.assetId, by simp, ?_⟩
    simp

theorem unpublished_reply {assetId : String} {trace : List Event} {rows : List Asset}
    (hhex : ∀ row ∈ rows, ∃ value, row.assetId = withHexPrefix (some value))
    (hold : Unpublished assetId trace →
      assetId ∉ rows.map Asset.assetId ∧ ∃ value, assetId = withHexPrefix (some value)) :
    Unpublished assetId ((trace ++ rows.map fun a => .inserted a.assetId) ++
        rows.map fun a => .published (stripHexPrefix a.assetId)) ↔ Unpublished assetId trace := by
  have hnone : ¬ Unpublished assetId (rows.map fun a => .published (stripHexPrefix a.assetId)) :=
    not_unpublished_of_not_inserted (by simp)
  rw [unpublished_append, unpublished_append, unpublished_inserted]
  constructor
  · rintro (⟨⟨h, -⟩ | h, hp⟩ | h)
    · exact h
    · obtain ⟨row, hr, rfl⟩ := List.mem_map.mp h
      exact absurd (List.mem_map.mpr ⟨row, hr, rfl⟩) hp
    · exact absurd h hnone
  · intro h
    obtain ⟨hnew, value, rfl⟩ := hold h
    refine Or.inl ⟨Or.inl ⟨h, by simp⟩, fun hp => hnew ?_⟩
    obtain ⟨row, hr, he⟩ := List.mem_map.mp hp
    obtain ⟨other, ho⟩ := hhex row hr
    rw [Event.published.injEq, ho, stripHexPrefix_withHexPrefix,
      stripHexPrefix_withHexPrefix] at he
    rw [← he, ← ho]
    exact List.mem_map_of_mem hr

def Recorded (s : Follower) : Prop :=
  ∀ assetId, .inserted assetId ∈ s.trace →
    assetId ∈ s.assets.map Asset.assetId ∧ ∃ value, assetId = withHexPrefix (some value)

theorem insertCache_recorded (s : Follower) (hs : Recorded s) : Recorded s.insertCache := by
  intro assetId h
  have hassets : s.insertCache.assets = s.assets ++ insertedAssets s.assets s.cacheAssets :=
    insertAbsent_eq Asset.assetId _ _
  rw [hassets, List.map_append, List.mem_append]
  rcases List.mem_append.mp h with h | h
  · exact ⟨Or.inl (hs assetId h).1, (hs assetId h).2⟩
  · obtain ⟨row, hr, he⟩ := List.mem_map.mp h
    cases he
    exact ⟨Or.inr (List.mem_map_of_mem hr), insertedAssets_hex _ _ row hr⟩

theorem publish_recorded (rows : List Asset) (s : Follower) (hs : Recorded s) :
    Recorded (s.publish rows) := by
  intro assetId h
  rcases List.mem_append.mp h with h | h
  · exact hs assetId h
  · simp at h

theorem saves_recorded {asset : AssetWithoutTokens} {s t : Follower} {flushed : Bool}
    {r : Except String Unit} (h : Saves env asset s flushed r t) (hs : Recorded s) : Recorded t := by
  cases h with
  | cached timer reads => exact hs
  | unapplied timer reads u hu hcall =>
      subst hu
      exact hs
  | applied timer reads u hu hcall =>
      subst hu
      exact insertCache_recorded _ hs
  | flushed timer reads u hu hcall =>
      subst hu
      exact publish_recorded _ _ (insertCache_recorded _ hs)

theorem unpublished_save (s : Follower) (c : SaveCall) (hs : Recorded s) (assetId : String) :
    Unpublished assetId (save env s c).trace ↔
      Unpublished assetId s.trace ∨ (LostReply env s c ∧
        assetId ∈ (insertedAssets s.assets (s.cacheAssets ++ [c.entry env])).map Asset.assetId) := by
  have h := saveAsset_saves env c.policyId c.assetName c.block c.tip s
  have hne : assetId ∈ (insertedAssets s.assets (s.cacheAssets ++ [c.entry env])).map Asset.assetId →
      insertedAssets s.assets (s.cacheAssets ++ [c.entry env]) ≠ [] := by
    intro hm hnil
    simp [hnil] at hm
  simp only [LostReply, save, SaveCall.entry] at hne ⊢
  generalize cacheEntry env c.policyId c.assetName c.block = entry at h hne ⊢
  generalize exec (saveAsset env c.policyId c.assetName c.block c.tip) s = t at h ⊢
  generalize (call (saveAsset env c.policyId c.assetName c.block c.tip) s).1 = r at h
  generalize due env (isTip c.block c.tip) (s.push entry) = flushed at h ⊢
  cases h with
  | cached timer reads => simp [Follower.push]
  | unapplied timer reads u hu hcall =>
      subst hu
      simp [hcall, Follower.push]
  | applied timer reads u hu hcall =>
      subst hu
      simp only [hcall, Follower.insertCache, Follower.push, unpublished_append, unpublished_inserted,
        true_and]
      constructor
      · rintro (⟨h, -⟩ | h)
        · exact Or.inl h
        · exact Or.inr ⟨hne h, h⟩
      · rintro (h | ⟨-, h⟩)
        · exact Or.inl ⟨h, by simp⟩
        · exact Or.inr h
  | flushed timer reads u hu hcall =>
      subst hu
      simp only [hcall, reduceCtorEq, false_and, and_false, or_false]
      refine unpublished_reply (insertedAssets_hex _ _) fun hu => ?_
      obtain ⟨before, after, htrace, -⟩ := hu
      have htrace : s.trace = before ++ .inserted assetId :: after := htrace
      have hrec := hs assetId (by rw [htrace]; simp)
      exact ⟨fun hm => ((newRows_keys Asset.assetId _ _).2 _ hm).1 hrec.1, hrec.2⟩

theorem saves_concat (s : Follower) (calls : List SaveCall) (c : SaveCall) :
    saves env s (calls ++ [c]) = save env (saves env s calls) c := by
  simp [saves]

theorem runs_recorded (s : Follower) (calls : List SaveCall) (hs : Recorded s) :
    Recorded (saves env s calls) := by
  induction calls using List.reverseRecOn with
  | nil => exact hs
  | append_singleton calls c ih =>
      rw [saves_concat]
      exact saves_recorded env (saveAsset_saves env c.policyId c.assetName c.block c.tip _) ih

theorem noLostReply_concat (s : Follower) (calls : List SaveCall) (c : SaveCall) :
    NoLostReply env s (calls ++ [c]) ↔ NoLostReply env s calls ∧ ¬ LostReply env (saves env s calls) c := by
  constructor
  · intro h
    exact ⟨fun before d hp => h before d (hp.trans (List.prefix_append calls [c])),
      h calls c List.prefix_rfl⟩
  · rintro ⟨h, hc⟩ before d hp
    rcases List.prefix_concat_iff.mp hp with heq | hp
    · obtain ⟨rfl, hd⟩ := List.append_inj' heq rfl
      cases hd
      exact hc
    · exact h before d hp

theorem unpublished_saves (s : Follower) (hs : s.trace = []) (calls : List SaveCall) :
    (∀ assetId, ¬ Unpublished assetId (saves env s calls).trace) ↔ NoLostReply env s calls := by
  have hrec : Recorded s := fun assetId h => by rw [hs] at h; cases h
  induction calls using List.reverseRecOn with
  | nil =>
      refine iff_of_true (fun assetId => ?_) fun before c hp => by simp at hp
      rw [show (saves env s []).trace = [] from hs]
      exact not_unpublished_nil assetId
  | append_singleton calls c ih =>
      have hstep := unpublished_save env (saves env s calls) c (runs_recorded env s calls hrec)
      rw [saves_concat, noLostReply_concat]
      simp only [hstep, not_or]
      constructor
      · intro h
        refine ⟨ih.mp fun assetId => (h assetId).1, fun hlost => ?_⟩
        obtain ⟨row, hr⟩ := List.exists_mem_of_ne_nil _ hlost.2.2
        exact (h row.assetId).2 ⟨hlost, List.mem_map_of_mem hr⟩
      · rintro ⟨h, hlost⟩ assetId
        exact ⟨ih.mpr h assetId, fun hl => hlost hl.1⟩

/-- Where a run ends with an empty cache, each row that it inserted has got its job
exactly when no reply with a new row was lost. -/
theorem jobs_published_iff (s : Follower) (calls : List SaveCall) :
    ((saves env (fromHere s) calls).cacheAssets = [] → AllPublished (saves env (fromHere s) calls)) ↔
      ((saves env (fromHere s) calls).cacheAssets = [] → NoLostReply env (fromHere s) calls) := by
  have hrec : Recorded (saves env (fromHere s) calls) :=
    runs_recorded env _ calls fun assetId h => by cases h
  have hrows : AllPublished (saves env (fromHere s) calls) ↔
      ∀ assetId, ¬ Unpublished assetId (saves env (fromHere s) calls).trace := by
    constructor
    · intro h assetId hu
      obtain ⟨before, after, htrace, hno⟩ := hu
      obtain ⟨row, hr, rfl⟩ := List.mem_map.mp (hrec assetId (by rw [htrace]; simp)).1
      exact h row hr ⟨before, after, htrace, hno⟩
    · intro h row _
      exact h row.assetId
  rw [hrows, unpublished_saves env (fromHere s) rfl]

def firstReplyLost : Externals :=
  { quiet with insertCall := fun n => if n = 0 then .failsApplied else .succeeds }

def twoMints : List SaveCall :=
  [⟨policy, some "61", mintBlock 10 "a1" ["61", "62"], .tip 10 "a1"⟩,
    ⟨policy, some "62", mintBlock 10 "a1" ["61", "62"], .tip 10 "a1"⟩]

theorem first_mint_without_job :
    let s := saves firstReplyLost (fromHere (start firstReplyLost [])) twoMints
    s.cacheAssets = [] ∧
      s.trace = [.inserted ("\\x" ++ policy ++ "61"), .inserted ("\\x" ++ policy ++ "62"),
        .published (policy ++ "62")] ∧
      ¬ AllPublished s := by
  have htrace : (saves firstReplyLost (fromHere (start firstReplyLost [])) twoMints).trace =
      [] ++ .inserted ("\\x" ++ policy ++ "61") ::
        [.inserted ("\\x" ++ policy ++ "62"), .published (policy ++ "62")] := by decide +kernel
  have hrow : ∃ row ∈ (saves firstReplyLost (fromHere (start firstReplyLost [])) twoMints).assets,
      row.assetId = "\\x" ++ policy ++ "61" := by decide +kernel
  refine ⟨by decide +kernel, htrace, fun h => ?_⟩
  obtain ⟨row, hr, hid⟩ := hrow
  exact h row hr ⟨[], _, hid ▸ htrace, by rw [hid]; decide +kernel⟩

end CardanoGraphql.JobPublishing
