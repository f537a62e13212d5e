import Mathlib.Algebra.GroupWithZero.Nat
import CardanoGraphql.BackgroundProcess

namespace CardanoGraphql.JobEffects

open HasuraBackgroundClient KeyedTable ChainFollower SaveAsset Worker Runs BackgroundProcess

/-- The jobs that wait or are being handled and not replaced. -/
def pending (s : Process) : List Job := s.waiting ++ s.batches.flatMap Batch.pending

def pendingOf (s : Process) (assetId : String) : Nat := ((pending s).map Job.assetId).count assetId

section Counting

def jobsOf (jobs : List Job) (assetId : String) : Nat := (jobs.map Job.assetId).count assetId

@[simp] theorem jobsOf_nil (assetId : String) : jobsOf [] assetId = 0 := rfl

@[simp] theorem jobsOf_append (xs ys : List Job) (assetId : String) :
    jobsOf (xs ++ ys) assetId = jobsOf xs assetId + jobsOf ys assetId := by
  rw [jobsOf, List.map_append, List.count_append, jobsOf, jobsOf]

theorem jobsOf_cons (job : Job) (jobs : List Job) (assetId : String) :
    jobsOf (job :: jobs) assetId = jobsOf jobs assetId + if job.assetId = assetId then 1 else 0 := by
  rw [jobsOf, List.map_cons, List.count_cons, jobsOf]
  simp only [beq_iff_eq]

theorem jobsOf_newJobs (queue : Queue) (id : Nat) (assetIds : List String) (assetId : String) :
    jobsOf (newJobs queue id assetIds) assetId = assetIds.count assetId := by
  have hmap : (newJobs queue id assetIds).map Job.assetId = assetIds := by
    induction assetIds generalizing id with
    | nil => rfl
    | cons a assetIds ih => rw [newJobs, List.map_cons, ih]
  rw [jobsOf, hmap]

theorem jobsOf_filter (p : Job → Bool) (jobs : List Job) (assetId : String) :
    jobsOf (jobs.filter p) assetId + jobsOf (jobs.filter fun job => !p job) assetId = jobsOf jobs assetId := by
  rw [← jobsOf_append]
  exact ((List.filter_append_perm p jobs).map Job.assetId).count_eq assetId

theorem jobsOf_pending (b : Batch) (assetId : String) : jobsOf b.pending assetId =
    jobsOf b.todo assetId + (jobsOf b.writing.toList assetId + jobsOf b.settled assetId) := by
  rw [Batch.pending, jobsOf_append, jobsOf_append]

theorem jobsOf_jobs (b : Batch) (assetId : String) :
    jobsOf b.jobs assetId = jobsOf b.pending assetId + jobsOf b.replaced assetId := by
  rw [Batch.jobs, jobsOf_append]

def handledOf (batches : List Batch) (assetId : String) : Nat :=
  (batches.map fun b => jobsOf b.pending assetId).sum

@[simp] theorem handledOf_append (xs ys : List Batch) (assetId : String) :
    handledOf (xs ++ ys) assetId = handledOf xs assetId + handledOf ys assetId := by
  rw [handledOf, List.map_append, List.sum_append, handledOf, handledOf]

@[simp] theorem handledOf_cons (b : Batch) (batches : List Batch) (assetId : String) :
    handledOf (b :: batches) assetId = jobsOf b.pending assetId + handledOf batches assetId := by
  rw [handledOf, List.map_cons, List.sum_cons, handledOf]

theorem pendingOf_eq (s : Process) (assetId : String) :
    pendingOf s assetId = jobsOf s.waiting assetId + handledOf s.batches assetId := by
  have hbatches : ∀ batches : List Batch,
      jobsOf (batches.flatMap Batch.pending) assetId = handledOf batches assetId := by
    intro batches
    induction batches with
    | nil => rfl
    | cons b batches ih => rw [List.flatMap_cons, jobsOf_append, ih, handledOf_cons]
  rw [← hbatches, ← jobsOf_append]
  rfl

end Counting

section Effects

variable (env : Externals) (hash : AssetMetadata → String)

/-- The assets whose jobs a step sends again, or for a second time. -/
def resent (s : Process) : Step → List String
  | .reply => idsOf (s.returning.getD [])
  | .throw n => ((s.batches[n]?.map Batch.replaced).getD []).map Job.assetId
  | _ => []

/-- All a step can do to the jobs. -/
inductive Effect (s : Process) (e : Step) (t : Process) : Prop
  | follower (hresent : resent s e = []) (hwaiting : t.waiting = s.waiting) (hbatches : t.batches = s.batches)
      (hreturning : t.returning = s.returning ∨ ∃ rows, t.returning = some rows ∧ (idsOf rows).Nodup)
  | replied (rows : List Asset) (hrows : s.returning = some rows) (hresent : resent s e = idsOf rows)
      (hwaiting : t.waiting = s.waiting ++ newJobs .fetchInitial s.created (idsOf rows))
      (hbatches : t.batches = s.batches) (hreturning : t.returning = none)
  | fetched (p : Job → Bool) (hresent : resent s e = [])
      (hwaiting : t.waiting = s.waiting.filter fun job => !p job)
      (hbatches : t.batches = s.batches ++ [⟨none, s.waiting.filter p, none, [], []⟩])
      (hreturning : t.returning = s.returning)
  | moved (xs ys : List Batch) (b c : Batch) (back : List Job) (hresent : resent s e = [])
      (hb : s.batches = xs ++ b :: ys) (hc : t.batches = xs ++ c :: ys)
      (hwaiting : t.waiting = s.waiting ++ back) (hreturning : t.returning = s.returning)
      (hpending : ∀ assetId, jobsOf back assetId + jobsOf c.pending assetId = jobsOf b.pending assetId)
      (hjobs : ∀ assetId, jobsOf c.jobs assetId ≤ jobsOf b.jobs assetId)
  | finished (xs ys : List Batch) (b : Batch) (hresent : resent s e = [])
      (hb : s.batches = xs ++ b :: ys) (ht : t.batches = xs ++ ys)
      (hwaiting : t.waiting = s.waiting) (hreturning : t.returning = s.returning)
  | thrown (xs ys : List Batch) (b : Batch) (hresent : resent s e = b.replaced.map Job.assetId)
      (hb : s.batches = xs ++ b :: ys) (ht : t.batches = xs ++ ys)
      (hwaiting : t.waiting = s.waiting ++ b.jobs) (hreturning : t.returning = s.returning)

theorem idsOf_inserted (table : List Asset) (sent : List AssetWithoutTokens) :
    (idsOf (insertedAssets table sent)).Nodup := by
  have hkeys : ((insertedAssets table sent).map Asset.assetId).Nodup :=
    (newRows_keys Asset.assetId table (sent.map insertInput)).1
  have hids : idsOf (insertedAssets table sent) =
      ((insertedAssets table sent).map Asset.assetId).map stripHexPrefix := by
    rw [List.map_map]
    rfl
  rw [hids]
  refine hkeys.map_on ?_
  intro a ha b hb h
  obtain ⟨row, hrow, rfl⟩ := List.mem_map.mp ha
  obtain ⟨other, hother, rfl⟩ := List.mem_map.mp hb
  obtain ⟨v, hv⟩ := insertedAssets_hex _ _ row hrow
  obtain ⟨w, hw⟩ := insertedAssets_hex _ _ other hother
  rw [hv, hw, stripHexPrefix_withHexPrefix, stripHexPrefix_withHexPrefix] at h
  rw [hv, hw, h]

theorem save_effect {s t : Process} {c : SaveCall} {rest : List SaveCall}
    (h : saveStep env s c rest = some t) : Effect s .save t := by
  obtain ⟨u, hu, -⟩ := call_beginSave env c s.follower
  rw [saveStep, hu] at h
  cases hd : due env (isTip c.block c.tip) (s.follower.push (c.entry env)) with
  | false =>
      rw [hd] at h
      cases h
      exact .follower rfl rfl rfl (Or.inl rfl)
  | true =>
      rw [hd] at h
      cases hcall : env.insertCall s.follower.insertCalls with
      | succeeds =>
          rw [hcall] at h
          cases h
          exact .follower rfl rfl rfl (Or.inr ⟨_, rfl, idsOf_inserted _ _⟩)
      | failsUnapplied | failsApplied =>
          rw [hcall] at h
          cases h
          exact .follower rfl rfl rfl (Or.inl rfl)

theorem handle_effect {s t : Process} {n : Nat} {b : Batch} (hb : s.batches[n]? = some b)
    (h : handleStep hash s n b = some t) : Effect s (.handle n) t := by
  obtain ⟨xs, ys, hs, -, hset⟩ := split_at hb
  obtain ⟨registry, todo, writing, settled, replaced⟩ := b
  cases registry with
  | none => cases h
  | some fetched =>
      cases todo with
      | nil => cases h
      | cons job rest =>
          cases writing with
          | some other => cases h
          | none =>
              simp only [handleStep] at h
              cases hhandle : handleJob hash fetched.1 fetched.2 job.assetId with
              | done error =>
                  rw [hhandle] at h
                  cases h
                  refine .moved xs ys _ _ [job] rfl hs (hset _) rfl rfl (fun assetId => ?_) fun assetId => ?_
                  · simp only [jobsOf_pending, jobsOf_cons, jobsOf_nil, Option.toList]
                    omega
                  · simp only [jobsOf_jobs, jobsOf_pending, jobsOf_cons, jobsOf_nil, Option.toList]
                    omega
              | matchesLocal =>
                  rw [hhandle] at h
                  cases h
                  refine .moved xs ys _ _ [] rfl hs (hset _) (List.append_nil _).symm rfl
                    (fun assetId => ?_) fun assetId => ?_
                  · simp only [jobsOf_pending, jobsOf_append, jobsOf_cons, jobsOf_nil, Option.toList]
                    omega
                  · simp only [jobsOf_jobs, jobsOf_pending, jobsOf_append, jobsOf_cons, jobsOf_nil, Option.toList]
                    omega
              | addAssetMetadata asset =>
                  rw [hhandle] at h
                  cases h
                  refine .moved xs ys _ _ [] rfl hs (hset _) (List.append_nil _).symm rfl
                    (fun assetId => ?_) fun assetId => ?_
                  · simp only [jobsOf_pending, jobsOf_cons, jobsOf_nil, Option.toList]
                    omega
                  · simp only [jobsOf_jobs, jobsOf_pending, jobsOf_cons, jobsOf_nil, Option.toList]
                    omega

theorem publish_effect {s t : Process} {n : Nat} {b : Batch} (hb : s.batches[n]? = some b)
    (h : publishStep s n b = some t) : Effect s (.publishAfter n) t := by
  obtain ⟨xs, ys, hs, -, hset⟩ := split_at hb
  obtain ⟨registry, todo, writing, settled, replaced⟩ := b
  cases writing with
  | none => cases h
  | some job =>
      cases h
      refine .moved xs ys _ _ [⟨s.created, .fetchUpdate, job.assetId⟩] rfl hs (hset _) rfl rfl
        (fun assetId => ?_) fun assetId => ?_
      · simp only [jobsOf_pending, jobsOf_cons, jobsOf_nil, Option.toList]
        omega
      · simp only [jobsOf_jobs, jobsOf_pending, jobsOf_append, jobsOf_cons, jobsOf_nil, Option.toList]
        omega

theorem step_effect {s t : Process} {e : Step} (h : step env hash s e = some t) : Effect s e t := by
  cases e with
  | rollForward block tip =>
      obtain ⟨-, h⟩ := Option.ite_none_right_eq_some.mp h
      cases h
      exact .follower rfl rfl rfl (Or.inl rfl)
  | rollBackward point =>
      obtain ⟨-, h⟩ := Option.ite_none_right_eq_some.mp h
      cases h
      exact .follower rfl rfl rfl (Or.inl rfl)
  | save =>
      rw [step] at h
      split at h
      · exact save_effect env h
      · cases h
  | reply =>
      cases hr : s.returning with
      | none =>
          simp only [step, hr] at h
          cases h
      | some rows =>
          simp only [step, hr] at h
          cases h
          exact .replied rows hr (by rw [resent, hr]; rfl) rfl rfl rfl
  | fetch queue ids =>
      obtain ⟨-, h⟩ := Option.ite_none_right_eq_some.mp h
      cases h
      exact .fetched (taken queue ids) rfl rfl rfl rfl
  | prepare n fetchedMetadata =>
      rw [step] at h
      split at h
      · next hb =>
          cases h
          obtain ⟨xs, ys, hs, -, hset⟩ := split_at hb
          exact .moved xs ys _ _ [] rfl hs (hset _) (List.append_nil _).symm rfl
            (fun _ => Nat.zero_add _) fun _ => Nat.le_refl _
      · cases h
  | handle n =>
      obtain ⟨b, hb, h⟩ := Option.bind_eq_some_iff.mp h
      exact handle_effect hash hb h
  | publishAfter n =>
      obtain ⟨b, hb, h⟩ := Option.bind_eq_some_iff.mp h
      exact publish_effect hb h
  | finish n =>
      rw [step] at h
      split at h
      · next hb =>
          cases h
          obtain ⟨xs, ys, hs, herase, -⟩ := split_at hb
          exact .finished xs ys _ rfl hs herase rfl rfl
      · cases h
  | throw n =>
      cases hb : s.batches[n]? with
      | none =>
          simp only [step, hb] at h
          cases h
      | some b =>
          simp only [step, hb] at h
          cases h
          obtain ⟨xs, ys, hs, herase, -⟩ := split_at hb
          exact .thrown xs ys b (by rw [resent, hb]; rfl) hs herase rfl rfl

end Effects

end CardanoGraphql.JobEffects
