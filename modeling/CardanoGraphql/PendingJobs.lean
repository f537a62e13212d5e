import CardanoGraphql.JobEffects

namespace CardanoGraphql.PendingJobs

open HasuraBackgroundClient ChainFollower Worker Runs BackgroundProcess JobEffects

def AtMostOnePending (s : Process) : Prop := ∀ assetId, pendingOf s assetId ≤ 1

/-- A process that has got no message yet, over any table and cache, with the jobs that are
left in the queues. -/
structure Started (s : Process) : Prop where
  saving : s.saving = []
  returning : s.returning = none
  batches : s.batches = []
  waiting : (s.waiting.map Job.assetId).Nodup

/-- A reply comes while none of its rows has a pending job, and a handler throws while none of
the assets it has published a follow-up for has one. -/
def NoOtherPending (s : Process) : Step → Prop
  | .reply => ∀ rows, s.returning = some rows → ∀ row ∈ rows, pendingOf s (stripHexPrefix row.assetId) = 0
  | .throw n => ∀ b, s.batches[n]? = some b → ∀ job ∈ b.replaced, pendingOf s job.assetId = 0
  | _ => True

section Runs

variable (env : Externals) (hash : AssetMetadata → String)

/-- The jobs of one batch are of different assets, and so are the rows of one reply. -/
structure Distinct (s : Process) : Prop where
  batches : ∀ b ∈ s.batches, ∀ assetId, jobsOf b.jobs assetId ≤ 1
  returning : ∀ rows, s.returning = some rows → (idsOf rows).Nodup

theorem started_distinct {s : Process} (h : Started s) : Distinct s := by
  refine ⟨fun b hb => ?_, fun rows hrows => ?_⟩
  · rw [h.batches] at hb
    cases hb
  · rw [h.returning] at hrows
    cases hrows

theorem started_atMostOne {s : Process} (h : Started s) : AtMostOnePending s := by
  intro assetId
  have hnone : handledOf s.batches assetId = 0 := by rw [h.batches]; rfl
  rw [pendingOf_eq, hnone, Nat.add_zero]
  exact List.nodup_iff_count_le_one.mp h.waiting assetId

theorem distinct_step {s t : Process} {e : Step} (hs : Distinct s) (hp : AtMostOnePending s)
    (h : Effect s e t) : Distinct t := by
  cases h with
  | follower hresent hwaiting hbatches hreturning =>
      refine ⟨by rw [hbatches]; exact hs.batches, fun rows hrows => ?_⟩
      rcases hreturning with hsame | ⟨new, hnew, hnodup⟩
      · exact hs.returning rows (hsame ▸ hrows)
      · obtain rfl : new = rows := Option.some.inj (hnew.symm.trans hrows)
        exact hnodup
  | replied rows hrows hresent hwaiting hbatches hreturning =>
      refine ⟨by rw [hbatches]; exact hs.batches, fun rows hrows => ?_⟩
      rw [hreturning] at hrows
      cases hrows
  | fetched p hresent hwaiting hbatches hreturning =>
      refine ⟨?_, by rw [hreturning]; exact hs.returning⟩
      rw [hbatches, List.forall_mem_append]
      refine ⟨hs.batches, ?_⟩
      rw [List.forall_mem_singleton]
      intro assetId
      have hone := hp assetId
      have hsplit := jobsOf_filter p s.waiting assetId
      rw [pendingOf_eq] at hone
      simp only [jobsOf_jobs, jobsOf_pending, jobsOf_nil, Option.toList]
      omega
  | moved xs ys b c back hresent hb hc hwaiting hreturning hpending hjobs =>
      refine ⟨?_, by rw [hreturning]; exact hs.returning⟩
      have hold := hs.batches
      rw [hb, List.forall_mem_append, List.forall_mem_cons] at hold
      rw [hc, List.forall_mem_append, List.forall_mem_cons]
      exact ⟨hold.1, fun assetId => (hjobs assetId).trans (hold.2.1 assetId), hold.2.2⟩
  | finished xs ys b hresent hb ht hwaiting hreturning | thrown xs ys b hresent hb ht hwaiting hreturning =>
      refine ⟨?_, by rw [hreturning]; exact hs.returning⟩
      have hold := hs.batches
      rw [hb, List.forall_mem_append, List.forall_mem_cons] at hold
      rw [ht, List.forall_mem_append]
      exact ⟨hold.1, hold.2.2⟩

theorem pendingOf_step {s t : Process} {e : Step} (h : Effect s e t) (assetId : String) :
    pendingOf t assetId ≤ pendingOf s assetId + (resent s e).count assetId ∧
      (resent s e ≠ [] → pendingOf t assetId = pendingOf s assetId + (resent s e).count assetId) := by
  rw [pendingOf_eq, pendingOf_eq]
  cases h with
  | follower hresent hwaiting hbatches hreturning =>
      rw [hresent, hwaiting, hbatches]
      exact ⟨Nat.le_refl _, fun h => absurd rfl h⟩
  | replied rows hrows hresent hwaiting hbatches hreturning =>
      rw [hresent, hwaiting, hbatches, jobsOf_append, jobsOf_newJobs]
      omega
  | fetched p hresent hwaiting hbatches hreturning =>
      have hsplit := jobsOf_filter p s.waiting assetId
      have hnil : handledOf [] assetId = 0 := rfl
      rw [hresent, hwaiting, hbatches, handledOf_append, handledOf_cons, hnil, jobsOf_pending]
      simp only [jobsOf_nil, Option.toList, ne_eq, not_true_eq_false, false_imp_iff, and_true]
      omega
  | moved xs ys b c back hresent hb hc hwaiting hreturning hpending hjobs =>
      have hmove := hpending assetId
      rw [hresent, hwaiting, hb, hc, jobsOf_append, handledOf_append, handledOf_append, handledOf_cons,
        handledOf_cons]
      simp only [ne_eq, not_true_eq_false, false_imp_iff, and_true]
      omega
  | finished xs ys b hresent hb ht hwaiting hreturning =>
      rw [hresent, hwaiting, hb, ht, handledOf_append, handledOf_append, handledOf_cons]
      simp only [ne_eq, not_true_eq_false, false_imp_iff, and_true]
      omega
  | thrown xs ys b hresent hb ht hwaiting hreturning =>
      have hreplaced : (b.replaced.map Job.assetId).count assetId = jobsOf b.replaced assetId := rfl
      rw [hresent, hwaiting, hb, ht, jobsOf_append, jobsOf_jobs, handledOf_append, handledOf_append,
        handledOf_cons, hreplaced]
      omega

theorem resent_nodup {s t : Process} {e : Step} (hs : Distinct s) (h : Effect s e t) (assetId : String) :
    (resent s e).count assetId ≤ 1 := by
  cases h with
  | replied rows hrows hresent hwaiting hbatches hreturning =>
      rw [hresent]
      exact List.nodup_iff_count_le_one.mp (hs.returning rows hrows) assetId
  | thrown xs ys b hresent hb ht hwaiting hreturning =>
      have hone := hs.batches b (by rw [hb]; simp) assetId
      have hreplaced : (b.replaced.map Job.assetId).count assetId = jobsOf b.replaced assetId := rfl
      rw [jobsOf_jobs] at hone
      rw [hresent, hreplaced]
      omega
  | follower hresent hwaiting hbatches hreturning => rw [hresent]; exact Nat.zero_le 1
  | fetched p hresent hwaiting hbatches hreturning => rw [hresent]; exact Nat.zero_le 1
  | moved xs ys b c back hresent hb hc hwaiting hreturning hpending hjobs => rw [hresent]; exact Nat.zero_le 1
  | finished xs ys b hresent hb ht hwaiting hreturning => rw [hresent]; exact Nat.zero_le 1

theorem noOtherPending_iff (s : Process) (e : Step) :
    NoOtherPending s e ↔ ∀ assetId ∈ resent s e, pendingOf s assetId = 0 := by
  cases e with
  | reply =>
      simp only [NoOtherPending, resent]
      cases s.returning with
      | none => simp [idsOf]
      | some rows => simp [idsOf]
  | throw n =>
      simp only [NoOtherPending, resent]
      cases s.batches[n]? with
      | none => simp
      | some b => simp
  | rollForward | rollBackward | save | fetch | prepare | handle | publishAfter | finish =>
      simp [NoOtherPending, resent]

theorem atMostOne_step_iff {s t : Process} {e : Step} (hs : Distinct s) (hp : AtMostOnePending s)
    (h : Effect s e t) : AtMostOnePending t ↔ NoOtherPending s e := by
  rw [noOtherPending_iff]
  constructor
  · intro ht assetId hmem
    have hsum := (pendingOf_step h assetId).2 (List.ne_nil_of_mem hmem)
    have hpos := List.count_pos_iff.mpr hmem
    have hone := ht assetId
    omega
  · intro hnone assetId
    have hsum := (pendingOf_step h assetId).1
    have hone := resent_nodup hs h assetId
    have hold := hp assetId
    by_cases hmem : assetId ∈ resent s e
    · have := hnone assetId hmem
      omega
    · have := List.count_eq_zero.mpr hmem
      omega

/-- In a run from a process that starts with at most one job left for each asset, every asset has
at most one pending job after each step exactly when every reply with new rows and every throw
after a published follow-up meets no other pending job of the asset. -/
theorem pending_once_iff {s u : Process} {steps : List Step} (hs : Started s)
    (hrun : run (step env hash) s steps = some u) :
    Throughout (step env hash) AtMostOnePending s steps ↔ EachStep (step env hash) NoOtherPending s steps := by
  refine throughout_iff (I := Distinct) ?_ ?_ (started_distinct hs) (started_atMostOne hs) hrun
  · intro a e b ha hp hab
    exact distinct_step ha hp (step_effect env hash hab)
  · intro a e b ha hp hab
    exact atMostOne_step_iff ha hp (step_effect env hash hab)

end Runs

def idle : Process := ⟨ChainFollower.start quiet [], [], none, 0, [], []⟩

theorem idle_started : Started idle := ⟨rfl, rfl, rfl, List.nodup_nil⟩

def remintSteps : List Step :=
  [.rollForward (.praos (mintBlock 10 "a1" ["61"])) (.tip 10 "a1"), .save, .reply,
    .rollBackward (.point ⟨5, "a0"⟩),
    .rollForward (.praos (mintBlock 20 "b1" ["61"])) (.tip 20 "b1"), .save, .reply]

def registered : AssetMetadata :=
  { decimals := none
    description := none
    logo := none
    name := some ⟨"token", []⟩
    owner := none
    preImage := none
    subject := policy ++ "61"
    ticker := none
    url := none }

def throwSteps : List Step :=
  [.rollForward (.praos (mintBlock 10 "a1" ["61"])) (.tip 10 "a1"), .save, .reply,
    .fetch .fetchInitial [0], .prepare 0 [registered], .handle 0, .publishAfter 0, .throw 0]

theorem remintSteps_pending :
    (run (step quiet AssetMetadata.subject) idle remintSteps).map (fun s => pendingOf s (policy ++ "61")) =
      some 2 := by
  decide +kernel

theorem two_jobs_pending :
    (∃ s, run (step quiet AssetMetadata.subject) idle remintSteps = some s ∧ pendingOf s (policy ++ "61") = 2) ∧
      (∃ s, run (step quiet AssetMetadata.subject) idle throwSteps = some s ∧ pendingOf s (policy ++ "61") = 2) ∧
      ¬ Throughout (step quiet AssetMetadata.subject) AtMostOnePending idle remintSteps := by
  have hthrow : (run (step quiet AssetMetadata.subject) idle throwSteps).map
      (fun s => pendingOf s (policy ++ "61")) = some 2 := by decide +kernel
  obtain ⟨s, hs, hremint⟩ := Option.map_eq_some_iff.mp remintSteps_pending
  obtain ⟨t, ht, hthrow⟩ := Option.map_eq_some_iff.mp hthrow
  refine ⟨⟨s, hs, hremint⟩, ⟨t, ht, hthrow⟩, fun h => ?_⟩
  have hone := h remintSteps List.prefix_rfl s hs (policy ++ "61")
  omega

theorem remintSteps_iff :
    Throughout (step quiet AssetMetadata.subject) AtMostOnePending idle remintSteps ↔
      EachStep (step quiet AssetMetadata.subject) NoOtherPending idle remintSteps := by
  obtain ⟨s, hs, -⟩ := Option.map_eq_some_iff.mp remintSteps_pending
  exact pending_once_iff quiet AssetMetadata.subject idle_started hs

end CardanoGraphql.PendingJobs
