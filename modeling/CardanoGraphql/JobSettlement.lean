import Mathlib.Data.List.Perm.Basic
import CardanoGraphql.WorkerBatch

namespace CardanoGraphql.JobSettlement

open HasuraBackgroundClient Worker WorkerBatch Fallible

def entryOf (response : List AssetMetadata) (assetId : String) : Option AssetMetadata :=
  response.find? fun item => decide (item.subject = assetId)

def answering (response : List AssetMetadata) : Externals :=
  { fetch := .ok (some response)
    getAssetMetadataHashesById := .ok ()
    addAssetMetadata := fun _ => .ok ()
    publishAfter := fun _ => .ok () }

def callsFor (env : Externals) (response : List AssetMetadata) (job : Job) : Except String Unit :=
  if (entryOf response job.assetId).isSome then env.addAssetMetadata job >>= fun _ => env.publishAfter job
  else .ok ()

def settlement : Event → Option (Job × Bool)
  | .done job error => some (job, error.isSome)
  | _ => none

/-- The handler returns, having called `done` once for each job, with an error exactly
where the registry has no entry. -/
structure SettledOnce (response : List AssetMetadata) (jobs : List Job)
    (returned : Except String Unit × World) : Prop where
  returns : returned.1 = .ok ()
  settled : (returned.2.events.filterMap settlement).Perm
    (jobs.map fun job => (job, (entryOf response job.assetId).isNone))

section Answered

variable (hash : AssetMetadata → String) (metadataUpdateInterval : Option Nat)
  (response : List AssetMetadata)

theorem handleJob_none {assetId : String} {existing : List (String × Option String)}
    (h : entryOf response assetId = none) : handleJob hash response existing assetId =
      .done ("Metadata for asset " ++ assetId ++ " not found in registry") := by
  rw [entryOf] at h
  rw [handleJob, h]

theorem handleJob_some {assetId : String} {existing : List (String × Option String)}
    {metadata : AssetMetadata} (h : entryOf response assetId = some metadata) :
    handleJob hash response existing assetId =
      if (existing.find? fun item => decide (item.1 = assetId)).bind Prod.snd = some (hash metadata)
      then .matchesLocal else .addAssetMetadata (metadataAndHash hash assetId metadata) := by
  rw [entryOf] at h
  rw [handleJob, h]

theorem performResult_eq (env : Externals) (response : List AssetMetadata) (job : Job) :
    performResult env job (some (handleJob hash response [] job.assetId)) = callsFor env response job := by
  rw [callsFor]
  cases hentry : entryOf response job.assetId with
  | none =>
      rw [handleJob_none hash response hentry]
      rfl
  | some metadata =>
      rw [handleJob_some hash response hentry, if_neg (by simp)]
      rfl

theorem performResult_answering (job : Job) (existing : List (String × Option String)) :
    performResult (answering response) job (handlingOf hash (some response) existing job) = .ok () := by
  rw [handlingOf, Option.map_some]
  cases handleJob hash response existing job.assetId <;> rfl

theorem exec_answering (jobs : List Job) (s : World) :
    exec (subscriptionHandler (answering response) hash metadataUpdateInterval jobs) s =
      s.record (jobs.flatMap fun job => performEvents (answering response) metadataUpdateInterval job
        (handlingOf hash (some response) (getAssetMetadataHashesById s.assets (jobs.map Job.assetId)) job)) := by
  rw [exec_subscriptionHandler _ _ _ rfl rfl, eventsFrom,
    upToFailure_of_ok fun job _ => performResult_answering hash response job _]

theorem call_answering_ok (jobs : List Job) (s : World) :
    (call (subscriptionHandler (answering response) hash metadataUpdateInterval jobs) s).1 = .ok () := by
  rw [subscriptionHandler]
  simp only [call_bind, call_outcome, answering, call_get]
  refine call_forM_ok (fun job _ t => ?_) s
  exact (congrArg Prod.fst (call_perform (answering response) metadataUpdateInterval job _ t)).trans
    (performResult_answering hash response job _)

theorem settlement_performEvents (job : Job) (existing : List (String × Option String)) :
    (performEvents (answering response) metadataUpdateInterval job
        (handlingOf hash (some response) existing job)).filterMap settlement =
      if (entryOf response job.assetId).isNone then [(job, true)] else [] := by
  rw [handlingOf, Option.map_some]
  cases hentry : entryOf response job.assetId with
  | none =>
      rw [handleJob_none hash response hentry]
      rfl
  | some metadata =>
      rw [handleJob_some hash response hentry]
      split <;> rfl

theorem settlements_eq (jobs : List Job) (existing : List (String × Option String)) :
    (jobs.flatMap fun job => performEvents (answering response) metadataUpdateInterval job
        (handlingOf hash (some response) existing job)).filterMap settlement =
      (jobs.filter fun job => (entryOf response job.assetId).isNone).map fun job => (job, true) := by
  induction jobs with
  | nil => rfl
  | cons job jobs ih =>
      rw [List.flatMap_cons, List.filterMap_append, ih, settlement_performEvents]
      cases hentry : (entryOf response job.assetId).isNone with
      | true => rw [List.filter_cons_of_pos (by simpa using hentry), List.map_cons]; rfl
      | false => rw [List.filter_cons_of_neg (by simp [hentry])]; rfl

/-- A batch is settled exactly where the registry has an entry for none of its jobs. -/
theorem settled_once_iff (jobs : List Job) (rows : List Asset) :
    SettledOnce response jobs
        (call (subscriptionHandler (answering response) hash metadataUpdateInterval jobs) ⟨rows, []⟩) ↔
      ∀ job ∈ jobs, entryOf response job.assetId = none := by
  have hevents : (call (subscriptionHandler (answering response) hash metadataUpdateInterval jobs)
      ⟨rows, []⟩).2.events.filterMap settlement =
      (jobs.filter fun job => (entryOf response job.assetId).isNone).map fun job => (job, true) := by
    refine (congrArg (fun t : World => t.events.filterMap settlement)
      (exec_answering hash metadataUpdateInterval response jobs ⟨rows, []⟩)).trans ?_
    exact settlements_eq hash metadataUpdateInterval response jobs _
  constructor
  · intro h
    have hlength := h.settled.length_eq
    rw [hevents, List.length_map, List.length_map, List.length_filter_eq_length_iff] at hlength
    exact fun job hjob => Option.isNone_iff_eq_none.mp (hlength job hjob)
  · intro h
    refine ⟨call_answering_ok hash metadataUpdateInterval response jobs _, ?_⟩
    rw [hevents, List.filter_eq_self.mpr fun job hjob => by rw [h job hjob, Option.isNone_none]]
    apply List.Perm.of_eq
    apply List.map_congr_left
    intro job hjob
    rw [h job hjob, Option.isNone_none]

def namedEntry (subject name : String) : AssetMetadata :=
  { decimals := none
    description := none
    logo := none
    name := some ⟨name, []⟩
    owner := none
    preImage := none
    subject := subject
    ticker := none
    url := none }

theorem registered_unsettled :
    (exec (subscriptionHandler (answering [namedEntry "cafe" "Cafe"]) AssetMetadata.subject none
        [⟨1, .fetchInitial, "cafe"⟩]) ⟨[], []⟩).events.filterMap settlement = [] ∧
      ¬ SettledOnce [namedEntry "cafe" "Cafe"] [⟨1, .fetchInitial, "cafe"⟩]
        (call (subscriptionHandler (answering [namedEntry "cafe" "Cafe"]) AssetMetadata.subject none
          [⟨1, .fetchInitial, "cafe"⟩]) ⟨[], []⟩) := by
  have hnone : (exec (subscriptionHandler (answering [namedEntry "cafe" "Cafe"]) AssetMetadata.subject none
      [⟨1, .fetchInitial, "cafe"⟩]) ⟨[], []⟩).events.filterMap settlement = [] := by
    decide +kernel
  refine ⟨hnone, fun h => ?_⟩
  have hlength := h.settled.length_eq
  rw [exec] at hnone
  rw [hnone] at hlength
  cases hlength

end Answered

end CardanoGraphql.JobSettlement
