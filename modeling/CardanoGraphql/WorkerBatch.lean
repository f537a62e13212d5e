import CardanoGraphql.Fallible
import CardanoGraphql.Worker

namespace CardanoGraphql.WorkerBatch

open HasuraBackgroundClient Worker Fallible

/-- What `publishAfter` is called with. -/
structure FollowUp where
  queue : Queue
  assetId : String
  retryDelay : Nat
  startAfter : Nat
deriving DecidableEq, Repr

/-- What the handler does for a job; a call counts once it has resolved. -/
inductive Event
  | addAssetMetadata (job : Job) (asset : AssetMetadataAndHash)
  | publishAfter (job : Job) (followUp : FollowUp)
  | done (job : Job) (error : Option String)
deriving DecidableEq, Repr

def Event.job : Event → Job
  | .addAssetMetadata job _ => job
  | .publishAfter job _ => job
  | .done job _ => job

/-- What the calls of one run of the handler meet. The registry's client resolves with
nothing where its host is not found. -/
structure Externals where
  fetch : Except String (Option (List AssetMetadata))
  getAssetMetadataHashesById : Except String Unit
  addAssetMetadata : Job → Except String Unit
  publishAfter : Job → Except String Unit

structure World where
  assets : List Asset
  events : List Event
deriving DecidableEq, Repr

def applyEvent (assets : List Asset) : Event → List Asset
  | .addAssetMetadata _ asset => addAssetMetadata assets asset
  | _ => assets

def World.record (s : World) (events : List Event) : World :=
  { assets := events.foldl applyEvent s.assets, events := s.events ++ events }

def sixHours : Nat := 21600

section Handler

variable (env : Externals) (hash : AssetMetadata → String) (metadataUpdateInterval : Option Nat)

def followUp (assetId : String) : FollowUp :=
  { queue := .fetchUpdate
    assetId := assetId
    retryDelay := metadataUpdateInterval.getD sixHours
    startAfter := metadataUpdateInterval.getD sixHours }

def emit (event : Event) : Program World Unit := modify fun s => s.record [event]

def perform (job : Job) : Option Handling → Program World Unit
  | none => throw "Cannot read property 'find' of undefined"
  | some (.done error) => emit (.done job (some error))
  | some .matchesLocal => pure ()
  | some (.addAssetMetadata asset) => do
      outcome (env.addAssetMetadata job)
      emit (.addAssetMetadata job asset)
      outcome (env.publishAfter job)
      emit (.publishAfter job (followUp metadataUpdateInterval job.assetId))

def handlingOf (fetchedMetadata : Option (List AssetMetadata))
    (existingAssetMetadataHashes : List (String × Option String)) (job : Job) : Option Handling :=
  fetchedMetadata.map fun metadata => handleJob hash metadata existingAssetMetadataHashes job.assetId

def subscriptionHandler (jobs : List Job) : Program World Unit := do
  let assetIds := jobs.map Job.assetId
  let fetchedMetadata ← outcome env.fetch
  outcome env.getAssetMetadataHashesById
  let s ← get
  let existingAssetMetadataHashes := getAssetMetadataHashesById s.assets assetIds
  forM jobs fun job => perform env metadataUpdateInterval job
    (handlingOf hash fetchedMetadata existingAssetMetadataHashes job)

def performResult (job : Job) : Option Handling → Except String Unit
  | none => .error "Cannot read property 'find' of undefined"
  | some (.done _) => .ok ()
  | some .matchesLocal => .ok ()
  | some (.addAssetMetadata _) => env.addAssetMetadata job >>= fun _ => env.publishAfter job

def performEvents (job : Job) : Option Handling → List Event
  | none => []
  | some (.done error) => [.done job (some error)]
  | some .matchesLocal => []
  | some (.addAssetMetadata asset) =>
      match env.addAssetMetadata job, env.publishAfter job with
      | .error _, _ => []
      | .ok _, .error _ => [.addAssetMetadata job asset]
      | .ok _, .ok _ =>
          [.addAssetMetadata job asset, .publishAfter job (followUp metadataUpdateInterval job.assetId)]

end Handler

theorem World.record_append (s : World) (xs ys : List Event) :
    (s.record xs).record ys = s.record (xs ++ ys) := by
  rw [World.record, World.record, World.record, List.foldl_append, List.append_assoc]

theorem World.record_nil (s : World) : s.record [] = s := by
  rw [World.record, List.append_nil]
  rfl

@[simp] theorem call_emit (event : Event) (s : World) : call (emit event) s = (.ok (), s.record [event]) := rfl

section Spec

variable (env : Externals) (hash : AssetMetadata → String) (metadataUpdateInterval : Option Nat)

theorem call_perform (job : Job) (handling : Option Handling) (s : World) :
    call (perform env metadataUpdateInterval job handling) s =
      (performResult env job handling, s.record (performEvents env metadataUpdateInterval job handling)) := by
  rcases handling with _ | (error | _ | asset)
  · rw [perform, call_throw, performResult, performEvents, World.record_nil]
  · rfl
  · rw [perform, call_pure, performResult, performEvents, World.record_nil]
  · rw [perform, performResult, performEvents, call_bind, call_outcome]
    cases hadd : env.addAssetMetadata job with
    | error e =>
        simp only [World.record_nil]
        rfl
    | ok u =>
        cases hpublish : env.publishAfter job with
        | error e =>
            simp only [call_bind, call_emit, call_outcome]
            rfl
        | ok v =>
            simp only [call_bind, call_emit, call_outcome, World.record_append, List.cons_append,
              List.nil_append]
            rfl

def eventsFrom (fetchedMetadata : Option (List AssetMetadata))
    (existingAssetMetadataHashes : List (String × Option String)) (jobs : List Job) : List Event :=
  (upToFailure (fun job => performResult env job
      (handlingOf hash fetchedMetadata existingAssetMetadataHashes job)) jobs).flatMap fun job =>
    performEvents env metadataUpdateInterval job
      (handlingOf hash fetchedMetadata existingAssetMetadataHashes job)

theorem foldl_record {α : Type} (f : α → List Event) (xs : List α) (s : World) :
    xs.foldl (fun t x => t.record (f x)) s = s.record (xs.flatMap f) := by
  induction xs generalizing s with
  | nil => exact s.record_nil.symm
  | cons x xs ih => rw [List.foldl_cons, ih, World.record_append, List.flatMap_cons]

theorem exec_subscriptionHandler {fetchedMetadata : Option (List AssetMetadata)}
    (hfetch : env.fetch = .ok fetchedMetadata) (hquery : env.getAssetMetadataHashesById = .ok ())
    (jobs : List Job) (s : World) :
    exec (subscriptionHandler env hash metadataUpdateInterval jobs) s =
      s.record (eventsFrom env hash metadataUpdateInterval fetchedMetadata
        (getAssetMetadataHashesById s.assets (jobs.map Job.assetId)) jobs) := by
  have hresult : ∀ (job : Job) (t : World), (call (perform env metadataUpdateInterval job
      (handlingOf hash fetchedMetadata (getAssetMetadataHashesById s.assets (jobs.map Job.assetId)) job)) t).1 =
      performResult env job
        (handlingOf hash fetchedMetadata (getAssetMetadataHashesById s.assets (jobs.map Job.assetId)) job) :=
    fun job t => by rw [call_perform]
  have hloop := exec_forM hresult jobs s
  simp only [exec, call_perform] at hloop
  rw [exec, subscriptionHandler]
  simp only [call_bind, call_outcome, hfetch, hquery, call_get]
  exact hloop.trans (foldl_record _ _ s)

theorem exec_subscriptionHandler_stopped
    (h : ∀ fetchedMetadata, ¬ (env.fetch = .ok fetchedMetadata ∧ env.getAssetMetadataHashesById = .ok ()))
    (jobs : List Job) (s : World) :
    exec (subscriptionHandler env hash metadataUpdateInterval jobs) s = s := by
  rw [exec, subscriptionHandler]
  cases hfetch : env.fetch with
  | error e => simp
  | ok fetchedMetadata =>
      cases hquery : env.getAssetMetadataHashesById with
      | error e => simp
      | ok u => exact absurd ⟨hfetch, hquery⟩ (h fetchedMetadata)

theorem performEvents_job (job : Job) (handling : Option Handling) :
    ∀ event ∈ performEvents env metadataUpdateInterval job handling, event.job = job := by
  intro event hevent
  rcases handling with _ | (error | _ | asset)
  · cases hevent
  · rw [List.mem_singleton.mp hevent]
    rfl
  · cases hevent
  · rw [performEvents] at hevent
    split at hevent
    · cases hevent
    · rw [List.mem_singleton.mp hevent]
      rfl
    · rcases List.mem_cons.mp hevent with rfl | hevent
      · rfl
      · rw [List.mem_singleton.mp hevent]
        rfl

theorem mem_performEvents_write {job other : Job} {handling : Option Handling} {asset : AssetMetadataAndHash} :
    Event.addAssetMetadata job asset ∈ performEvents env metadataUpdateInterval other handling ↔
      job = other ∧ handling = some (.addAssetMetadata asset) ∧ env.addAssetMetadata other = .ok () := by
  rcases handling with _ | (error | _ | needed)
  · simp [performEvents]
  · simp [performEvents]
  · simp [performEvents]
  · rw [performEvents]
    cases env.addAssetMetadata other with
    | error e => simp
    | ok u => cases env.publishAfter other <;> simp [eq_comm]

end Spec

section WellFormed

/-- The table `Asset`, with its primary key of type `bytea`. -/
structure AssetTable where
  rows : List Asset
  key : (rows.map Asset.assetId).Nodup
  hex : ∀ row ∈ rows, ∃ value, row.assetId = withHexPrefix (some value)

structure Batch where
  jobs : List Job
  bare : ∀ job ∈ jobs, ∀ value, job.assetId ≠ withHexPrefix (some value)

theorem foldl_applyEvent_assetId (events : List Event) (assets : List Asset) :
    (events.foldl applyEvent assets).map Asset.assetId = assets.map Asset.assetId := by
  induction events generalizing assets with
  | nil => rfl
  | cons event events ih =>
      rw [List.foldl_cons, ih]
      cases event with
      | addAssetMetadata job asset => exact addAssetMetadata_assetId assets asset
      | publishAfter job followUp => rfl
      | done job error => rfl

def AssetTable.apply (table : AssetTable) (events : List Event) : AssetTable where
  rows := events.foldl applyEvent table.rows
  key := by
    rw [foldl_applyEvent_assetId]
    exact table.key
  hex := by
    intro row hrow
    have hid : row.assetId ∈ table.rows.map Asset.assetId := by
      rw [← foldl_applyEvent_assetId events]
      exact List.mem_map_of_mem hrow
    obtain ⟨before, hbefore, hsame⟩ := List.mem_map.mp hid
    rw [← hsame]
    exact table.hex before hbefore

theorem handlingOf_bare (hash : AssetMetadata → String) (response : List AssetMetadata) (table : AssetTable)
    {batch : Batch} {job : Job} (hjob : job ∈ batch.jobs) (assetIds : List String) :
    handlingOf hash (some response) (getAssetMetadataHashesById table.rows assetIds) job =
      some (handleJob hash response [] job.assetId) := by
  have hnone : (getAssetMetadataHashesById table.rows assetIds).find?
      (fun item => decide (item.1 = job.assetId)) = none := by
    rw [List.find?_eq_none]
    intro item hitem hid
    obtain ⟨row, hrow, rfl⟩ := List.mem_map.mp hitem
    obtain ⟨value, hvalue⟩ := table.hex row (List.mem_filter.mp hrow).1
    exact batch.bare job hjob value ((of_decide_eq_true hid).symm.trans hvalue)
  rw [handlingOf, Option.map_some, handleJob, handleJob, hnone, List.find?_nil]

theorem eventsFrom_batch (env : Externals) (hash : AssetMetadata → String) (metadataUpdateInterval : Option Nat)
    (response : List AssetMetadata) (table : AssetTable) (batch : Batch) (assetIds : List String) :
    eventsFrom env hash metadataUpdateInterval (some response) (getAssetMetadataHashesById table.rows assetIds)
        batch.jobs =
      (upToFailure (fun job => performResult env job (some (handleJob hash response [] job.assetId)))
        batch.jobs).flatMap fun job =>
          performEvents env metadataUpdateInterval job (some (handleJob hash response [] job.assetId)) := by
  have hsame : upToFailure (fun job => performResult env job (handlingOf hash (some response)
      (getAssetMetadataHashesById table.rows assetIds) job)) batch.jobs =
      upToFailure (fun job => performResult env job (some (handleJob hash response [] job.assetId)))
        batch.jobs := by
    apply upToFailure_congr
    intro job hjob
    rw [handlingOf_bare hash response table hjob]
  rw [eventsFrom, hsame]
  apply List.flatMap_congr
  intro job hjob
  rw [handlingOf_bare hash response table (mem_of_mem_upToFailure hjob)]

theorem ne_withHexPrefix {assetId : String} (h : assetId.toList.head? ≠ some '\\') (value : String) :
    assetId ≠ withHexPrefix (some value) := by
  rintro rfl
  rw [withHexPrefix, String.toList_append] at h
  exact h rfl

end WellFormed

end CardanoGraphql.WorkerBatch
