import CardanoGraphql.JobSettlement

namespace CardanoGraphql.MetadataChanges

open HasuraBackgroundClient Worker WorkerBatch JobSettlement Fallible

def storedHash (rows : List Asset) (assetId : String) : Option String :=
  (rows.find? fun row => decide (row.assetId = withHexPrefix (some assetId))).bind Asset.metadataHash

def Inserted (rows : List Asset) (assetId : String) : Prop :=
  ∃ row ∈ rows, row.assetId = withHexPrefix (some assetId)

def Calls (job : Job) (events : List Event) : Prop := ∃ asset, Event.addAssetMetadata job asset ∈ events

section Changes

variable (hash : AssetMetadata → String) (metadataUpdateInterval : Option Nat)
  (response : List AssetMetadata)

def handled (rows : List Asset) (jobs : List Job) : World :=
  exec (subscriptionHandler (answering response) hash metadataUpdateInterval jobs) ⟨rows, []⟩

/-- The registry has metadata for an asset that is not what its row has. -/
def Changed (rows : List Asset) (assetId : String) : Prop :=
  ∃ metadata, entryOf response assetId = some metadata ∧ storedHash rows assetId ≠ some (hash metadata)

/-- Metadata is written where it has changed, and not to a row a second time. -/
structure WritesChanges (rows : List Asset) (jobs : List Job) : Prop where
  changed : ∀ job ∈ jobs, (Calls job (handled hash metadataUpdateInterval response rows jobs).events ↔
    Changed hash response rows job.assetId)
  again : ∀ job ∈ jobs, Inserted rows job.assetId → ¬ Calls job (handled hash metadataUpdateInterval response
    (handled hash metadataUpdateInterval response rows jobs).assets jobs).events

theorem handled_eq (table : AssetTable) (batch : Batch) :
    handled hash metadataUpdateInterval response table.rows batch.jobs =
      World.record ⟨table.rows, []⟩ (batch.jobs.flatMap fun job => performEvents (answering response)
        metadataUpdateInterval job (some (handleJob hash response [] job.assetId))) := by
  rw [handled, exec_answering]
  congr 1
  apply List.flatMap_congr
  intro job hjob
  rw [handlingOf_bare hash response table hjob]

theorem calls_iff (table : AssetTable) (batch : Batch) {job : Job} (hjob : job ∈ batch.jobs) :
    Calls job (handled hash metadataUpdateInterval response table.rows batch.jobs).events ↔
      (entryOf response job.assetId).isSome = true := by
  rw [handled_eq, World.record, List.nil_append, Calls]
  constructor
  · rintro ⟨asset, hasset⟩
    obtain ⟨other, -, hevent⟩ := List.mem_flatMap.mp hasset
    obtain ⟨rfl, hhandling, -⟩ := (mem_performEvents_write (answering response) metadataUpdateInterval).mp hevent
    cases hentry : entryOf response job.assetId with
    | some metadata => rfl
    | none =>
        rw [handleJob_none hash response hentry] at hhandling
        cases hhandling
  · intro hentry
    obtain ⟨metadata, hmetadata⟩ := Option.isSome_iff_exists.mp hentry
    refine ⟨metadataAndHash hash job.assetId metadata, List.mem_flatMap.mpr ⟨job, hjob, ?_⟩⟩
    rw [mem_performEvents_write, handleJob_some hash response hmetadata, if_neg (by simp)]
    exact ⟨rfl, rfl, rfl⟩

theorem handled_assets (table : AssetTable) (batch : Batch) :
    ∃ later : AssetTable, later.rows = (handled hash metadataUpdateInterval response table.rows batch.jobs).assets ∧
      later.rows.map Asset.assetId = table.rows.map Asset.assetId := by
  rw [handled_eq]
  exact ⟨table.apply _, rfl, foldl_applyEvent_assetId _ _⟩

theorem storedHash_eq_none {rows : List Asset} {assetId : String} (h : ¬ Inserted rows assetId) :
    storedHash rows assetId = none := by
  have hnone : (rows.find? fun row => decide (row.assetId = withHexPrefix (some assetId))) = none := by
    rw [List.find?_eq_none]
    exact fun row hrow hid => h ⟨row, hrow, of_decide_eq_true hid⟩
  rw [storedHash, hnone, Option.bind_none]

/-- The stored hashes keep nothing from being written: the writes are the changes exactly
where no asset with a row has an entry. -/
theorem writes_changes_iff (table : AssetTable) (batch : Batch) :
    WritesChanges hash metadataUpdateInterval response table.rows batch.jobs ↔
      ∀ job ∈ batch.jobs, Inserted table.rows job.assetId → entryOf response job.assetId = none := by
  constructor
  · intro h job hjob hrow
    obtain ⟨later, hlater, -⟩ := handled_assets hash metadataUpdateInterval response table batch
    have hno := h.again job hjob hrow
    rw [← hlater, calls_iff hash metadataUpdateInterval response later batch hjob] at hno
    simpa using hno
  · intro h
    constructor
    · intro job hjob
      rw [calls_iff hash metadataUpdateInterval response table batch hjob, Option.isSome_iff_exists]
      apply exists_congr
      intro metadata
      refine ⟨fun hentry => ⟨hentry, fun hstored => ?_⟩, And.left⟩
      have hnot : ¬ Inserted table.rows job.assetId := by
        intro hrow
        rw [h job hjob hrow] at hentry
        cases hentry
      rw [storedHash_eq_none hnot] at hstored
      cases hstored
    · intro job hjob hrow
      obtain ⟨later, hlater, -⟩ := handled_assets hash metadataUpdateInterval response table batch
      rw [← hlater, calls_iff hash metadataUpdateInterval response later batch hjob, h job hjob hrow]
      exact Bool.false_ne_true

end Changes

def upToDate : AssetTable where
  rows := addAssetMetadata (insertAssets [] [⟨"cafe", some "", 20, "asset1cafe", "cafe"⟩])
    (metadataAndHash AssetMetadata.subject "cafe" (namedEntry "cafe" "Cafe"))
  key := by decide
  hex := by
    intro row hrow
    rw [List.mem_singleton.mp hrow]
    exact ⟨"cafe", rfl⟩

theorem upToDate_rewritten :
    storedHash upToDate.rows "cafe" = some (AssetMetadata.subject (namedEntry "cafe" "Cafe")) ∧
      (handled AssetMetadata.subject none [namedEntry "cafe" "Cafe"] upToDate.rows
        [⟨1, .fetchUpdate, "cafe"⟩]).events =
        [.addAssetMetadata ⟨1, .fetchUpdate, "cafe"⟩
            (metadataAndHash AssetMetadata.subject "cafe" (namedEntry "cafe" "Cafe")),
          .publishAfter ⟨1, .fetchUpdate, "cafe"⟩ (followUp none "cafe")] ∧
      ¬ WritesChanges AssetMetadata.subject none [namedEntry "cafe" "Cafe"] upToDate.rows
        [⟨1, .fetchUpdate, "cafe"⟩] := by
  have hstored : storedHash upToDate.rows "cafe" = some (AssetMetadata.subject (namedEntry "cafe" "Cafe")) := by
    decide +kernel
  have hevents : (handled AssetMetadata.subject none [namedEntry "cafe" "Cafe"] upToDate.rows
      [⟨1, .fetchUpdate, "cafe"⟩]).events =
      [.addAssetMetadata ⟨1, .fetchUpdate, "cafe"⟩
          (metadataAndHash AssetMetadata.subject "cafe" (namedEntry "cafe" "Cafe")),
        .publishAfter ⟨1, .fetchUpdate, "cafe"⟩ (followUp none "cafe")] := by
    decide +kernel
  refine ⟨hstored, hevents, fun h => ?_⟩
  have hchanged := (h.changed ⟨1, .fetchUpdate, "cafe"⟩ List.mem_cons_self).mp
    ⟨_, by rw [hevents]; exact List.mem_cons_self⟩
  obtain ⟨metadata, hentry, hdiffers⟩ := hchanged
  obtain rfl : namedEntry "cafe" "Cafe" = metadata := Option.some.inj hentry
  exact hdiffers hstored

end CardanoGraphql.MetadataChanges
