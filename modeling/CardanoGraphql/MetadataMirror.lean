import CardanoGraphql.JobSettlement

namespace CardanoGraphql.MetadataMirror

open HasuraBackgroundClient Worker WorkerBatch JobSettlement Fallible

inductive OptionalProperty
  | decimals
  | description
  | logo
  | name
  | ticker
  | url
deriving DecidableEq, Repr

inductive Value
  | number (value : Int)
  | text (value : String)
deriving DecidableEq, Repr

def valueOf (metadata : AssetMetadata) : OptionalProperty → Option Value
  | .decimals => metadata.decimals.map fun property => .number property.value
  | .description => metadata.description.map fun property => .text property.value
  | .logo => metadata.logo.map fun property => .text property.value
  | .name => metadata.name.map fun property => .text property.value
  | .ticker => metadata.ticker.map fun property => .text property.value
  | .url => metadata.url.map fun property => .text property.value

def column (row : Asset) : OptionalProperty → Option Value
  | .decimals => row.decimals.map .number
  | .description => row.description.map .text
  | .logo => row.logo.map .text
  | .name => row.name.map .text
  | .ticker => row.ticker.map .text
  | .url => row.url.map .text

structure Mirrors (hash : AssetMetadata → String) (row : Asset) (metadata : AssetMetadata) : Prop where
  columns : ∀ property, column row property = valueOf metadata property
  metadataHash : row.metadataHash = some (hash metadata)

structure Delivery extends Batch where
  env : Externals

def Delivery.response (d : Delivery) : List AssetMetadata :=
  match d.env.fetch with
  | .ok (some response) => response
  | _ => []

def Delivery.writtenEntry (d : Delivery) (assetId : String) : Option AssetMetadata :=
  match d.env.fetch, d.env.getAssetMetadataHashesById with
  | .ok (some response), .ok _ =>
      if (upToFailure (callsFor d.env response) d.jobs).any fun job =>
        decide (job.assetId = assetId) && (d.env.addAssetMetadata job).isOk
      then entryOf response assetId else none
  | _, _ => none

def writes (assetId : String) : Event → Bool
  | .addAssetMetadata job _ => decide (job.assetId = assetId)
  | _ => false

def held (row : Asset) (property : OptionalProperty) : Bool := (column row property).isSome

def has (metadata : AssetMetadata) (property : OptionalProperty) : Bool := (valueOf metadata property).isSome

/-- Each entry has the properties of the entry before it, the first those held before. -/
def NeverDropped : (OptionalProperty → Bool) → List AssetMetadata → Prop
  | _, [] => True
  | before, metadata :: rest =>
      (∀ property, before property = true → has metadata property = true) ∧ NeverDropped (has metadata) rest

section Deliveries

variable (hash : AssetMetadata → String) (metadataUpdateInterval : Option Nat) (assetId : String)

def deliver (rows : List Asset) (d : Delivery) : World :=
  exec (subscriptionHandler d.env hash metadataUpdateInterval d.jobs) ⟨rows, []⟩

def written (rows : List Asset) (d : Delivery) : Option AssetMetadata :=
  if (deliver hash metadataUpdateInterval rows d).events.any (writes assetId) then entryOf d.response assetId
  else none

/-- After each successful write the row of the asset mirrors the entry that was written. -/
def Mirrored : List Asset → List Delivery → Prop
  | _, [] => True
  | rows, d :: ds =>
      (∀ metadata, written hash metadataUpdateInterval assetId rows d = some metadata →
        ∀ row ∈ (deliver hash metadataUpdateInterval rows d).assets,
          row.assetId = withHexPrefix (some assetId) → Mirrors hash row metadata) ∧
      Mirrored (deliver hash metadataUpdateInterval rows d).assets ds

end Deliveries

section Rows

def applyToRow (row : Asset) : Event → Asset
  | .addAssetMetadata _ asset =>
      if row.assetId = withHexPrefix (some asset.assetId) then setMetadata asset row else row
  | _ => row

theorem foldl_applyEvent (events : List Event) (rows : List Asset) :
    events.foldl applyEvent rows = rows.map fun row => events.foldl applyToRow row := by
  induction events generalizing rows with
  | nil => exact (List.map_id rows).symm
  | cons event events ih =>
      have hstep : applyEvent rows event = rows.map fun row => applyToRow row event := by
        cases event with
        | addAssetMetadata job asset => rfl
        | publishAfter job followUp => exact (List.map_id rows).symm
        | done job error => exact (List.map_id rows).symm
      rw [List.foldl_cons, ih, hstep, List.map_map]
      rfl

theorem setMetadata_setMetadata (asset : AssetMetadataAndHash) (row : Asset) :
    setMetadata asset (setMetadata asset row) = setMetadata asset row := by
  have hor : ∀ {α : Type} (a b : Option α), a.or (a.or b) = a.or b := by
    intro α a b
    cases a <;> rfl
  simp only [setMetadata, hor]

theorem withHexPrefix_injective {a b : String} (h : withHexPrefix (some a) = withHexPrefix (some b)) : a = b := by
  rw [withHexPrefix, withHexPrefix] at h
  simpa using h

theorem foldl_applyToRow {assetId : String} {write : Option AssetMetadataAndHash} {events : List Event}
    (hevents : ∀ job other, Event.addAssetMetadata job other ∈ events →
      job.assetId = other.assetId ∧ (job.assetId = assetId → write = some other))
    {row : Asset} (hrow : row.assetId = withHexPrefix (some assetId)) :
    events.foldl applyToRow row =
      if events.any (writes assetId) then write.elim row fun asset => setMetadata asset row else row := by
  induction events generalizing row with
  | nil => rfl
  | cons event events ih =>
      have hrest : ∀ r : Asset, r.assetId = withHexPrefix (some assetId) → events.foldl applyToRow r =
          if events.any (writes assetId) then write.elim r fun asset => setMetadata asset r else r :=
        fun r hr => ih (fun job other h => hevents job other (List.mem_cons_of_mem _ h)) hr
      rw [List.foldl_cons, List.any_cons]
      cases event with
      | publishAfter job followUp => exact hrest row hrow
      | done job error => exact hrest row hrow
      | addAssetMetadata job other =>
          obtain ⟨hid, hsame⟩ := hevents job other List.mem_cons_self
          rw [applyToRow, writes]
          by_cases h : job.assetId = assetId
          · have hother : row.assetId = withHexPrefix (some other.assetId) := by rw [hrow, ← hid, h]
            rw [if_pos hother, hrest (setMetadata other row) hrow, decide_eq_true h, Bool.true_or, if_pos rfl,
              hsame h, Option.elim_some, Option.elim_some, setMetadata_setMetadata, ite_self]
          · have hother : ¬ row.assetId = withHexPrefix (some other.assetId) := by
              intro he
              exact h (hid.trans (withHexPrefix_injective (he.symm.trans hrow)))
            rw [if_neg hother, hrest row hrow, decide_eq_false h, Bool.false_or]

theorem foldl_applyToRow_assetId (events : List Event) (row : Asset) :
    (events.foldl applyToRow row).assetId = row.assetId := by
  induction events generalizing row with
  | nil => rfl
  | cons event events ih =>
      rw [List.foldl_cons, ih]
      cases event with
      | publishAfter job followUp => rfl
      | done job error => rfl
      | addAssetMetadata job other =>
          rw [applyToRow]
          split <;> rfl

theorem column_setMetadata (hash : AssetMetadata → String) (assetId : String) (metadata : AssetMetadata)
    (row : Asset) (property : OptionalProperty) :
    column (setMetadata (metadataAndHash hash assetId metadata) row) property =
      (valueOf metadata property).or (column row property) := by
  have hor : ∀ {α β γ : Type} (f : α → β) (g : β → γ) (a : Option α) (b : Option β),
      ((a.map f).or b).map g = (a.map fun x => g (f x)).or (b.map g) := by
    intro α β γ f g a b
    cases a <;> rfl
  cases property <;> exact hor _ _ _ _

theorem mirrors_setMetadata_iff (hash : AssetMetadata → String) (assetId : String)
    (metadata : AssetMetadata) (row : Asset) :
    Mirrors hash (setMetadata (metadataAndHash hash assetId metadata) row) metadata ↔
      ∀ property, held row property = true → has metadata property = true := by
  have hproperty : ∀ property, column (setMetadata (metadataAndHash hash assetId metadata) row) property =
      valueOf metadata property ↔ (held row property = true → has metadata property = true) := by
    intro property
    rw [column_setMetadata, held, has]
    cases valueOf metadata property <;> cases column row property <;> simp
  constructor
  · exact fun h property => (hproperty property).mp (h.columns property)
  · exact fun h => ⟨fun property => (hproperty property).mpr (h property), rfl⟩

theorem held_setMetadata {hash : AssetMetadata → String} {assetId : String} {metadata : AssetMetadata}
    {row : Asset} (h : ∀ property, held row property = true → has metadata property = true) :
    held (setMetadata (metadataAndHash hash assetId metadata) row) = has metadata := by
  funext property
  rw [held, ((mirrors_setMetadata_iff hash assetId metadata row).mpr h).columns, has]

end Rows

section Runs

variable (hash : AssetMetadata → String) (metadataUpdateInterval : Option Nat) (assetId : String)

theorem deliver_cases (rows : List Asset) (d : Delivery) :
    (∃ fetchedMetadata, d.env.fetch = .ok fetchedMetadata ∧ d.env.getAssetMetadataHashesById = .ok () ∧
      deliver hash metadataUpdateInterval rows d =
        World.record ⟨rows, []⟩ (eventsFrom d.env hash metadataUpdateInterval fetchedMetadata
          (getAssetMetadataHashesById rows (d.jobs.map Job.assetId)) d.jobs)) ∨
    ((∀ fetchedMetadata, ¬ (d.env.fetch = .ok fetchedMetadata ∧ d.env.getAssetMetadataHashesById = .ok ())) ∧
      deliver hash metadataUpdateInterval rows d = ⟨rows, []⟩) := by
  by_cases hcalls : ∃ fetchedMetadata, d.env.fetch = .ok fetchedMetadata ∧
      d.env.getAssetMetadataHashesById = .ok ()
  · obtain ⟨fetchedMetadata, hfetch, hquery⟩ := hcalls
    refine Or.inl ⟨fetchedMetadata, hfetch, hquery, ?_⟩
    rw [deliver, exec_subscriptionHandler _ _ _ hfetch hquery]
  · have hstopped : ∀ fetchedMetadata, ¬ (d.env.fetch = .ok fetchedMetadata ∧
        d.env.getAssetMetadataHashesById = .ok ()) := fun fetchedMetadata hboth => hcalls ⟨fetchedMetadata, hboth⟩
    refine Or.inr ⟨hstopped, ?_⟩
    rw [deliver, exec_subscriptionHandler_stopped _ _ _ hstopped]

theorem deliver_writes (rows : List Asset) (d : Delivery) {job : Job} {asset : AssetMetadataAndHash}
    (h : Event.addAssetMetadata job asset ∈ (deliver hash metadataUpdateInterval rows d).events) :
    ∃ metadata, entryOf d.response job.assetId = some metadata ∧
      asset = metadataAndHash hash job.assetId metadata := by
  rcases deliver_cases hash metadataUpdateInterval rows d with ⟨fetchedMetadata, hfetch, -, hdeliver⟩ | ⟨-, hdeliver⟩
  · rw [hdeliver, World.record, List.nil_append, eventsFrom] at h
    obtain ⟨other, -, hevent⟩ := List.mem_flatMap.mp h
    obtain ⟨rfl, hhandling, -⟩ := (mem_performEvents_write d.env metadataUpdateInterval).mp hevent
    cases fetchedMetadata with
    | none => cases hhandling
    | some response =>
        have hresponse : d.response = response := by rw [Delivery.response, hfetch]
        rw [handlingOf, Option.map_some, Option.some_inj] at hhandling
        rw [hresponse]
        cases hentry : entryOf response job.assetId with
        | none =>
            rw [handleJob_none hash response hentry] at hhandling
            cases hhandling
        | some metadata =>
            rw [handleJob_some hash response hentry] at hhandling
            split at hhandling
            · cases hhandling
            · exact ⟨metadata, rfl, (Handling.addAssetMetadata.inj hhandling).symm⟩
  · rw [hdeliver] at h
    cases h

theorem deliver_table (rows : List Asset) (d : Delivery) :
    (deliver hash metadataUpdateInterval rows d).assets =
      (deliver hash metadataUpdateInterval rows d).events.foldl applyEvent rows := by
  rcases deliver_cases hash metadataUpdateInterval rows d with ⟨fetchedMetadata, -, -, hdeliver⟩ | ⟨-, hdeliver⟩
  · rw [hdeliver]
    rfl
  · rw [hdeliver]
    rfl

theorem deliver_assets (rows : List Asset) (d : Delivery) :
    (deliver hash metadataUpdateInterval rows d).assets =
      rows.map fun row => (deliver hash metadataUpdateInterval rows d).events.foldl applyToRow row := by
  rw [deliver_table, foldl_applyEvent]

theorem any_writes (env : Externals) {response : List AssetMetadata} {metadata : AssetMetadata}
    (hentry : entryOf response assetId = some metadata) (job : Job) :
    (performEvents env metadataUpdateInterval job (some (handleJob hash response [] job.assetId))).any
        (writes assetId) = (decide (job.assetId = assetId) && (env.addAssetMetadata job).isOk) := by
  by_cases hid : job.assetId = assetId
  · rw [handleJob_some hash response (hid.symm ▸ hentry), if_neg (by simp), performEvents]
    cases env.addAssetMetadata job with
    | error e => simp [Except.isOk, Except.toBool]
    | ok u => cases env.publishAfter job <;> simp [writes, hid, Except.isOk, Except.toBool]
  · rw [decide_eq_false hid, Bool.false_and, List.any_eq_false]
    intro event hevent
    have hjob := performEvents_job env metadataUpdateInterval job _ event hevent
    cases event with
    | publishAfter other followUp => exact Bool.false_ne_true
    | done other error => exact Bool.false_ne_true
    | addAssetMetadata other asset =>
        obtain rfl : other = job := hjob
        simp [writes, hid]

theorem written_eq (table : AssetTable) (d : Delivery) :
    written hash metadataUpdateInterval assetId table.rows d = d.writtenEntry assetId := by
  rw [written, Delivery.writtenEntry]
  rcases deliver_cases hash metadataUpdateInterval table.rows d with
    ⟨fetchedMetadata, hfetch, hquery, hdeliver⟩ | ⟨hstopped, hdeliver⟩
  · cases fetchedMetadata with
    | none =>
        rw [Delivery.response, hfetch]
        exact ite_self _
    | some response =>
        have hevents := eventsFrom_batch d.env hash metadataUpdateInterval response table d.toBatch
          (d.jobs.map Job.assetId)
        rw [hdeliver, World.record, List.nil_append, hevents, List.any_flatMap, Delivery.response, hfetch, hquery]
        simp only [performResult_eq]
        cases hentry : entryOf response assetId with
        | none => rw [ite_self, ite_self]
        | some metadata => simp only [any_writes hash metadataUpdateInterval assetId d.env hentry]
  · rw [hdeliver, List.any_nil, if_neg Bool.false_ne_true]
    split
    · next response u hfetch hquery => exact absurd ⟨hfetch, hquery⟩ (hstopped _)
    · rfl

theorem deliver_row (rows : List Asset) (d : Delivery) {row : Asset}
    (hrow : row.assetId = withHexPrefix (some assetId)) :
    (deliver hash metadataUpdateInterval rows d).events.foldl applyToRow row =
      (written hash metadataUpdateInterval assetId rows d).elim row
        fun metadata => setMetadata (metadataAndHash hash assetId metadata) row := by
  have hevents : ∀ job other, Event.addAssetMetadata job other ∈
      (deliver hash metadataUpdateInterval rows d).events → job.assetId = other.assetId ∧
        (job.assetId = assetId →
          (entryOf d.response assetId).map (metadataAndHash hash assetId) = some other) := by
    intro job other h
    obtain ⟨metadata, hentry, rfl⟩ := deliver_writes hash metadataUpdateInterval rows d h
    refine ⟨rfl, fun hid => ?_⟩
    rw [hid] at hentry
    rw [hentry, hid, Option.map_some]
  rw [foldl_applyToRow hevents hrow, written]
  split
  · cases entryOf d.response assetId <;> rfl
  · rfl

theorem forall_deliver (rows : List Asset) (d : Delivery) (p : Asset → Prop) :
    (∀ row ∈ (deliver hash metadataUpdateInterval rows d).assets,
        row.assetId = withHexPrefix (some assetId) → p row) ↔
      ∀ row ∈ rows, row.assetId = withHexPrefix (some assetId) →
        p ((written hash metadataUpdateInterval assetId rows d).elim row
          fun metadata => setMetadata (metadataAndHash hash assetId metadata) row) := by
  rw [deliver_assets, List.forall_mem_map]
  apply forall₂_congr
  intro row _
  rw [foldl_applyToRow_assetId]
  apply imp_congr_right
  intro hrow
  rw [deliver_row hash metadataUpdateInterval assetId rows d hrow]

theorem deliver_mirrors_iff (rows : List Asset) (d : Delivery) {metadata : AssetMetadata}
    (hwritten : written hash metadataUpdateInterval assetId rows d = some metadata) :
    (∀ row ∈ (deliver hash metadataUpdateInterval rows d).assets,
        row.assetId = withHexPrefix (some assetId) → Mirrors hash row metadata) ↔
      ∀ row ∈ rows, row.assetId = withHexPrefix (some assetId) →
        ∀ property, held row property = true → has metadata property = true := by
  rw [forall_deliver, hwritten]
  simp only [Option.elim_some, mirrors_setMetadata_iff]

/-- The row mirrors the registry throughout exactly where no entry that is written lacks a
property of the one before it. -/
theorem mirrored_iff (table : AssetTable) (deliveries : List Delivery) :
    Mirrored hash metadataUpdateInterval assetId table.rows deliveries ↔
      ∀ row ∈ table.rows, row.assetId = withHexPrefix (some assetId) →
        NeverDropped (held row) (deliveries.filterMap fun d => d.writtenEntry assetId) := by
  induction deliveries generalizing table with
  | nil => simp [Mirrored, NeverDropped]
  | cons d deliveries ih =>
      have hrows : (deliver hash metadataUpdateInterval table.rows d).assets =
          (table.apply (deliver hash metadataUpdateInterval table.rows d).events).rows :=
        deliver_table hash metadataUpdateInterval table.rows d
      have hnext := ih (table.apply (deliver hash metadataUpdateInterval table.rows d).events)
      rw [← hrows] at hnext
      have hlater := forall_deliver hash metadataUpdateInterval assetId table.rows d
        fun row => NeverDropped (held row) (deliveries.filterMap fun d => d.writtenEntry assetId)
      rw [Mirrored, hnext, hlater]
      have hwritten := written_eq hash metadataUpdateInterval assetId table d
      cases hentry : d.writtenEntry assetId with
      | none =>
          simp [hwritten, hentry]
      | some metadata =>
          rw [hentry] at hwritten
          have hmirrors := deliver_mirrors_iff hash metadataUpdateInterval assetId table.rows d hwritten
          simp only [List.filterMap_cons, hentry, hwritten, Option.some.injEq, forall_eq', Option.elim_some,
            NeverDropped]
          rw [hmirrors]
          constructor
          · rintro ⟨hkept, hrest⟩ row hmem hrow
            have hlast := hrest row hmem hrow
            rw [held_setMetadata (hkept row hmem hrow)] at hlast
            exact ⟨hkept row hmem hrow, hlast⟩
          · intro h
            refine ⟨fun row hmem hrow => (h row hmem hrow).1, fun row hmem hrow => ?_⟩
            rw [held_setMetadata (h row hmem hrow).1]
            exact (h row hmem hrow).2

end Runs

def fetched (metadata : AssetMetadata) : Delivery where
  jobs := [⟨1, .fetchUpdate, "cafe"⟩]
  bare := by
    intro job hjob
    rw [List.mem_singleton.mp hjob]
    exact ne_withHexPrefix (by decide)
  env := answering [metadata]

def tickered : AssetMetadata := { namedEntry "cafe" "Cafe" with ticker := some ⟨"CAFE", []⟩ }

def inserted : AssetTable where
  rows := insertAssets [] [⟨"cafe", some "", 20, "asset1cafe", "cafe"⟩]
  key := by decide
  hex := by
    intro row hrow
    rw [List.mem_singleton.mp hrow]
    exact ⟨"cafe", rfl⟩

def tickerHash (metadata : AssetMetadata) : String := if metadata.ticker.isSome then "e3b0c442" else "da39a3ee"

def afterBoth : List Asset :=
  (deliver tickerHash none (deliver tickerHash none inserted.rows (fetched tickered)).assets
    (fetched (namedEntry "cafe" "Cafe"))).assets

theorem ticker_kept :
    afterBoth.map (fun row => (row.assetId, row.ticker, row.metadataHash)) =
        [("\\xcafe", some "CAFE", some (tickerHash (namedEntry "cafe" "Cafe")))] ∧
      ¬ Mirrored tickerHash none "cafe" inserted.rows
        [fetched tickered, fetched (namedEntry "cafe" "Cafe")] := by
  have hrows : afterBoth.map (fun row => (row.assetId, row.ticker, row.metadataHash)) =
      [("\\xcafe", some "CAFE", some (tickerHash (namedEntry "cafe" "Cafe")))] := by
    decide +kernel
  have hwritten : written tickerHash none "cafe"
      (deliver tickerHash none inserted.rows (fetched tickered)).assets
      (fetched (namedEntry "cafe" "Cafe")) = some (namedEntry "cafe" "Cafe") := by
    decide +kernel
  refine ⟨hrows, ?_⟩
  rintro ⟨-, hsecond, -⟩
  obtain ⟨row, hafter, hrow⟩ := List.map_eq_singleton_iff.mp hrows
  have hmem : row ∈ afterBoth := by
    rw [hafter]
    exact List.mem_singleton_self row
  have hmirrors := hsecond _ hwritten row hmem (congrArg Prod.fst hrow)
  have hticker : row.ticker = some "CAFE" := congrArg (fun shown => shown.2.1) hrow
  have hcolumn := hmirrors.columns .ticker
  rw [column, hticker] at hcolumn
  cases hcolumn

end CardanoGraphql.MetadataMirror
