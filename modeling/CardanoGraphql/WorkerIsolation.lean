import CardanoGraphql.MetadataMirror
import CardanoGraphql.PendingJobs
import CardanoGraphql.Unwinding

namespace CardanoGraphql.WorkerIsolation

open HasuraBackgroundClient KeyedTable ChainFollower SaveAsset Worker Runs BackgroundProcess Unwinding

def bareRow (row : Asset) : Asset :=
  { row with
    decimals := none
    description := none
    logo := none
    metadataHash := none
    name := none
    ticker := none
    url := none }

def bare (s : Follower) : Follower := { s with assets := s.assets.map bareRow }

structure ChainPart where
  follower : Follower
  saving : List SaveCall
  returning : Option (List Asset)
deriving DecidableEq, Repr

def chainPart (s : Process) : ChainPart := ⟨bare s.follower, s.saving, s.returning⟩

def ofWorker : Step → Bool
  | .rollForward _ _ | .rollBackward _ | .save | .reply => false
  | .fetch _ _ | .prepare _ _ | .handle _ | .publishAfter _ | .finish _ | .throw _ => true

section Rows

theorem keys_bare (rows : List Asset) : (rows.map bareRow).map Asset.assetId = rows.map Asset.assetId := by
  rw [List.map_map]
  rfl

theorem bare_insertInput (asset : AssetWithoutTokens) : bareRow (insertInput asset) = insertInput asset := rfl

theorem insertedAssets_bare (rows : List Asset) (sent : List AssetWithoutTokens) :
    insertedAssets (rows.map bareRow) sent = insertedAssets rows sent := by
  have hsame : ∀ (xs ys inputs : List Asset), xs.map Asset.assetId = ys.map Asset.assetId →
      newRows Asset.assetId xs inputs = newRows Asset.assetId ys inputs := by
    intro xs ys inputs hkeys
    induction inputs generalizing xs ys with
    | nil => rfl
    | cons input inputs ih =>
        have hnext : (xs ++ [input]).map Asset.assetId = (ys ++ [input]).map Asset.assetId := by
          rw [List.map_append, List.map_append, hkeys]
        rw [newRows, newRows, hkeys, ih xs ys hkeys, ih _ _ hnext]
  exact hsame _ _ _ (keys_bare rows)

theorem insertedAssets_inputs {rows : List Asset} {sent : List AssetWithoutTokens} {row : Asset}
    (h : row ∈ insertedAssets rows sent) : bareRow row = row := by
  obtain ⟨asset, -, rfl⟩ := List.mem_map.mp ((newRows_sublist Asset.assetId rows _).subset h)
  exact bare_insertInput asset

theorem insertAssets_bare (rows : List Asset) (sent : List AssetWithoutTokens) :
    (insertAssets rows sent).map bareRow = insertAssets (rows.map bareRow) sent := by
  have hnew : (insertedAssets rows sent).map bareRow = insertedAssets rows sent := by
    rw [List.map_congr_left fun row h => insertedAssets_inputs h, List.map_id']
  rw [insertAssets, insertAssets, insertAbsent_eq, insertAbsent_eq, List.map_append]
  exact congrArg₂ _ rfl (hnew.trans (insertedAssets_bare rows sent).symm)

theorem deleteAssetsAfterSlot_bare (rows : List Asset) (slotNo : Nat) :
    (deleteAssetsAfterSlot rows slotNo).map bareRow = deleteAssetsAfterSlot (rows.map bareRow) slotNo := by
  rw [deleteAssetsAfterSlot, deleteAssetsAfterSlot, List.filter_map]
  rfl

theorem addAssetMetadata_bare (rows : List Asset) (asset : AssetMetadataAndHash) :
    (addAssetMetadata rows asset).map bareRow = rows.map bareRow := by
  rw [addAssetMetadata, List.map_map]
  apply List.map_congr_left
  intro row _
  rw [Function.comp_apply]
  split <;> rfl

end Rows

section Handlers

variable {α β : Type}

/-- A handler that neither reads nor keeps the metadata of a row. -/
def Blind (h : Handler α) : Prop := ∀ s, call h (bare s) = ((call h s).1, bare (call h s).2)

theorem Blind.bind {h : Handler α} {f : α → Handler β} (hh : Blind h) (hf : ∀ a, Blind (f a)) :
    Blind (h >>= f) := by
  intro s
  rw [call_bind, call_bind, hh s]
  rcases call h s with ⟨r, t⟩
  cases r with
  | error e => rfl
  | ok a => exact hf a t

theorem blind_pure (a : α) : Blind (pure a) := fun _ => rfl

theorem blind_modify {f : Follower → Follower} (h : ∀ s, f (bare s) = bare (f s)) : Blind (modify f) :=
  fun s => congrArg (Prod.mk (Except.ok ())) (h s)

theorem blind_get_bind {f : Follower → Handler β} (h : ∀ s, f (bare s) = f s) (hf : ∀ s, Blind (f s)) :
    Blind (get >>= f) := by
  intro s
  rw [call_bind, call_bind]
  simp only [call_get, h]
  exact hf s s

variable (env : Externals)

theorem blind_dateNow : Blind (dateNow env) := fun _ => rfl

theorem blind_flushDue (tipReached : Bool) : Blind (flushDue env tipReached) := by
  refine blind_get_bind (fun s => rfl) fun s => ?_
  cases tipReached || decide (s.cacheAssets.length > 1000) with
  | true => exact blind_pure true
  | false => exact (blind_dateNow env).bind fun now => blind_pure _

theorem blind_beginSave (c : SaveCall) : Blind (beginSave env c) := by
  have hpush : Blind (modify (Follower.push (c.entry env))) := blind_modify fun s => rfl
  refine hpush.bind fun _ => (blind_flushDue env _).bind fun flush => ?_
  cases flush with
  | false => exact blind_pure none
  | true =>
      refine (blind_dateNow env).bind fun now => ?_
      have htimer : Blind (modify fun s : Follower =>
          { s with cacheTimer := now, insertCalls := s.insertCalls + 1 }) := blind_modify fun s => rfl
      exact htimer.bind fun _ => blind_get_bind (fun s => rfl) fun s => blind_pure _

theorem blind_deleteAssets (slotNo : Nat) : Blind (deleteAssets env slotNo) := by
  intro s
  have hafter : ∀ t : Follower, (bare t).deleteAfter slotNo = bare (t.deleteAfter slotNo) := by
    intro t
    simp only [Follower.deleteAfter, bare, deleteAssetsAfterSlot_bare]
  have hcalls : (bare s).deleteCalls = s.deleteCalls := rfl
  simp only [call, deleteAssets, ExceptT.run, hcalls]
  cases env.deleteCall s.deleteCalls with
  | succeeds => exact congrArg _ (hafter { s with deleteCalls := s.deleteCalls + 1 })
  | failsUnapplied => rfl
  | failsApplied => exact congrArg _ (hafter { s with deleteCalls := s.deleteCalls + 1 })

theorem blind_rollBackward (point : PointOrOrigin) : Blind (rollBackward env point) := by
  cases point with
  | origin => exact (blind_deleteAssets env 0).bind fun _ => blind_modify fun s => rfl
  | point p => exact (blind_deleteAssets env p.slot).bind fun _ => blind_modify fun s => rfl

theorem applyInsert_bare (sent : List AssetWithoutTokens) (s : Follower) :
    applyInsert sent (bare s) = bare (applyInsert sent s) := by
  simp only [applyInsert, bare, insertAssets_bare, insertedAssets_bare]

end Handlers

section Steps

variable (env : Externals) (hash : AssetMetadata → String)

theorem worker_hides {s t : Process} {e : Step} (he : ofWorker e = true) (h : step env hash s e = some t) :
    chainPart t = chainPart s := by
  cases e with
  | rollForward | rollBackward | save | reply => cases he
  | fetch queue ids =>
      obtain ⟨-, h⟩ := Option.ite_none_right_eq_some.mp h
      cases h
      rfl
  | prepare n fetchedMetadata =>
      rw [step] at h
      split at h
      · cases h
        rfl
      · cases h
  | handle n =>
      obtain ⟨b, -, h⟩ := Option.bind_eq_some_iff.mp h
      rw [handleStep] at h
      split at h
      · split at h
        · cases h
          rfl
        · cases h
          rfl
        · cases h
          simp only [chainPart, bare, addAssetMetadata_bare]
      · cases h
  | publishAfter n =>
      obtain ⟨b, -, h⟩ := Option.bind_eq_some_iff.mp h
      rw [publishStep] at h
      split at h
      · cases h
      · cases h
        rfl
  | finish n =>
      rw [step] at h
      split at h
      · cases h
        rfl
      · cases h
  | throw n =>
      rw [step] at h
      split at h
      · cases h
      · cases h
        rfl

theorem saveStep_shows {s t s' : Process} {c : SaveCall} {rest : List SaveCall}
    (hview : chainPart s = chainPart s') (h : saveStep env s c rest = some t) :
    ∃ t', saveStep env s' c rest = some t' ∧ chainPart t = chainPart t' := by
  obtain ⟨hfollower, -, hreturning⟩ := ChainPart.mk.inj hview
  obtain ⟨⟨r, u⟩, hu⟩ : ∃ p, call (beginSave env c) s.follower = p := ⟨_, rfl⟩
  obtain ⟨⟨r', u'⟩, hu'⟩ : ∃ p, call (beginSave env c) s'.follower = p := ⟨_, rfl⟩
  have hblind := blind_beginSave env c s.follower
  have hblind' := blind_beginSave env c s'.follower
  rw [hfollower, hblind', hu, hu'] at hblind
  obtain ⟨rfl, hsame⟩ := Prod.mk.inj hblind
  have hcalls : (bare s.follower).insertCalls = (bare s'.follower).insertCalls := by rw [hfollower]
  have hcalls : s.follower.insertCalls = s'.follower.insertCalls := hcalls
  rw [saveStep, hu] at h
  rw [saveStep, hu']
  cases r' with
  | error e => cases h
  | ok sent =>
      cases sent with
      | none =>
          cases h
          exact ⟨_, rfl, by simp only [chainPart, hsame, hreturning]⟩
      | some sent =>
          have hinserted : bare (applyInsert sent u) = bare (applyInsert sent u') := by
            rw [← applyInsert_bare, ← applyInsert_bare, hsame]
          have hrows : insertedAssets u.assets sent = insertedAssets u'.assets sent := by
            have hassets : u.assets.map bareRow = u'.assets.map bareRow := congrArg Follower.assets hsame.symm
            rw [← insertedAssets_bare, hassets, insertedAssets_bare]
          rw [hcalls] at h
          cases hcall : env.insertCall s'.follower.insertCalls with
          | succeeds =>
              simp only [hcall] at h
              cases h
              exact ⟨_, rfl, by simp only [chainPart, hinserted, hrows]⟩
          | failsUnapplied =>
              simp only [hcall] at h
              cases h
              exact ⟨_, rfl, by simp only [chainPart, hsame, hreturning]⟩
          | failsApplied =>
              simp only [hcall] at h
              cases h
              exact ⟨_, rfl, by simp only [chainPart, hinserted, hreturning]⟩

theorem rollBackward_shows {s s' : Process} (hfollower : bare s.follower = bare s'.follower) (point : PointOrOrigin) :
    bare (exec (rollBackward env point) s.follower) = bare (exec (rollBackward env point) s'.follower) := by
  have hblind := blind_rollBackward env point
  have hs := congrArg Prod.snd (hblind s.follower)
  have hs' := congrArg Prod.snd (hblind s'.follower)
  exact hs.symm.trans ((congrArg (exec (rollBackward env point)) hfollower).trans hs')

theorem reply_shows {s t s' : Process} (h : step env hash s .reply = some t) (hview : chainPart s = chainPart s') :
    ∃ t', step env hash s' .reply = some t' ∧ chainPart t = chainPart t' := by
  obtain ⟨hfollower, hsaving, hreturning⟩ := ChainPart.mk.inj hview
  cases hrows : s.returning with
  | none =>
      simp only [step, hrows] at h
      cases h
  | some rows =>
      simp only [step, hrows] at h
      cases h
      have hrows' : s'.returning = some rows := hreturning.symm.trans hrows
      obtain ⟨t', ht'⟩ : ∃ t', step env hash s' .reply = some t' := by
        rw [step, hrows']
        exact ⟨_, rfl⟩
      have hpublish : bare (s.follower.publish rows) = bare (s'.follower.publish rows) :=
        congrArg (Follower.publish rows) hfollower
      refine ⟨t', ht', ?_⟩
      simp only [step, hrows'] at ht'
      cases ht'
      simp only [chainPart, hpublish, hsaving]

theorem save_shows {s t s' : Process} (h : step env hash s .save = some t) (hview : chainPart s = chainPart s') :
    ∃ t', step env hash s' .save = some t' ∧ chainPart t = chainPart t' := by
  obtain ⟨-, hsaving, hreturning⟩ := ChainPart.mk.inj hview
  cases hsaves : s.saving with
  | nil =>
      simp only [step, hsaves] at h
      cases h
  | cons c rest =>
      cases hrows : s.returning with
      | some rows =>
          simp only [step, hsaves, hrows] at h
          cases h
      | none =>
          have hsaves' : s'.saving = c :: rest := hsaving.symm.trans hsaves
          have hrows' : s'.returning = none := hreturning.symm.trans hrows
          simp only [step, hsaves, hrows] at h
          simp only [step, hsaves', hrows']
          exact saveStep_shows env hview h

theorem follower_shows {s t s' : Process} {e : Step} (he : ofWorker e = false) (h : step env hash s e = some t)
    (hview : chainPart s = chainPart s') : ∃ t', step env hash s' e = some t' ∧ chainPart t = chainPart t' := by
  obtain ⟨hfollower, hsaving, hreturning⟩ := ChainPart.mk.inj hview
  cases e with
  | fetch | prepare | handle | publishAfter | finish | throw => cases he
  | rollForward block tip =>
      obtain ⟨hidle, h⟩ := Option.ite_none_right_eq_some.mp h
      cases h
      rw [hsaving, hreturning] at hidle
      refine ⟨_, if_pos hidle, ?_⟩
      simp only [chainPart, hfollower, hreturning]
  | rollBackward point =>
      obtain ⟨hidle, h⟩ := Option.ite_none_right_eq_some.mp h
      cases h
      have hsame := rollBackward_shows env hfollower point
      rw [hsaving, hreturning] at hidle
      refine ⟨_, if_pos hidle, ?_⟩
      simp only [chainPart, hsame, hsaving, hreturning]
  | reply => exact reply_shows env hash h hview
  | save => exact save_shows env hash h hview

theorem worker_unwinds : Unwinds (step env hash) ofWorker chainPart where
  hides := fun _ _ _ he h => worker_hides env hash he h
  shows := fun _ _ _ _ he h hview => follower_shows env hash he h hview

/-- However the steps of the worker come between those of the follower, the follower does what it
does alone, and the assets are those of its run alone, but for their metadata. -/
theorem follower_unaffected {s s' t : Process} {steps : List Step} (hview : chainPart s = chainPart s')
    (hrun : run (step env hash) s steps = some t) :
    ∃ t', run (step env hash) s' (steps.filter fun e => !ofWorker e) = some t' ∧ chainPart t = chainPart t' :=
  (worker_unwinds env hash).run_shown hrun hview

end Steps

section Registry

open MetadataMirror JobSettlement

/-- What the registry has answered in the steps of a run. -/
def answers (steps : List Step) : List AssetMetadata :=
  steps.flatMap fun
    | .prepare _ fetchedMetadata => fetchedMetadata
    | _ => []

def entriesFor (entries : List AssetMetadata) (row : Asset) : List AssetMetadata :=
  entries.filter fun metadata => decide (withHexPrefix (some metadata.subject) = row.assetId)

/-- Each column of metadata of the row is empty or comes from an entry for its asset. -/
structure Sourced (hash : AssetMetadata → String) (entries : List AssetMetadata) (row : Asset) : Prop where
  columns : ∀ property value, column row property = some value →
    ∃ metadata ∈ entriesFor entries row, valueOf metadata property = some value
  metadataHash : ∀ value, row.metadataHash = some value →
    ∃ metadata ∈ entriesFor entries row, hash metadata = value

variable {hash : AssetMetadata → String} {entries : List AssetMetadata}

theorem sourced_bare {row : Asset} (h : bareRow row = row) : Sourced hash entries row := by
  rw [← h]
  refine ⟨fun property value hvalue => ?_, fun value hvalue => ?_⟩
  · cases property <;> cases hvalue
  · cases hvalue

theorem Sourced.extend {row : Asset} (h : Sourced hash entries row) (more : List AssetMetadata) :
    Sourced hash (entries ++ more) row := by
  have hmem : ∀ metadata ∈ entriesFor entries row, metadata ∈ entriesFor (entries ++ more) row := by
    intro metadata hm
    rw [entriesFor, List.filter_append]
    exact List.mem_append_left _ hm
  refine ⟨fun property value hvalue => ?_, fun value hvalue => ?_⟩
  · obtain ⟨metadata, hm, heq⟩ := h.columns property value hvalue
    exact ⟨metadata, hmem metadata hm, heq⟩
  · obtain ⟨metadata, hm, heq⟩ := h.metadataHash value hvalue
    exact ⟨metadata, hmem metadata hm, heq⟩

theorem Sourced.setMetadata {row : Asset} {metadata : AssetMetadata} {assetId : String}
    (h : Sourced hash entries row) (hmem : metadata ∈ entriesFor entries row) :
    Sourced hash entries (setMetadata (metadataAndHash hash assetId metadata) row) := by
  refine ⟨fun property value hvalue => ?_, fun value hvalue => ?_⟩
  · rw [column_setMetadata, Option.or_eq_some_iff] at hvalue
    rcases hvalue with hvalue | ⟨-, hvalue⟩
    · exact ⟨metadata, hmem, hvalue⟩
    · exact h.columns property value hvalue
  · exact ⟨metadata, hmem, Option.some.inj hvalue⟩

/-- The rows and what the batches have fetched come from the given entries. -/
structure FromRegistry (hash : AssetMetadata → String) (entries : List AssetMetadata) (s : Process) : Prop where
  rows : ∀ row ∈ s.follower.assets, Sourced hash entries row
  batches : ∀ b ∈ s.batches, ∀ fetched, b.registry = some fetched → ∀ metadata ∈ fetched.1, metadata ∈ entries

theorem rollBackward_rows (env : Externals) (point : PointOrOrigin) (s : Follower) {row : Asset}
    (h : row ∈ (exec (rollBackward env point) s).assets) : row ∈ s.assets := by
  have hdelete : ∀ slotNo, row ∈ (call (deleteAssets env slotNo) s).2.assets → row ∈ s.assets := by
    intro slotNo hrow
    simp only [call, deleteAssets, ExceptT.run] at hrow
    cases hcall : env.deleteCall s.deleteCalls with
    | failsUnapplied =>
        rw [hcall] at hrow
        exact hrow
    | succeeds | failsApplied =>
        rw [hcall] at hrow
        exact (List.mem_filter.mp hrow).1
  have hlog : ∀ slotNo, row ∈ (call (deleteAssets env slotNo >>= fun _ => log [.requestNext]) s).2.assets →
      row ∈ s.assets := by
    intro slotNo hrow
    apply hdelete slotNo
    rw [call_bind] at hrow
    rcases hcall : call (deleteAssets env slotNo) s with ⟨r, t⟩
    rw [hcall] at hrow
    cases r with
    | ok u => exact hrow
    | error e => exact hrow
  cases point with
  | origin => exact hlog 0 h
  | point p => exact hlog p.slot h

theorem addAssetMetadata_sourced {rows : List Asset} {metadata : AssetMetadata}
    (h : ∀ row ∈ rows, Sourced hash entries row) (hmem : metadata ∈ entries) :
    ∀ row ∈ addAssetMetadata rows (metadataAndHash hash metadata.subject metadata), Sourced hash entries row := by
  intro row hrow
  obtain ⟨old, hold, rfl⟩ := List.mem_map.mp hrow
  split
  · next hid =>
      have hfor : metadata ∈ entriesFor entries old :=
        List.mem_filter.mpr ⟨hmem, decide_eq_true hid.symm⟩
      exact (h old hold).setMetadata hfor
  · exact h old hold

theorem FromRegistry.update {s t : Process} (h : FromRegistry hash entries s)
    (hrows : ∀ row ∈ t.follower.assets, Sourced hash entries row)
    (hbatches : ∀ b ∈ t.batches, b ∈ s.batches ∨ ∀ fetched, b.registry = some fetched →
      ∀ metadata ∈ fetched.1, metadata ∈ entries) : FromRegistry hash entries t := by
  refine ⟨hrows, fun b hb => ?_⟩
  rcases hbatches b hb with hb | hb
  · exact h.batches b hb
  · exact hb

theorem FromRegistry.extend {s : Process} (h : FromRegistry hash entries s) (more : List AssetMetadata) :
    FromRegistry hash (entries ++ more) s :=
  ⟨fun row hrow => (h.rows row hrow).extend more,
    fun b hb fetched hf metadata hm => List.mem_append_left more (h.batches b hb fetched hf metadata hm)⟩

theorem saveStep_fromRegistry (env : Externals) {s t : Process} {c : SaveCall} {rest : List SaveCall}
    (h : FromRegistry hash entries s) (hstep : saveStep env s c rest = some t) : FromRegistry hash entries t := by
  obtain ⟨u, hu, hassets, -⟩ := call_beginSave env c s.follower
  have hinserted : ∀ sent, ∀ row ∈ (applyInsert sent u).assets, Sourced hash entries row := by
    intro sent row hrow
    have hrow : row ∈ u.assets ++ insertedAssets u.assets sent := by
      rw [insertedAssets, ← insertAbsent_eq]
      exact hrow
    rcases List.mem_append.mp hrow with hrow | hrow
    · exact h.rows row (hassets ▸ hrow)
    · exact sourced_bare (insertedAssets_inputs hrow)
  rw [saveStep, hu] at hstep
  cases hd : due env (isTip c.block c.tip) (s.follower.push (c.entry env)) with
  | false =>
      rw [hd] at hstep
      cases hstep
      exact h.update (fun row hrow => h.rows row (hassets ▸ hrow)) fun b hb => Or.inl hb
  | true =>
      rw [hd] at hstep
      cases hcall : env.insertCall s.follower.insertCalls with
      | succeeds | failsApplied =>
          rw [hcall] at hstep
          cases hstep
          exact ⟨hinserted _, h.batches⟩
      | failsUnapplied =>
          rw [hcall] at hstep
          cases hstep
          exact h.update (fun row hrow => h.rows row (hassets ▸ hrow)) fun b hb => Or.inl hb

theorem handleJob_writes {fetchedMetadata : List AssetMetadata} {existing : List (String × Option String)}
    {assetId : String} {asset : AssetMetadataAndHash}
    (h : handleJob hash fetchedMetadata existing assetId = .addAssetMetadata asset) :
    ∃ metadata ∈ fetchedMetadata, metadataAndHash hash metadata.subject metadata = asset := by
  cases hentry : entryOf fetchedMetadata assetId with
  | none =>
      rw [handleJob_none hash fetchedMetadata hentry] at h
      cases h
  | some metadata =>
      have hsubject : metadata.subject = assetId := by simpa using List.find?_some hentry
      refine ⟨metadata, List.mem_of_find?_eq_some hentry, ?_⟩
      rw [handleJob_some hash fetchedMetadata hentry] at h
      split at h
      · cases h
      · rw [hsubject]
        exact Handling.addAssetMetadata.inj h

theorem handleStep_fromRegistry {s t : Process} {n : Nat} {b : Batch} (h : FromRegistry hash entries s)
    (hb : s.batches[n]? = some b) (hstep : handleStep hash s n b = some t) : FromRegistry hash entries t := by
  have hmem : b ∈ s.batches := List.mem_of_getElem? hb
  have hset : ∀ c : Batch, c.registry = b.registry → ∀ d ∈ s.batches.set n c, d ∈ s.batches ∨
      ∀ fetched, d.registry = some fetched → ∀ metadata ∈ fetched.1, metadata ∈ entries := by
    intro c hc d hd
    rcases List.mem_or_eq_of_mem_set hd with hd | rfl
    · exact Or.inl hd
    · exact Or.inr (hc ▸ h.batches b hmem)
  cases hregistry : b.registry with
  | none =>
      simp only [handleStep, hregistry] at hstep
      cases hstep
  | some fetched =>
      cases htodo : b.todo with
      | nil =>
          simp only [handleStep, hregistry, htodo] at hstep
          cases hstep
      | cons job rest =>
          cases hwriting : b.writing with
          | some other =>
              simp only [handleStep, hregistry, htodo, hwriting] at hstep
              cases hstep
          | none =>
              simp only [handleStep, hregistry, htodo, hwriting] at hstep
              cases hhandle : handleJob hash fetched.1 fetched.2 job.assetId with
              | done error =>
                  rw [hhandle] at hstep
                  cases hstep
                  exact h.update h.rows (hset _ hregistry.symm)
              | matchesLocal =>
                  rw [hhandle] at hstep
                  cases hstep
                  exact h.update h.rows (hset _ hregistry.symm)
              | addAssetMetadata asset =>
                  rw [hhandle] at hstep
                  cases hstep
                  obtain ⟨metadata, hfetched, rfl⟩ := handleJob_writes hhandle
                  have hentries := h.batches b hmem fetched hregistry metadata hfetched
                  exact h.update (addAssetMetadata_sourced h.rows hentries) (hset _ hregistry.symm)

theorem publishStep_fromRegistry {s t : Process} {n : Nat} {b : Batch} (h : FromRegistry hash entries s)
    (hb : s.batches[n]? = some b) (hstep : publishStep s n b = some t) : FromRegistry hash entries t := by
  rw [publishStep] at hstep
  split at hstep
  · cases hstep
  · cases hstep
    refine h.update h.rows fun c hc => ?_
    rcases List.mem_or_eq_of_mem_set hc with hc | rfl
    · exact Or.inl hc
    · exact Or.inr (h.batches b (List.mem_of_getElem? hb))

theorem fromRegistry_step (env : Externals) {s t : Process} {e : Step} (h : FromRegistry hash entries s)
    (hstep : step env hash s e = some t) : FromRegistry hash (entries ++ answers [e]) t := by
  have hnone : answers [e] = [] → FromRegistry hash entries t → FromRegistry hash (entries ++ answers [e]) t := by
    intro hanswers ht
    rw [hanswers, List.append_nil]
    exact ht
  cases e with
  | rollForward block tip =>
      obtain ⟨-, hstep⟩ := Option.ite_none_right_eq_some.mp hstep
      cases hstep
      exact hnone rfl (h.update h.rows fun b hb => Or.inl hb)
  | rollBackward point =>
      obtain ⟨-, hstep⟩ := Option.ite_none_right_eq_some.mp hstep
      cases hstep
      exact hnone rfl (h.update (fun row hrow => h.rows row (rollBackward_rows env point _ hrow)) fun b hb => Or.inl hb)
  | save =>
      rw [step] at hstep
      split at hstep
      · exact hnone rfl (saveStep_fromRegistry env h hstep)
      · cases hstep
  | reply =>
      rw [step] at hstep
      split at hstep
      · cases hstep
      · cases hstep
        exact hnone rfl (h.update h.rows fun b hb => Or.inl hb)
  | fetch queue ids =>
      obtain ⟨-, hstep⟩ := Option.ite_none_right_eq_some.mp hstep
      cases hstep
      refine hnone rfl (h.update h.rows fun b hb => ?_)
      rcases List.mem_append.mp hb with hb | hb
      · exact Or.inl hb
      · refine Or.inr fun fetched hfetched => ?_
        rw [List.mem_singleton.mp hb] at hfetched
        cases hfetched
  | prepare n fetchedMetadata =>
      rw [step] at hstep
      split at hstep
      · cases hstep
        refine (h.extend _).update (h.extend _).rows fun b hb => ?_
        rcases List.mem_or_eq_of_mem_set hb with hb | rfl
        · exact Or.inl hb
        · refine Or.inr fun fetched hfetched metadata hm => List.mem_append_right _ ?_
          cases hfetched
          exact List.mem_append_left _ hm
      · cases hstep
  | handle n =>
      obtain ⟨b, hb, hstep⟩ := Option.bind_eq_some_iff.mp hstep
      exact hnone rfl (handleStep_fromRegistry h hb hstep)
  | publishAfter n =>
      obtain ⟨b, hb, hstep⟩ := Option.bind_eq_some_iff.mp hstep
      exact hnone rfl (publishStep_fromRegistry h hb hstep)
  | finish n =>
      rw [step] at hstep
      split at hstep
      · cases hstep
        exact hnone rfl (h.update h.rows fun b hb => Or.inl (List.mem_of_mem_eraseIdx hb))
      · cases hstep
  | throw n =>
      rw [step] at hstep
      split at hstep
      · cases hstep
      · cases hstep
        exact hnone rfl (h.update h.rows fun b hb => Or.inl (List.mem_of_mem_eraseIdx hb))

/-- In every run, whatever a row holds of metadata comes from an entry that the registry has given
for that very asset. -/
theorem metadata_from_registry (env : Externals) {s t : Process} {steps : List Step}
    (hbatches : s.batches = []) (hrows : ∀ row ∈ s.follower.assets, Sourced hash entries row)
    (hrun : run (step env hash) s steps = some t) :
    ∀ row ∈ t.follower.assets, Sourced hash (entries ++ answers steps) row := by
  have hstart : FromRegistry hash entries s := by
    refine ⟨hrows, fun b hb => ?_⟩
    rw [hbatches] at hb
    cases hb
  have hend : FromRegistry hash (entries ++ answers steps) t := by
    clear hbatches hrows
    induction steps generalizing s entries with
    | nil =>
        cases hrun
        exact hstart.extend _
    | cons e steps ih =>
        obtain ⟨u, hu, hrest⟩ := Option.bind_eq_some_iff.mp hrun
        have hsplit : answers (e :: steps) = answers [e] ++ answers steps := by
          rw [answers, List.flatMap_cons, answers, List.flatMap_singleton, answers]
        rw [hsplit, ← List.append_assoc]
        exact ih hrest (fromRegistry_step env hstart hu)
  exact hend.rows

end Registry

section Registered

open PendingJobs

theorem throwSteps_run : (run (step quiet AssetMetadata.subject) idle throwSteps).map
    (fun s => s.follower.assets.map Asset.name) = some [some "token"] := by
  decide +kernel

theorem registered_unaffected :
    ∃ s t, run (step quiet AssetMetadata.subject) idle throwSteps = some s ∧
      run (step quiet AssetMetadata.subject) idle (throwSteps.filter fun e => !ofWorker e) = some t ∧
      s.follower.assets.map Asset.name = [some "token"] ∧ chainPart s = chainPart t := by
  obtain ⟨s, hs, hname⟩ := Option.map_eq_some_iff.mp throwSteps_run
  obtain ⟨t, ht, hsame⟩ := follower_unaffected quiet AssetMetadata.subject (Eq.refl (chainPart idle)) hs
  exact ⟨s, t, hs, ht, hname, hsame⟩

theorem registered_sourced :
    ∃ s, run (step quiet AssetMetadata.subject) idle throwSteps = some s ∧
      s.follower.assets.map Asset.name = [some "token"] ∧
      ∀ row ∈ s.follower.assets, Sourced AssetMetadata.subject [registered] row := by
  obtain ⟨s, hs, hname⟩ := Option.map_eq_some_iff.mp throwSteps_run
  refine ⟨s, hs, hname, ?_⟩
  exact @metadata_from_registry AssetMetadata.subject [] quiet idle s throwSteps rfl (List.forall_mem_nil _) hs

end Registered

end CardanoGraphql.WorkerIsolation
