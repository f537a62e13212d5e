import CardanoGraphql.Runs
import CardanoGraphql.SaveAsset
import CardanoGraphql.Worker

namespace CardanoGraphql.BackgroundProcess

open HasuraBackgroundClient ChainFollower SaveAsset Worker Runs

/-- A batch in its handler: what was fetched for it, the jobs the loop has still to take, the
one whose metadata is written and whose follow-up is not published yet, the ones that need
no follow-up, and the ones that their follow-up has replaced. -/
structure Batch where
  registry : Option (List AssetMetadata × List (String × Option String))
  todo : List Job
  writing : Option Job
  settled : List Job
  replaced : List Job
deriving DecidableEq, Repr

/-- The background process: the follower with the saves left of the block it processes and
the reply it has got, the jobs waiting in the two queues and the batches being handled. -/
structure Process where
  follower : Follower
  saving : List SaveCall
  returning : Option (List Asset)
  created : Nat
  waiting : List Job
  batches : List Batch
deriving DecidableEq, Repr

inductive Step
  | rollForward (block : Block) (tip : Tip)
  | rollBackward (point : PointOrOrigin)
  | save
  | reply
  | fetch (queue : Queue) (ids : List Nat)
  | prepare (n : Nat) (fetchedMetadata : List AssetMetadata)
  | handle (n : Nat)
  | publishAfter (n : Nat)
  | finish (n : Nat)
  | throw (n : Nat)
deriving DecidableEq, Repr

def blockSaves (block : Block) (tip : Tip) : List SaveCall :=
  match block.body with
  | none => []
  | some b => (mintsOf b).map fun m => ⟨m.1, some m.2, b, tip⟩

def newJobs (queue : Queue) (id : Nat) : List String → List Job
  | [] => []
  | assetId :: assetIds => ⟨id, queue, assetId⟩ :: newJobs queue (id + 1) assetIds

def taken (queue : Queue) (ids : List Nat) (job : Job) : Bool :=
  decide (job.queue = queue) && decide (job.id ∈ ids)

def Batch.pending (b : Batch) : List Job := b.todo ++ (b.writing.toList ++ b.settled)

def Batch.jobs (b : Batch) : List Job := b.pending ++ b.replaced

def idsOf (rows : List Asset) : List String := rows.map fun row => stripHexPrefix row.assetId

variable (env : Externals) (hash : AssetMetadata → String)

/-- The next save of the block, up to its reply. An insert that throws ends the block. -/
def saveStep (s : Process) (c : SaveCall) (rest : List SaveCall) : Option Process :=
  match call (beginSave env c) s.follower with
  | (.ok none, t) => some { s with follower := t, saving := rest }
  | (.ok (some sent), t) =>
      match env.insertCall s.follower.insertCalls with
      | .succeeds => some { s with
          follower := applyInsert sent t
          saving := rest
          returning := some (insertedAssets t.assets sent) }
      | .failsUnapplied => some { s with follower := t, saving := [] }
      | .failsApplied => some { s with follower := applyInsert sent t, saving := [] }
  | (.error _, _) => none

/-- The loop of a batch takes its next job. A job that is done with an error waits for its retry. -/
def handleStep (s : Process) (n : Nat) (b : Batch) : Option Process :=
  match b.registry, b.todo, b.writing with
  | some (fetchedMetadata, existing), job :: rest, none =>
      match handleJob hash fetchedMetadata existing job.assetId with
      | .done _ => some { s with
          waiting := s.waiting ++ [job]
          batches := s.batches.set n { b with todo := rest } }
      | .matchesLocal => some { s with
          batches := s.batches.set n { b with todo := rest, settled := b.settled ++ [job] } }
      | .addAssetMetadata asset => some { s with
          follower := { s.follower with assets := addAssetMetadata s.follower.assets asset }
          batches := s.batches.set n { b with todo := rest, writing := some job } }
  | _, _, _ => none

def publishStep (s : Process) (n : Nat) (b : Batch) : Option Process :=
  match b.writing with
  | none => none
  | some job => some { s with
      created := s.created + 1
      waiting := s.waiting ++ [⟨s.created, .fetchUpdate, job.assetId⟩]
      batches := s.batches.set n { b with writing := none, replaced := b.replaced ++ [job] } }

/-- One step of the process. A step between two awaits of a handler is not interrupted; all
the jobs of a batch whose handler throws are retried. -/
def step (s : Process) : Step → Option Process
  | .rollForward block tip =>
      if s.saving = [] ∧ s.returning = none then some { s with saving := blockSaves block tip } else none
  | .rollBackward point =>
      if s.saving = [] ∧ s.returning = none then
        some { s with follower := exec (rollBackward env point) s.follower }
      else none
  | .save =>
      match s.saving, s.returning with
      | c :: rest, none => saveStep env s c rest
      | _, _ => none
  | .reply =>
      match s.returning with
      | none => none
      | some rows => some { s with
          follower := s.follower.publish rows
          returning := none
          created := s.created + rows.length
          waiting := s.waiting ++ newJobs .fetchInitial s.created (idsOf rows) }
  | .fetch queue ids =>
      if (s.waiting.filter (taken queue ids)).length ≤ batchSize then
        some { s with
          waiting := s.waiting.filter fun job => !taken queue ids job
          batches := s.batches ++ [⟨none, s.waiting.filter (taken queue ids), none, [], []⟩] }
      else none
  | .prepare n fetchedMetadata =>
      match s.batches[n]? with
      | some ⟨none, todo, writing, settled, replaced⟩ =>
          let existing := getAssetMetadataHashesById s.follower.assets (todo.map Job.assetId)
          some { s with
            batches := s.batches.set n ⟨some (fetchedMetadata, existing), todo, writing, settled, replaced⟩ }
      | _ => none
  | .handle n => s.batches[n]?.bind (handleStep hash s n)
  | .publishAfter n => s.batches[n]?.bind (publishStep s n)
  | .finish n =>
      match s.batches[n]? with
      | some ⟨some _, [], none, _, _⟩ => some { s with batches := s.batches.eraseIdx n }
      | _ => none
  | .throw n =>
      match s.batches[n]? with
      | none => none
      | some b => some { s with
          waiting := s.waiting ++ b.jobs
          batches := s.batches.eraseIdx n }

section Alone

theorem exec_saveAll_split (b : BlockBody) (tip : Tip) (m : String × String) (ms : List (String × String))
    (s : Follower) : exec (saveAll env b tip (m :: ms)) s =
      match call (saveAsset env m.1 (some m.2) b tip) s with
      | (.ok _, t) => exec (saveAll env b tip ms) t
      | (.error _, t) => t := by
  rw [exec, call_saveAll_cons]
  rcases call (saveAsset env m.1 (some m.2) b tip) s with ⟨r, t⟩
  cases r <;> rfl

/-- The saves of a block that nothing else comes between do what the walk over the block does. -/
theorem saves_alone (b : BlockBody) (tip : Tip) (mints : List (String × String)) (s : Process)
    (hsaving : s.saving = mints.map fun m => ⟨m.1, some m.2, b, tip⟩) (hreturning : s.returning = none) :
    ∃ steps t, run (step env hash) s steps = some t ∧
      t.follower = exec (saveAll env b tip mints) s.follower ∧ t.saving = [] ∧ t.returning = none := by
  induction mints generalizing s with
  | nil => exact ⟨[], s, rfl, rfl, hsaving, hreturning⟩
  | cons m ms ih =>
      obtain ⟨c, hc⟩ : ∃ c : SaveCall, c = ⟨m.1, some m.2, b, tip⟩ := ⟨_, rfl⟩
      have hsaving : s.saving = c :: ms.map fun m => ⟨m.1, some m.2, b, tip⟩ := by rw [hsaving, hc]; rfl
      have hcall : call (saveAsset env m.1 (some m.2) b tip) s.follower =
          call (saveAsset env c.policyId c.assetName c.block c.tip) s.follower := by rw [hc]
      have hstep : step env hash s .save =
          saveStep env s c (ms.map fun m => ⟨m.1, some m.2, b, tip⟩) := by
        simp only [step, hsaving, hreturning]
      obtain ⟨u, hu, -⟩ := call_beginSave env c s.follower
      rw [exec_saveAll_split, hcall, call_saveAsset, hu]
      rw [saveStep, hu] at hstep
      cases hd : due env (isTip c.block c.tip) (s.follower.push (c.entry env)) with
      | false =>
          rw [hd] at hstep
          obtain ⟨steps, t, hrun, ht⟩ :=
            ih { s with follower := u, saving := ms.map fun m => ⟨m.1, some m.2, b, tip⟩ } rfl hreturning
          exact ⟨.save :: steps, t, (run_cons _ hstep steps).trans hrun, ht⟩
      | true =>
          rw [hd] at hstep
          cases hinsert : env.insertCall s.follower.insertCalls with
          | succeeds =>
              simp only [hinsert, if_true] at hstep ⊢
              obtain ⟨v, hv⟩ : ∃ v, step env hash { s with
                  follower := applyInsert u.cacheAssets u
                  saving := ms.map fun m => ⟨m.1, some m.2, b, tip⟩
                  returning := some (insertedAssets u.assets u.cacheAssets) } .reply = some v := ⟨_, rfl⟩
              obtain ⟨steps, t, hrun, ht⟩ := ih v (by cases hv; rfl) (by cases hv; rfl)
              refine ⟨.save :: .reply :: steps, t, ?_, ?_⟩
              · rw [run_cons _ hstep, run_cons _ hv, hrun]
              · cases hv
                exact ht
          | failsUnapplied =>
              simp only [hinsert, if_true] at hstep ⊢
              exact ⟨[.save], { s with follower := u, saving := [] }, run_cons _ hstep [], rfl, rfl, hreturning⟩
          | failsApplied =>
              simp only [hinsert, if_true] at hstep ⊢
              exact ⟨[.save], { s with follower := applyInsert u.cacheAssets u, saving := [] },
                run_cons _ hstep [], rfl, rfl, hreturning⟩

theorem rollForward_alone (block : Block) (tip : Tip) (s : Process) (hsaving : s.saving = [])
    (hreturning : s.returning = none) :
    ∃ steps t, run (step env hash) s (.rollForward block tip :: steps) = some t ∧
      t.follower = exec (saveBlock env block tip) s.follower ∧ t.saving = [] ∧ t.returning = none := by
  have hstep : step env hash s (.rollForward block tip) = some { s with saving := blockSaves block tip } :=
    if_pos ⟨hsaving, hreturning⟩
  cases hbody : block.body with
  | none =>
      refine ⟨[], { s with saving := blockSaves block tip }, run_cons _ hstep [], ?_, ?_, hreturning⟩
      · rw [exec_saveBlock, hbody]
      · simp only [blockSaves, hbody]
  | some b =>
      obtain ⟨steps, t, hrun, ht, hrest⟩ := saves_alone env hash b tip (mintsOf b)
        { s with saving := blockSaves block tip } (by simp only [blockSaves, hbody]) hreturning
      exact ⟨steps, t, (run_cons _ hstep steps).trans hrun, by rw [ht, exec_saveBlock, hbody], hrest⟩

end Alone

end CardanoGraphql.BackgroundProcess
