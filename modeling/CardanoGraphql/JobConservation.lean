import CardanoGraphql.PendingJobs

namespace CardanoGraphql.JobConservation

open HasuraBackgroundClient ChainFollower Worker Runs BackgroundProcess JobEffects PendingJobs

/-- The process with the jobs of finished batches for which the handler has not called `done`:
`pg-boss` has them as active until they expire. -/
structure Queues where
  process : Process
  active : List Job
deriving DecidableEq, Repr

/-- A step of the process, or one of `pg-boss` on its own: active jobs expire and are queued again,
and jobs whose retries or retention are used up are dropped. -/
inductive Event
  | process (e : Step)
  | expire (ids : List Nat)
  | drop (ids : List Nat)

def leftBy (s : Process) : Step → List Job
  | .finish n => (s.batches[n]?.map Batch.jobs).getD []
  | _ => []

def chosen (ids : List Nat) (job : Job) : Bool := decide (job.id ∈ ids)

def sent (q : Queues) : Event → List String
  | .process .reply => idsOf (q.process.returning.getD [])
  | .process (.publishAfter n) =>
      ((q.process.batches[n]?.bind Batch.writing).toList).map Job.assetId
  | _ => []

def dropped (q : Queues) : Event → List String
  | .drop ids => ((q.process.waiting ++ q.active).filter (chosen ids)).map Job.assetId
  | _ => []

section Steps

variable (env : Externals) (hash : AssetMetadata → String)

def queueStep (q : Queues) : Event → Option Queues
  | .process e => (step env hash q.process e).map fun t => ⟨t, q.active ++ leftBy q.process e⟩
  | .expire ids => some
      { process := { q.process with waiting := q.process.waiting ++ q.active.filter (chosen ids) }
        active := q.active.filter fun job => !chosen ids job }
  | .drop ids => some
      { process := { q.process with waiting := q.process.waiting.filter fun job => !chosen ids job }
        active := q.active.filter fun job => !chosen ids job }

def reported (report : Queues → Event → List String) : Queues → List Event → List String
  | _, [] => []
  | q, e :: events =>
      report q e ++ (queueStep env hash q e).elim [] fun t => reported report t events

end Steps

end CardanoGraphql.JobConservation
