import CardanoGraphql.ModuleState
import CardanoGraphql.Tasks

namespace CardanoGraphql.DbSetup

open Tasks

/-- What `Db` receives: the event `connected`, and notifications on its channel. -/
inductive Trigger
  | connected
  | notification (payload : String)
deriving DecidableEq, Repr

inductive Outcome
  | ok
  | fails
deriving DecidableEq, Repr

/-- The modules of the background process. `inits`, `applications` and `starts` are kept
for the statements: how often the schema was announced to be reset, for each complete
application of schema and metadata how often it had been when it began, and for each call
of `ChainFollower.start` whether such an application followed the last announcement. -/
structure Process where
  hasura : ModuleState
  applyingSchemaAndMetadata : Bool
  metadataClient : ModuleState
  chainFollower : ModuleState
  worker : ModuleState
  subscribedInitial : Nat
  subscribedUpdate : Nat
  exited : Bool
  inits : Nat
  applications : List Nat
  starts : List Bool
deriving DecidableEq, Repr

/-- Where a run of `onDbSetup` waits. The retried steps carry the retries left, those of
an application the number of `inits` at its beginning. -/
inductive Await
  | migrationDelay (retries : Nat)
  | migrateDown (retries began : Nat)
  | migrateUp (retries began : Nat)
  | metadataClear (retries began : Nat)
  | metadataApply (retries began : Nat)
  | epochs (retries : Nat)
  | hasuraInitialized
  | metadataServerAvailable (retries : Nat)
  | metadataServerSynced (retries : Nat)
  | metadataClientInitialized
  | chainSyncConnection (retries : Nat)
  | chainFollowerInitialized
  | workerQueue
  | subscribeInitial
  | subscribeUpdate
  | workerStarted
  | chainSyncPoints (retries : Nat)
  | followerQueue
  | resume
deriving DecidableEq, Repr

def Process.fresh : Process :=
  { hasura := .null
    applyingSchemaAndMetadata := false
    metadataClient := .null
    chainFollower := .null
    worker := .initialized
    subscribedInitial := 0
    subscribedUpdate := 0
    exited := false
    inits := 0
    applications := []
    starts := [] }

def Process.exit (s : Process) : Process × Option Await := ({ s with exited := true }, none)

/-- A failed attempt: the next one, or with no retries left the end of the process, by
`onFailedAttempt` or by the `catch` of `onDbSetup`. -/
def Process.retry (s : Process) (retries : Nat) (attempt : Nat → Await) : Process × Option Await :=
  match retries with
  | 0 => s.exit
  | retries + 1 => (s, some (attempt retries))

def hasuraInitialize (s : Process) : Process × Option Await :=
  if s.hasura ≠ .null then (s, some .hasuraInitialized)
  else if s.applyingSchemaAndMetadata then
    ({ s with hasura := .initializing }, some (.epochs 10))
  else
    ({ s with hasura := .initializing, applyingSchemaAndMetadata := true },
      some (.migrateDown 9 s.inits))

def metadataClientInitialize (s : Process) : Process × Option Await :=
  if s.metadataClient ≠ .null then (s, some .metadataClientInitialized)
  else ({ s with metadataClient := .initializing }, some (.metadataServerAvailable 10))

def chainFollowerInitialize (s : Process) : Process × Option Await :=
  if s.chainFollower ≠ .null then (s, some .chainFollowerInitialized)
  else ({ s with chainFollower := .initializing }, some (.chainSyncConnection 100))

/-- `Worker.start`; what it throws ends the process. -/
def workerStart (s : Process) : Process × Option Await :=
  if s.worker ≠ .initialized then s.exit else (s, some .workerQueue)

def Process.prepared (s : Process) : Bool := decide (s.inits ∈ s.applications)

def chainFollowerStart (s : Process) : Process × Option Await :=
  let s := { s with starts := s.starts ++ [s.prepared] }
  if s.chainFollower ≠ .initialized then s.exit else (s, some .followerQueue)

def resumeOk : Await → Process → Process × Option Await
  | .migrationDelay retries, s => (s, some (.migrateDown retries s.inits))
  | .migrateDown retries began, s => (s, some (.migrateUp retries began))
  | .migrateUp _ began, s => (s, some (.metadataClear 9 began))
  | .metadataClear retries began, s => (s, some (.metadataApply retries began))
  | .metadataApply _ began, s =>
      ({ s with applyingSchemaAndMetadata := false, applications := began :: s.applications },
        some (.epochs 10))
  | .epochs _, s => ({ s with hasura := .initialized }, some .hasuraInitialized)
  | .hasuraInitialized, s => metadataClientInitialize s
  | .metadataServerAvailable _, s => (s, some (.metadataServerSynced 1000))
  | .metadataServerSynced _, s => ({ s with metadataClient := .initialized }, some .metadataClientInitialized)
  | .metadataClientInitialized, s => chainFollowerInitialize s
  | .chainSyncConnection _, s => ({ s with chainFollower := .initialized }, some .chainFollowerInitialized)
  | .chainFollowerInitialized, s => workerStart s
  | .workerQueue, s => (s, some .subscribeInitial)
  | .subscribeInitial, s => ({ s with subscribedInitial := s.subscribedInitial + 1 }, some .subscribeUpdate)
  | .subscribeUpdate, s => ({ s with subscribedUpdate := s.subscribedUpdate + 1 }, some .workerStarted)
  | .workerStarted, s => (s, some (.chainSyncPoints 1000))
  | .chainSyncPoints _, s => chainFollowerStart s
  | .followerQueue, s => (s, some .resume)
  | .resume, s => ({ s with chainFollower := .running }, none)

/-- A failed attempt at the migrations begins the application again, after a delay. A
delay, or the `await` of a module that has finished its work, cannot fail. -/
def resumeFailed : Await → Process → Option (Process × Option Await)
  | .migrateDown retries _, s | .migrateUp retries _, s =>
      some (s.retry retries .migrationDelay)
  | .metadataClear retries began, s | .metadataApply retries began, s =>
      some (s.retry retries fun left => .metadataClear left began)
  | .epochs retries, s => some (s.retry retries .epochs)
  | .metadataServerAvailable retries, s => some (s.retry retries .metadataServerAvailable)
  | .metadataServerSynced retries, s => some (s.retry retries .metadataServerSynced)
  | .chainSyncConnection retries, s => some (s.retry retries .chainSyncConnection)
  | .chainSyncPoints retries, s => some (s.retry retries .chainSyncPoints)
  | .workerQueue, s | .subscribeInitial, s | .subscribeUpdate, s | .followerQueue, s | .resume, s =>
      some s.exit
  | .migrationDelay _, _ | .hasuraInitialized, _ | .metadataClientInitialized, _
  | .chainFollowerInitialized, _ | .workerStarted, _ => none

def onDbInit (s : Process) : Process × Option Await :=
  ({ s with hasura := .null, inits := s.inits + 1 }, none)

def onDbSetup (s : Process) : Process × Option Await := hasuraInitialize s

def receive : Trigger → Process → Process × Option Await
  | .connected, s => onDbSetup s
  | .notification payload, s =>
      if payload = "init" then onDbInit s
      else if payload = "db-setup" then onDbSetup s
      else (s, none)

/-- The process, until it exits. -/
def background : Machine Process Await Trigger Outcome where
  call trigger s := if s.exited then none else some (receive trigger s)
  resume k o s :=
    if s.exited then none
    else match o with
      | .ok => some (resumeOk k s)
      | .fails => resumeFailed k s

theorem call_alive {t : Trigger} {s : Process} {r : Process × Option Await}
    (h : background.call t s = some r) : s.exited = false ∧ receive t s = r := by
  obtain ⟨halive, hr⟩ := alive_of_some h
  exact ⟨halive, Option.some.inj hr⟩

def started : World Process Await := ⟨Process.fresh, []⟩

def isInit : Trigger → Bool
  | .connected => false
  | .notification payload => decide (payload = "init")

def isSetup : Trigger → Bool
  | .connected => true
  | .notification payload => decide (payload = "db-setup")

theorem receive_init {t : Trigger} (h : isInit t = true) (s : Process) : receive t s = onDbInit s := by
  cases t with
  | connected => cases h
  | notification payload => rw [receive, if_pos (of_decide_eq_true h)]

theorem receive_setup {t : Trigger} (h : isSetup t = true) (s : Process) : receive t s = onDbSetup s := by
  cases t with
  | connected => rfl
  | notification payload =>
      obtain rfl := of_decide_eq_true h
      rfl

theorem receive_other {t : Trigger} (hi : isInit t = false) (hs : isSetup t = false) (s : Process) :
    receive t s = (s, none) := by
  cases t with
  | connected => cases hs
  | notification payload =>
      rw [receive, if_neg (of_decide_eq_false hi), if_neg (of_decide_eq_false hs)]

end CardanoGraphql.DbSetup
