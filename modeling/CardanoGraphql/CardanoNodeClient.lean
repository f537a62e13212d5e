import CardanoGraphql.DataFetcher
import CardanoGraphql.ModuleState
import CardanoGraphql.Tasks
import Mathlib.Data.Rat.Defs

namespace CardanoGraphql.CardanoNodeClient

open Tasks

structure ServerHealth where
  networkSynchronization : Rat
deriving DecidableEq, Repr

/-- The interaction contexts are numbered in the order of their creation; `sockets` are
those whose socket is open, and `closing` those that a `shutdown` closes. `stateQuery` and
`txSubmission` are the contexts of the two clients. -/
structure NodeClient where
  state : ModuleState
  serverHealthFetcher : DataFetcher ServerHealth
  stateQuery : Option Nat
  txSubmission : Option Nat
  contexts : Nat
  sockets : List Nat
  closing : List Nat
  exited : Bool
deriving DecidableEq, Repr

/-- A call of `initialize`, the callback of a context that closes abnormally, and the
interval of a timer. -/
inductive Trigger
  | called
  | closed (context : Nat)
  | interval (timer : Nat)
deriving DecidableEq, Repr

inductive Outcome
  | fetched (o : Fetch ServerHealth)
  | ok
  | fails
deriving DecidableEq, Repr

/-- Where `initialize`, `shutdown`, a callback or the handler of a timer waits. The steps
of an attempt carry its context and the retries left. -/
inductive Await
  | fetching
  | fetchSkipped
  | interactionContext (retries : Nat)
  | stateQueryClient (context retries : Nat)
  | ledgerTip (context retries : Nat)
  | txSubmissionClient (context retries : Nat)
  | timerCleared (timer : Nat)
  | stateQueryClosed (context : Nat)
  | txSubmissionClosed (context : Nat)
  | shutDown
  | polling (timer : Nat)
deriving DecidableEq, Repr

def NodeClient.fresh : NodeClient :=
  { state := .null
    serverHealthFetcher := .fresh
    stateQuery := none
    txSubmission := none
    contexts := 0
    sockets := []
    closing := []
    exited := false }

def NodeClient.retry (s : NodeClient) : Nat → NodeClient × Option Await
  | 0 => ({ s with exited := true }, some (.interactionContext 0))
  | retries + 1 => (s, some (.interactionContext retries))

def nodeInitialize (s : NodeClient) : NodeClient × Option Await :=
  if s.state ≠ .null then (s, none)
  else if s.serverHealthFetcher.isFetching then ({ s with state := .initializing }, some .fetchSkipped)
  else
    ({ s with state := .initializing, serverHealthFetcher := s.serverHealthFetcher.beginFetch },
      some .fetching)

def connect (s : NodeClient) : NodeClient × Option Await :=
  ({ s with serverHealthFetcher := s.serverHealthFetcher.startPolling }, some (.interactionContext 100))

def createInteractionContext (s : NodeClient) (retries : Nat) : NodeClient × Option Await :=
  ({ s with contexts := s.contexts + 1, sockets := s.sockets ++ [s.contexts] },
    some (.stateQueryClient s.contexts retries))

/-- `shutdown`, to its first `await`. Where a field that it reads is not set, it throws. -/
def shutdown (s : NodeClient) : NodeClient × Option Await :=
  if s.state ≠ .initialized then (s, some .shutDown)
  else match s.serverHealthFetcher.pollingQueryTimer with
    | none => (s, none)
    | some timer =>
        ({ s with serverHealthFetcher := s.serverHealthFetcher.clearTimer timer }, some (.timerCleared timer))

def NodeClient.close (s : NodeClient) (context : Nat) : NodeClient :=
  { s with sockets := s.sockets.erase context, closing := context :: s.closing }

def shutdownTxSubmission (s : NodeClient) : NodeClient × Option Await :=
  match s.txSubmission with
  | none => (s, none)
  | some context =>
      if context ∈ s.sockets then (s.close context, some (.txSubmissionClosed context))
      else ({ s with state := .null }, some .shutDown)

def shutdownClients (s : NodeClient) : NodeClient × Option Await :=
  match s.stateQuery with
  | none => (s, none)
  | some context =>
      if context ∈ s.sockets then (s.close context, some (.stateQueryClosed context))
      else shutdownTxSubmission s

def onClosed (s : NodeClient) (context : Nat) : Option (NodeClient × Option Await) :=
  if context ∈ s.sockets ∨ context ∈ s.closing then
    some (shutdown { s with sockets := s.sockets.erase context, closing := s.closing.erase context })
  else none

/-- The handler of a timer is not called again before it has ended. -/
def onInterval (s : NodeClient) (timer : Nat) : Option (NodeClient × Option Await) :=
  let f := s.serverHealthFetcher
  if timer ∉ f.live ∨ timer ∈ f.handling then none
  else if f.isFetching then some (s, none)
  else
    some ({ s with serverHealthFetcher := { f.beginFetch with handling := timer :: f.handling } },
      some (.polling timer))

def receive : Trigger → NodeClient → Option (NodeClient × Option Await)
  | .called, s => some (nodeInitialize s)
  | .closed context, s => onClosed s context
  | .interval timer, s => onInterval s timer

/-- A timer is cleared once its handler has ended. A connection attempt fails at any of
its steps, and leaves its context as it is; nothing else can fail. -/
def resume : Await → Outcome → NodeClient → Option (NodeClient × Option Await)
  | .fetching, .fetched o, s =>
      some (connect { s with serverHealthFetcher := s.serverHealthFetcher.endFetch o })
  | .fetchSkipped, .ok, s => some (connect s)
  | .interactionContext retries, .ok, s => some (createInteractionContext s retries)
  | .stateQueryClient context retries, .ok, s =>
      some ({ s with stateQuery := some context }, some (.ledgerTip context retries))
  | .ledgerTip context retries, .ok, s => some (s, some (.txSubmissionClient context retries))
  | .txSubmissionClient context _, .ok, s =>
      some ({ s with txSubmission := some context, state := .initialized }, none)
  | .interactionContext retries, .fails, s | .stateQueryClient _ retries, .fails, s
  | .ledgerTip _ retries, .fails, s | .txSubmissionClient _ retries, .fails, s => some (s.retry retries)
  | .timerCleared timer, .ok, s =>
      if timer ∈ s.serverHealthFetcher.handling then none else some (shutdownClients s)
  | .stateQueryClosed context, .ok, s =>
      some (shutdownTxSubmission { s with closing := s.closing.erase context })
  | .txSubmissionClosed context, .ok, s =>
      some ({ s with closing := s.closing.erase context, state := .null }, some .shutDown)
  | .shutDown, .ok, s => some (nodeInitialize s)
  | .polling timer, .fetched o, s =>
      let f := s.serverHealthFetcher.endFetch o
      some ({ s with serverHealthFetcher := { f with handling := f.handling.erase timer } }, none)
  | _, _, _ => none

def node : Machine NodeClient Await Trigger Outcome where
  call trigger s := if s.exited then none else receive trigger s
  resume k o s := if s.exited then none else resume k o s

def started : World NodeClient Await := ⟨NodeClient.fresh, []⟩

inductive Submission
  | hash (hash : String)
  | throws (message : String)
  | typeError
deriving DecidableEq, Repr

def operationRequiresSyncedNode (operation : String) : String :=
  "Cannot " ++ operation ++ " until cardano-node is close to the network tip"

def submitTransaction (s : NodeClient) (submit : Except String String) : Submission :=
  if s.state ≠ .initialized then
    .throws (ModuleState.isNotInitialized "CardanoNodeClient" "submitTransaction")
  else match s.serverHealthFetcher.value with
    | none => .typeError
    | some health =>
        if health.networkSynchronization < 95 / 100 then
          .throws (operationRequiresSyncedNode "submitTransaction")
        else match submit with
          | .error message => .throws message
          | .ok hash => .hash hash

theorem call_alive {t : Trigger} {s : NodeClient} {r : NodeClient × Option Await}
    (h : node.call t s = some r) : s.exited = false ∧ receive t s = some r :=
  alive_of_some h

theorem resume_alive {k : Await} {o : Outcome} {s : NodeClient} {r : NodeClient × Option Await}
    (h : node.resume k o s = some r) : s.exited = false ∧ resume k o s = some r :=
  alive_of_some h

end CardanoGraphql.CardanoNodeClient
