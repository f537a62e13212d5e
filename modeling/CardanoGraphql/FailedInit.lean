import CardanoGraphql.Fallible
import CardanoGraphql.ModuleState
import CardanoGraphql.Server

namespace CardanoGraphql.FailedInit

open Fallible

structure ServerOperations where
  mergeSchemas : Except String Unit
  readAllowList : String → Except String Server.AllowList
  prometheusMetricsPlugin : Except String Unit
  newApolloServer : Except String Unit
  applyMiddleware : Except String Unit

def serverBody (config : Server.Config) (ops : ServerOperations) : Except String Server.App := do
  ops.mergeSchemas
  let app ← Server.init ops.readAllowList config
  if app.metricsRoute then
    ops.prometheusMetricsPlugin
  ops.newApolloServer
  ops.applyMiddleware
  return app

def serverInit (config : Server.Config) (ops : ServerOperations) : Program ModuleState Unit := do
  if (← get) = .null then
    set ModuleState.initializing
    let _ ← outcome (serverBody config ops)
    set ModuleState.initialized

inductive HealthReply
  | data (synced : Bool)
  | failed (code : Option String) (status : Option Nat) (message : String)
deriving DecidableEq, Repr

def hostDoesNotExist (service : String) : String := "Host for " ++ service ++ " does not exist"

def availabilityAttempt : HealthReply → Except String Unit
  | .data _ => .ok ()
  | .failed code status message =>
      if code = some "ENOTFOUND" then .error (hostDoesNotExist "metadata server")
      else if status = some 400 then .ok ()
      else if status ≠ some 404 then .error message
      else .ok ()

/-- An error made inside the `try` has no response, so the `catch` throws it again. -/
def syncAttempt : HealthReply → Except String Unit
  | .data true => .ok ()
  | .data false => .error ""
  | .failed _ status _ => if status = some 400 then .ok () else .error ""

def mainError (messages : List String) : String :=
  (messages.foldl (fun (s : List String × String × Nat) message =>
    (message :: s.1, if s.1.count message + 1 ≥ s.2.2 then (message, s.1.count message + 1) else s.2))
    ([], "", 0)).2.1

def retryFrom (attempt : Nat → Except String Unit) : Nat → Nat → List String → Except String Unit
  | retries, n, messages =>
      match attempt n with
      | .ok _ => .ok ()
      | .error message =>
          match retries with
          | 0 => .error (mainError (messages ++ [message]))
          | retries + 1 => retryFrom attempt retries (n + 1) (messages ++ [message])

/-- Stands for the package `p-retry`. The results take from it that it resolves exactly where an
attempt up to the last retry does (`pRetry_ok_iff`). -/
def pRetry (retries : Nat) (attempt : Nat → Except String Unit) : Except String Unit :=
  retryFrom attempt retries 0 []

structure HealthReplies where
  available : Nat → HealthReply
  synced : Nat → HealthReply

def metadataInitialize (replies : HealthReplies) : Program ModuleState Unit := do
  if (← get) = .null then
    set ModuleState.initializing
    outcome (pRetry 10 fun n => availabilityAttempt (replies.available n))
    outcome (pRetry 1000 fun n => syncAttempt (replies.synced n))
    set ModuleState.initialized

structure DbOperations where
  connect : Except String Unit
  listenTo : Except String Unit

def dbInit (ops : DbOperations) : Program ModuleState Unit := do
  if (← get) = .null then
    set ModuleState.initializing
    catchAndLog do
      outcome ops.connect
      outcome ops.listenTo
      set ModuleState.initialized

section Calls

variable {ι : Type} (init : ι → Program ModuleState Unit)

def outcomes : ModuleState → List ι → List (Except String Unit × ModuleState)
  | _, [] => []
  | s, x :: xs => call (init x) s :: outcomes (exec (init x) s) xs

/-- A call initialises the module, or it reports its failure and the next can try again. -/
def Retriable (o : Except String Unit × ModuleState) : Prop :=
  o.2 = .initialized ∨ (o.2 = .null ∧ ∃ e, o.1 = .error e)

/-- An initialisation that returns at once in any state but `null`, and that a failure
leaves in `initializing`. -/
structure Guarded (Succeeds : ι → Prop) : Prop where
  returns : ∀ x s, s ≠ .null → call (init x) s = (.ok (), s)
  succeeds : ∀ x, Succeeds x → call (init x) .null = (.ok (), .initialized)
  fails : ∀ x, ¬ Succeeds x → exec (init x) .null = .initializing

variable {init}

theorem outcomes_initialized {Succeeds : ι → Prop} (h : Guarded init Succeeds) (xs : List ι) :
    ∀ o ∈ outcomes init .initialized xs, Retriable o := by
  induction xs with
  | nil => simp [outcomes]
  | cons x xs ih =>
      have hcall := h.returns x .initialized (by simp)
      rw [outcomes, exec, hcall]
      exact List.forall_mem_cons.mpr ⟨Or.inl rfl, ih⟩

theorem retriable_iff {Succeeds : ι → Prop} (h : Guarded init Succeeds) (xs : List ι) :
    (∀ o ∈ outcomes init .null xs, Retriable o) ↔ ∀ x ∈ xs.head?, Succeeds x := by
  cases xs with
  | nil => simp [outcomes]
  | cons x xs =>
      rw [List.head?_cons, outcomes, List.forall_mem_cons]
      constructor
      · rintro ⟨hfirst, -⟩ y hy
        obtain rfl := Option.some.inj hy
        by_contra hnot
        have hleft : (call (init x) .null).2 = .initializing := h.fails x hnot
        rcases hfirst with hstate | ⟨hstate, -⟩ <;> rw [hleft] at hstate <;> cases hstate
      · intro hx
        have hcall := h.succeeds x (hx x rfl)
        rw [exec, hcall]
        exact ⟨Or.inl rfl, outcomes_initialized h xs⟩

end Calls

theorem retryFrom_ok_iff (attempt : Nat → Except String Unit) (retries n : Nat) (messages : List String) :
    retryFrom attempt retries n messages = .ok () ↔ ∃ i ≤ retries, attempt (n + i) = .ok () := by
  induction retries generalizing n messages with
  | zero =>
      rw [retryFrom]
      cases hn : attempt n with
      | ok u => simp [hn]
      | error e => simp [hn]
  | succ retries ih =>
      rw [retryFrom]
      cases hn : attempt n with
      | ok u => exact ⟨fun _ => ⟨0, Nat.zero_le _, hn⟩, fun _ => rfl⟩
      | error e =>
          simp only [ih]
          constructor
          · rintro ⟨i, hi, hok⟩
            exact ⟨i + 1, by omega, by rwa [← Nat.add_assoc, Nat.add_right_comm]⟩
          · rintro ⟨i, hi, hok⟩
            cases i with
            | zero =>
                rw [Nat.add_zero, hn] at hok
                cases hok
            | succ i => exact ⟨i, by omega, by rwa [← Nat.add_assoc, Nat.add_right_comm] at hok⟩

theorem pRetry_ok_iff (retries : Nat) (attempt : Nat → Except String Unit) :
    pRetry retries attempt = .ok () ↔ ∃ i ≤ retries, attempt i = .ok () := by
  rw [pRetry, retryFrom_ok_iff]
  simp only [Nat.zero_add]

structure ServerSucceeds (config : Server.Config) (ops : ServerOperations) : Prop where
  merged : ops.mergeSchemas = .ok ()
  allowList : Server.truthy config.allowListPath = true →
    config.allowIntrospection = false ∧ config.maxQueryComplexity.getD 0 = 0 ∧
      ∃ allowList, ops.readAllowList (config.allowListPath.getD "") = .ok allowList
  metrics : config.prometheusMetrics = true → config.tracing = true ∧ ops.prometheusMetricsPlugin = .ok ()
  apollo : ops.newApolloServer = .ok ()
  mounted : ops.applyMiddleware = .ok ()

/-- The allow-list of the configuration, or why it is not permitted. -/
def allowListOf (readAllowList : String → Except String Server.AllowList) (config : Server.Config) :
    Except String (Option Server.AllowList) :=
  if Server.truthy config.allowListPath then
    if config.allowIntrospection then
      .error "Introspection is not permitted while allowListPath is enabled"
    else if config.maxQueryComplexity.getD 0 ≠ 0 then
      .error "Query complexity limitation is not permitted while allowListPath is enabled"
    else some <$> readAllowList (config.allowListPath.getD "")
  else .ok none

def withMetrics (config : Server.Config) (allowList : Option Server.AllowList) : Except String Server.App :=
  if config.prometheusMetrics then
    if config.tracing then .ok ⟨allowList, true⟩ else .error "Tracing is required for Prometheus metrics"
  else .ok ⟨allowList, false⟩

theorem init_eq (readAllowList : String → Except String Server.AllowList) (config : Server.Config) :
    Server.init readAllowList config = allowListOf readAllowList config >>= withMetrics config := by
  by_cases hpath : Server.truthy config.allowListPath = true
  · cases hi : config.allowIntrospection with
    | true =>
        simp only [Server.init, allowListOf, hpath, hi, if_true]
        rfl
    | false =>
        by_cases hq : config.maxQueryComplexity.getD 0 ≠ 0
        · simp only [Server.init, allowListOf, hpath, hi, if_pos hq, if_true, Bool.false_eq_true, if_false]
          rfl
        · simp only [Server.init, allowListOf, hpath, hi, if_neg hq, if_true, Bool.false_eq_true, if_false]
          rfl
  · simp only [Server.init, allowListOf, if_neg hpath]
    rfl

theorem allowListOf_ok_iff (readAllowList : String → Except String Server.AllowList)
    (config : Server.Config) :
    (∃ allowList, allowListOf readAllowList config = .ok allowList) ↔
      (Server.truthy config.allowListPath = true →
        config.allowIntrospection = false ∧ config.maxQueryComplexity.getD 0 = 0 ∧
          ∃ allowList, readAllowList (config.allowListPath.getD "") = .ok allowList) := by
  rw [allowListOf]
  by_cases hpath : Server.truthy config.allowListPath = true
  · cases hi : config.allowIntrospection with
    | true => simp [hpath]
    | false =>
        by_cases hq : config.maxQueryComplexity.getD 0 = 0
        · cases readAllowList (config.allowListPath.getD "") <;> simp [hpath, hq]
        · simp [hpath, hq]
  · simp [hpath]

theorem withMetrics_ok_iff {config : Server.Config} {allowList : Option Server.AllowList}
    {app : Server.App} :
    withMetrics config allowList = .ok app ↔
      app = ⟨allowList, config.prometheusMetrics⟩ ∧ (config.prometheusMetrics = true → config.tracing = true) := by
  rw [withMetrics]
  cases hm : config.prometheusMetrics <;> cases ht : config.tracing <;> simp [eq_comm]

theorem serverBody_ok_iff {config : Server.Config} {ops : ServerOperations} :
    (∃ app, serverBody config ops = .ok app) ↔ ServerSucceeds config ops := by
  have hplugin : ∀ app : Server.App, app.metricsRoute = config.prometheusMetrics →
      ((if app.metricsRoute = true then ops.prometheusMetricsPlugin else .ok ()) = .ok () ↔
        (config.prometheusMetrics = true → ops.prometheusMetricsPlugin = .ok ())) := by
    intro app happ
    rw [happ]
    by_cases hm : config.prometheusMetrics = true <;> simp [hm]
  have hbody : serverBody config ops = ops.mergeSchemas >>= fun _ =>
      (allowListOf ops.readAllowList config >>= withMetrics config) >>= fun app =>
        (if app.metricsRoute = true then ops.prometheusMetricsPlugin else .ok ()) >>= fun _ =>
          ops.newApolloServer >>= fun _ => ops.applyMiddleware >>= fun _ => .ok app := by
    rw [← init_eq, serverBody]
    congr 1
    funext _
    congr 1
    funext app
    by_cases hm : app.metricsRoute = true
    · rw [if_pos hm, if_pos hm]
      rfl
    · rw [if_neg hm, if_neg hm]
      rfl
  simp only [hbody, bind_ok_iff]
  constructor
  · rintro ⟨app, ⟨⟩, hmerged, app', ⟨allowList, hlist, hwith⟩, ⟨⟩, hif, ⟨⟩, hapollo, ⟨⟩, hmounted, -⟩
    obtain ⟨rfl, htracing⟩ := withMetrics_ok_iff.mp hwith
    have hm := (hplugin _ rfl).mp hif
    exact ⟨hmerged, (allowListOf_ok_iff _ _).mp ⟨allowList, hlist⟩,
      fun h => ⟨htracing h, hm h⟩, hapollo, hmounted⟩
  · intro h
    obtain ⟨allowList, hlist⟩ := (allowListOf_ok_iff _ _).mpr h.allowList
    exact ⟨_, (), h.merged, _, ⟨allowList, hlist, withMetrics_ok_iff.mpr ⟨rfl, fun hm => (h.metrics hm).1⟩⟩,
      (), (hplugin _ rfl).mpr fun hm => (h.metrics hm).2, (), h.apollo, (), h.mounted, rfl⟩

theorem serverInit_guarded (config : Server.Config) :
    Guarded (serverInit config) (ServerSucceeds config) := by
  refine ⟨fun ops s hs => ?_, fun ops hops => ?_, fun ops hnot => ?_⟩
  · simp [serverInit, hs]
  · obtain ⟨app, happ⟩ := serverBody_ok_iff.mpr hops
    simp [serverInit, happ]
  · cases hbody : serverBody config ops with
    | error e => simp [exec, serverInit, hbody]
    | ok app => exact absurd (serverBody_ok_iff.mp ⟨app, hbody⟩) hnot

structure MetadataSucceeds (replies : HealthReplies) : Prop where
  available : ∃ i ≤ 10, availabilityAttempt (replies.available i) = .ok ()
  synced : ∃ i ≤ 1000, syncAttempt (replies.synced i) = .ok ()

theorem metadataInitialize_guarded : Guarded metadataInitialize MetadataSucceeds := by
  refine ⟨fun replies s hs => ?_, fun replies h => ?_, fun replies hnot => ?_⟩
  · simp [metadataInitialize, hs]
  · simp [metadataInitialize, (pRetry_ok_iff _ _).mpr h.available, (pRetry_ok_iff _ _).mpr h.synced]
  · cases havailable : pRetry 10 fun n => availabilityAttempt (replies.available n) with
    | error e => simp [exec, metadataInitialize, havailable]
    | ok u =>
        cases hsynced : pRetry 1000 fun n => syncAttempt (replies.synced n) with
        | error e => simp [exec, metadataInitialize, havailable, hsynced]
        | ok v =>
            exact absurd ⟨(pRetry_ok_iff _ _).mp havailable, (pRetry_ok_iff _ _).mp hsynced⟩ hnot

structure DbSucceeds (ops : DbOperations) : Prop where
  connected : ops.connect = .ok ()
  listening : ops.listenTo = .ok ()

theorem dbInit_guarded : Guarded dbInit DbSucceeds := by
  refine ⟨fun ops s hs => ?_, fun ops h => ?_, fun ops hnot => ?_⟩
  · simp [dbInit, hs]
  · simp [dbInit, exec, h.connected, h.listening]
  · cases hconnect : ops.connect with
    | error e => simp [exec, dbInit, hconnect]
    | ok u =>
        cases hlisten : ops.listenTo with
        | error e => simp [exec, dbInit, hconnect, hlisten]
        | ok v => exact absurd ⟨hconnect, hlisten⟩ hnot

/-- Whatever calls follow one another, each initialises its module or reports a failure
that the next can make good exactly when nothing fails in the first of them. -/
theorem failed_init_retried_iff (config : Server.Config) (inits : List ServerOperations)
    (initializations : List HealthReplies) (connections : List DbOperations) :
    ((∀ o ∈ outcomes (serverInit config) .null inits, Retriable o) ↔
      ∀ ops ∈ inits.head?, ServerSucceeds config ops) ∧
    ((∀ o ∈ outcomes metadataInitialize .null initializations, Retriable o) ↔
      ∀ replies ∈ initializations.head?, MetadataSucceeds replies) ∧
    ((∀ o ∈ outcomes dbInit .null connections, Retriable o) ↔
      ∀ ops ∈ connections.head?, DbSucceeds ops) :=
  ⟨retriable_iff (serverInit_guarded config) inits,
    retriable_iff metadataInitialize_guarded initializations,
    retriable_iff dbInit_guarded connections⟩

def lateDatabase : List DbOperations := [⟨.error "ECONNREFUSED", .ok ()⟩, ⟨.ok (), .ok ()⟩]

def metricsConfig : Server.Config := ⟨true, none, none, true, false⟩

def workingServer : ServerOperations := ⟨.ok (), fun _ => .ok [], .ok (), .ok (), .ok ()⟩

theorem lateDatabase_stuck :
    outcomes dbInit .null lateDatabase = [(.ok (), .initializing), (.ok (), .initializing)] ∧
    outcomes (serverInit metricsConfig) .null [workingServer, workingServer] =
      [(.error "Tracing is required for Prometheus metrics", .initializing), (.ok (), .initializing)] ∧
    ¬ ∀ o ∈ outcomes dbInit .null lateDatabase, Retriable o := by
  have hdb : outcomes dbInit .null lateDatabase = [(.ok (), .initializing), (.ok (), .initializing)] := rfl
  refine ⟨hdb, rfl, fun h => ?_⟩
  rcases h (.ok (), .initializing) (hdb ▸ List.mem_cons_self) with hstate | ⟨hstate, -⟩ <;> cases hstate

end CardanoGraphql.FailedInit
