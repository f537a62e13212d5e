import CardanoGraphql.Json

namespace CardanoGraphql.Server

abbrev AllowList := List (String × Int)

structure Config where
  allowIntrospection : Bool
  allowListPath : Option String
  maxQueryComplexity : Option Nat
  prometheusMetrics : Bool
  tracing : Bool
deriving DecidableEq, Repr

/-- The handlers that `init` mounts on `app` before Apollo's. -/
structure App where
  allowList : Option AllowList
  metricsRoute : Bool
deriving DecidableEq, Repr

inductive Method
  | get
  | head
  | post
  | other (name : String)
deriving DecidableEq, Repr

/-- An HTTP request: `urlQuery` is the value of the parameter `query` in the parsed
query string, `body` the JSON text of the body, parsed. -/
structure Request where
  method : Method
  path : String
  urlQuery : Option Json
  body : Option Json
deriving Repr

inductive Outcome
  | next
  | sendStatus (code : Nat)
  | throws (message : String)
deriving DecidableEq, Repr

def truthy : Option String → Bool
  | some s => decide (s ≠ "")
  | none => false

def init (readAllowList : String → Except String AllowList) (config : Config) : Except String App := do
  let allowList ←
    if truthy config.allowListPath then
      if config.allowIntrospection then
        throw "Introspection is not permitted while allowListPath is enabled"
      else if config.maxQueryComplexity.getD 0 ≠ 0 then
        throw "Query complexity limitation is not permitted while allowListPath is enabled"
      else some <$> readAllowList (config.allowListPath.getD "")
    else pure none
  if config.prometheusMetrics then
    if config.tracing then return ⟨allowList, true⟩
    else throw "Tracing is required for Prometheus metrics"
  else return ⟨allowList, false⟩

/-- `allowList[key] !== undefined`. -/
def has (allowList : AllowList) (key : String) : Bool :=
  decide (key ∈ allowList.map Prod.fst) || decide (key ∈ Json.inheritedNames)

def allowListMiddleware (allowList : AllowList) (graphqlPath : String) (path : String) (body : Json) :
    Outcome :=
  if path = graphqlPath then
    match Json.propertyKey (body.property "query") with
    | .error message => .throws message
    | .ok key => if has allowList key then .next else .sendStatus 403
  else .next

/-- The body parser: no body leaves an empty object, and in its strict mode only an
object or an array is a body. -/
def parseBody : Option Json → Except String Json
  | none => .ok (.obj [])
  | some (.obj fields) => .ok (.obj fields)
  | some (.arr elements) => .ok (.arr elements)
  | some _ => .error "Bad Request"

def documentOf (value : Option Json) : List String :=
  match value with
  | some (.str document) => [document]
  | _ => []

/-- The documents that Apollo's handler reads: from the body of a POST, which may be
a batch, and from the URL of a GET. -/
def documents (request : Request) (body : Json) : List String :=
  match request.method with
  | .post =>
      match body with
      | .arr elements => elements.flatMap fun x => documentOf (x.property "query")
      | body => documentOf (body.property "query")
  | .get => documentOf request.urlQuery
  | _ => []

/-- `app.get('/metrics')`, which express matches in any case and with a final slash. -/
def metricsHandles (app : App) (request : Request) : Bool :=
  app.metricsRoute && (decide (request.method = .get) || decide (request.method = .head)) &&
    (decide (request.path.toLower = "/metrics") || decide (request.path.toLower = "/metrics/"))

def reachesApollo (app : App) (request : Request) (body : Json) : Bool :=
  (match app.allowList with
    | none => true
    | some allowList => decide (allowListMiddleware allowList "/" request.path body = .next)) &&
    !metricsHandles app request

section Enforcement

variable (executes : Request → String → Bool)

/-- The documents executed for a request. `executes` says of a document that Apollo has
read whether it parses, validates and runs it. -/
def executed (app : App) (request : Request) : List String :=
  match parseBody request.body with
  | .error _ => []
  | .ok body =>
      if reachesApollo app request body then (documents request body).filter (executes request)
      else []

/-- A document that is not in the list is where Apollo reads it, and the middleware
does not look at the path, or looks at a body that Apollo does not read, or at a
batch as if it were one request. -/
def Bypasses (app : App) (allowList : AllowList) (request : Request) : Prop :=
  ∃ body, parseBody request.body = .ok body ∧ metricsHandles app request = false ∧
    (∃ d ∈ documents request body, executes request d = true ∧ d ∉ allowList.map Prod.fst) ∧
    (request.path ≠ "/" ∨
      ((request.method = .get ∨ ∃ elements, body = .arr elements) ∧
        allowListMiddleware allowList "/" request.path body = .next))

theorem init_allowList {readAllowList : String → Except String AllowList} {config : Config} {app : App}
    (hpath : truthy config.allowListPath = true) (hinit : init readAllowList config = .ok app) :
    ∃ allowList, readAllowList (config.allowListPath.getD "") = .ok allowList ∧
      app.allowList = some allowList := by
  simp only [init, hpath, if_true] at hinit
  cases hi : config.allowIntrospection with
  | true =>
      rw [hi] at hinit
      cases hinit
  | false =>
      by_cases hq : config.maxQueryComplexity.getD 0 ≠ 0
      · rw [hi, if_neg Bool.false_ne_true, if_pos hq] at hinit
        cases hinit
      · rw [hi, if_neg Bool.false_ne_true, if_neg hq] at hinit
        cases hr : readAllowList (config.allowListPath.getD "") with
        | error e =>
            rw [hr] at hinit
            cases hinit
        | ok allowList =>
            rw [hr] at hinit
            refine ⟨allowList, rfl, ?_⟩
            cases hm : config.prometheusMetrics <;> cases ht : config.tracing <;> rw [hm] at hinit
            · cases hinit
              rfl
            · cases hinit
              rfl
            · rw [ht] at hinit
              cases hinit
            · rw [ht] at hinit
              cases hinit
              rfl

theorem has_of_brace {allowList : AllowList} {document : String} (hbrace : '{' ∈ document.toList) :
    has allowList document = true ↔ document ∈ allowList.map Prod.fst := by
  have hnot : document ∉ Json.inheritedNames := by
    have hnames : ∀ name ∈ Json.inheritedNames, '{' ∉ name.toList := by decide
    exact fun hm => hnames document hm hbrace
  simp [has, hnot]

theorem middleware_of_document {allowList : AllowList} {body : Json} {document : String}
    (hd : document ∈ documentOf (body.property "query")) :
    allowListMiddleware allowList "/" "/" body = .next ↔ has allowList document = true := by
  cases hq : body.property "query" with
  | none =>
      rw [hq] at hd
      cases hd
  | some value =>
      rw [hq] at hd
      cases value with
      | str s =>
          rw [List.mem_singleton.mp hd, allowListMiddleware, if_pos rfl, hq, Json.propertyKey,
            Json.toText]
          cases hs : has allowList s <;> simp [hs]
      | null | bool | num | arr | obj => cases hd

theorem executed_listed {app : App} {allowList : AllowList} (hlist : app.allowList = some allowList)
    {request : Request} {body : Json} (hpath : request.path = "/")
    (hpost : ¬ (request.method = .get ∨ ∃ elements, body = .arr elements))
    (hreach : reachesApollo app request body = true) {document : String}
    (hd : document ∈ documents request body) (hbrace : '{' ∈ document.toList) :
    document ∈ allowList.map Prod.fst := by
  rw [not_or] at hpost
  have hnext : allowListMiddleware allowList "/" "/" body = .next := by
    simp only [reachesApollo, hlist, hpath, Bool.and_eq_true, decide_eq_true_eq] at hreach
    exact hreach.1
  cases hm : request.method with
  | get => exact absurd hm hpost.1
  | head | other =>
      simp only [documents, hm] at hd
      cases hd
  | post =>
      cases body with
      | arr elements => exact absurd ⟨elements, rfl⟩ hpost.2
      | null | bool | num | str | obj =>
          simp only [documents, hm] at hd
          rw [← has_of_brace hbrace]
          exact (middleware_of_document hd).mp hnext

/-- A server with an allow list executes a document from outside the list exactly for
the requests that bypass the middleware. -/
theorem allow_list_enforced_iff
    (hbrace : ∀ request document, executes request document = true → '{' ∈ document.toList)
    (readAllowList : String → Except String AllowList) (config : Config) (app : App)
    (hpath : truthy config.allowListPath = true) (hinit : init readAllowList config = .ok app) :
    ∃ allowList, readAllowList (config.allowListPath.getD "") = .ok allowList ∧
      ∀ request, (∀ document ∈ executed executes app request, document ∈ allowList.map Prod.fst) ↔
        ¬ Bypasses executes app allowList request := by
  obtain ⟨allowList, hread, hlist⟩ := init_allowList hpath hinit
  refine ⟨allowList, hread, fun request => ?_⟩
  constructor
  · rintro h ⟨body, hbody, hmetrics, ⟨document, hd, hexec, hnot⟩, hway⟩
    have hnext : allowListMiddleware allowList "/" request.path body = .next := by
      rcases hway with hne | ⟨-, hnext⟩
      · rw [allowListMiddleware, if_neg hne]
      · exact hnext
    have hreach : reachesApollo app request body = true := by
      simp [reachesApollo, hlist, hnext, hmetrics]
    refine hnot (h document ?_)
    rw [executed, hbody]
    simp only [hreach, if_true]
    exact List.mem_filter.mpr ⟨hd, hexec⟩
  · intro h document hd
    rw [executed] at hd
    cases hbody : parseBody request.body with
    | error e =>
        rw [hbody] at hd
        cases hd
    | ok body =>
        rw [hbody] at hd
        cases hreach : reachesApollo app request body with
        | false =>
            simp only [hreach, Bool.false_eq_true, if_false] at hd
            cases hd
        | true =>
            simp only [hreach, if_true] at hd
            obtain ⟨hd, hexec⟩ := List.mem_filter.mp hd
            by_contra hnot
            have hparts : allowListMiddleware allowList "/" request.path body = .next ∧
                metricsHandles app request = false := by
              simpa [reachesApollo, hlist] using hreach
            refine h ⟨body, hbody, hparts.2, ⟨document, hd, hexec, hnot⟩, ?_⟩
            by_cases hp : request.path = "/"
            · refine Or.inr ⟨?_, hparts.1⟩
              by_contra hcover
              exact hnot (executed_listed hlist hp hcover hreach hd (hbrace request document hexec))
            · exact Or.inl hp

end Enforcement

def listed : String := "query allowed { test }"

def unlisted : String := "query validButDisallowed { testTwo }"

def guardedConfig : Config :=
  { allowIntrospection := false
    allowListPath := some "allow-list.json"
    maxQueryComplexity := none
    prometheusMetrics := false
    tracing := false }

def readListed (_ : String) : Except String AllowList := .ok [(listed, 1)]

/-- A stand-in for Apollo's parser on the documents here. -/
def hasSelection (_ : Request) (document : String) : Bool := decide ('{' ∈ document.toList)

def unlistedPost (path : String) : Request :=
  { method := .post, path := path, urlQuery := none, body := some (.obj [("query", .str unlisted)]) }

def unlistedGet : Request :=
  { method := .get
    path := "/"
    urlQuery := some (.str unlisted)
    body := some (.obj [("query", .str listed)]) }

theorem unlisted_executed :
    ∃ app, init readListed guardedConfig = .ok app ∧ app.allowList = some [(listed, 1)] ∧
      executed hasSelection app (unlistedPost "/") = [] ∧
      executed hasSelection app (unlistedPost "/graphql") = [unlisted] ∧
      executed hasSelection app unlistedGet = [unlisted] ∧
      unlisted ∉ [(listed, (1 : Int))].map Prod.fst := by
  exact ⟨⟨some [(listed, 1)], false⟩, rfl, rfl, by decide, by decide, by decide, by decide⟩

theorem guardedConfig_iff :
    ∃ allowList, readListed (guardedConfig.allowListPath.getD "") = .ok allowList ∧
      ∀ request, (∀ document ∈ executed hasSelection ⟨some [(listed, 1)], false⟩ request,
          document ∈ allowList.map Prod.fst) ↔
        ¬ Bypasses hasSelection ⟨some [(listed, 1)], false⟩ allowList request :=
  allow_list_enforced_iff hasSelection (fun _ _ h => of_decide_eq_true h) readListed guardedConfig
    ⟨some [(listed, 1)], false⟩ (by decide) rfl

end CardanoGraphql.Server
