import CardanoGraphql.CardanoNodeClient

namespace CardanoGraphql.SingleFlight

open Runs Tasks DataFetcher CardanoNodeClient

@[simp] def initializing : Await → Bool
  | .fetching | .fetchSkipped | .interactionContext _ | .stateQueryClient _ _ | .ledgerTip _ _
  | .txSubmissionClient _ _ => true
  | _ => false

@[simp] def shuttingDown : Await → Bool
  | .timerCleared _ | .stateQueryClosed _ | .txSubmissionClosed _ => true
  | _ => false

@[simp] def polls : Await → Bool
  | .interactionContext _ | .stateQueryClient _ _ | .ledgerTip _ _ | .txSubmissionClient _ _ => true
  | _ => false

@[simp] def queries : Await → Bool
  | .ledgerTip _ _ | .txSubmissionClient _ _ => true
  | _ => false

/-- The state, with how many initializations and shutdowns are in progress, and how many
of the first have made their timer and their state query client. -/
structure Sound (s : NodeClient) (inits shuts polled queried : Nat) : Prop where
  one : inits = if s.state = .initializing then 1 else 0
  stops : shuts = 0 ∨ (shuts = 1 ∧ s.state = .initialized)
  within : polled ≤ inits
  timers : s.serverHealthFetcher.live.length + shuts = polled + if s.state = .initialized then 1 else 0
  current : ∀ timer ∈ s.serverHealthFetcher.live, s.serverHealthFetcher.pollingQueryTimer = some timer
  query : 0 < queried → s.stateQuery.isSome = true
  clients : s.state = .initialized → s.stateQuery.isSome = true ∧ s.txSubmission.isSome = true

def After (r : NodeClient × Option Await) (inits shuts polled queried : Nat) : Prop :=
  Sound r.1 (inits + (r.2.any initializing).toNat) (shuts + (r.2.any shuttingDown).toNat)
    (polled + (r.2.any polls).toNat) (queried + (r.2.any queries).toNat)

variable {s : NodeClient} {inits shuts polled queried : Nat}

theorem idle_of_null (h : Sound s inits shuts polled queried) (hs : s.state = .null) :
    inits = 0 ∧ shuts = 0 ∧ polled = 0 ∧ s.serverHealthFetcher.live.length = 0 := by
  have hi := h.one
  have hp := h.within
  have ht := h.timers
  simp only [hs, reduceCtorEq, if_false] at hi ht
  rcases h.stops with hsh | ⟨-, hsh⟩
  · omega
  · rw [hs] at hsh
    cases hsh

theorem idle_of_initialized (h : Sound s inits shuts polled queried) (hs : s.state = .initialized) :
    inits = 0 ∧ polled = 0 ∧ s.serverHealthFetcher.live.length + shuts = 1 := by
  have hi := h.one
  have hp := h.within
  have ht := h.timers
  simp only [hs, reduceCtorEq, if_false, if_true] at hi ht
  omega

theorem idle_of_initializing (h : Sound s inits shuts polled queried) (hs : s.state = .initializing) :
    inits = 1 ∧ shuts = 0 ∧ s.serverHealthFetcher.live.length = polled := by
  have hi := h.one
  have ht := h.timers
  simp only [hs, reduceCtorEq, if_false, if_true] at hi ht
  rcases h.stops with hsh | ⟨-, hsh⟩
  · omega
  · rw [hs] at hsh
    cases hsh

theorem after_nodeInitialize (h : Sound s inits shuts polled queried) :
    After (nodeInitialize s) inits shuts polled queried := by
  rw [nodeInitialize]
  split
  next => exact h
  next hnull =>
    have hs := not_not.mp hnull
    obtain ⟨rfl, rfl, rfl, hlive⟩ := idle_of_null h hs
    split
    · exact ⟨rfl, Or.inl rfl, by simp, hlive, h.current, h.query, fun h => by cases h⟩
    · exact ⟨rfl, Or.inl rfl, by simp, hlive, h.current, h.query, fun h => by cases h⟩

theorem after_shutdown (h : Sound s inits shuts polled queried)
    (hidle : s.state = .initialized → shuts = 0) : After (shutdown s) inits shuts polled queried := by
  unfold shutdown
  split
  next => exact h
  next hinit =>
    have hs := not_not.mp hinit
    obtain rfl := hidle hs
    obtain ⟨rfl, rfl, hlive⟩ := idle_of_initialized h hs
    obtain ⟨timer, htimer⟩ := List.length_eq_one_iff.mp hlive
    have hcurrent := h.current timer (by rw [htimer]; exact List.mem_cons_self)
    rw [hcurrent]
    have hcleared : (s.serverHealthFetcher.clearTimer timer).live = [] := by
      simp [clearTimer, htimer]
    refine ⟨?_, Or.inr ⟨rfl, hs⟩, le_rfl, ?_, ?_, h.query, h.clients⟩
    · simp [hs]
    · simp [hcleared, hs]
    · intro t ht
      rw [hcleared] at ht
      cases ht

theorem initialized_of_stopping (h : Sound s inits (shuts + 1) polled queried) :
    s.state = .initialized := by
  rcases h.stops with hsh | ⟨-, hs⟩
  · omega
  · exact hs

theorem after_stopped (h : Sound s inits (shuts + 1) polled queried) :
    After ({ s with state := .null }, some .shutDown) inits shuts polled queried := by
  obtain ⟨rfl, rfl, hlive⟩ := idle_of_initialized h (initialized_of_stopping h)
  have hnone : s.serverHealthFetcher.live.length = 0 := by omega
  obtain rfl : shuts = 0 := by omega
  exact ⟨rfl, Or.inl rfl, le_rfl, hnone, h.current, h.query, fun h => by cases h⟩

theorem after_shutdownTxSubmission (h : Sound s inits (shuts + 1) polled queried) :
    After (shutdownTxSubmission s) inits shuts polled queried := by
  have hclients := h.clients (initialized_of_stopping h)
  unfold shutdownTxSubmission
  split
  next hnone =>
    rw [hnone] at hclients
    cases hclients.2
  next context _ =>
    split
    · exact ⟨h.one, h.stops, h.within, h.timers, h.current, h.query, h.clients⟩
    · exact after_stopped h

theorem after_shutdownClients (h : Sound s inits (shuts + 1) polled queried) :
    After (shutdownClients s) inits shuts polled queried := by
  have hclients := h.clients (initialized_of_stopping h)
  unfold shutdownClients
  split
  next hnone =>
    rw [hnone] at hclients
    cases hclients.1
  next context _ =>
    split
    · exact ⟨h.one, h.stops, h.within, h.timers, h.current, h.query, h.clients⟩
    · exact after_shutdownTxSubmission h

theorem after_connect (h : Sound s (inits + 1) shuts polled queried) (hp : polled ≤ inits) :
    After (connect s) inits shuts polled queried := by
  have hs : s.state = .initializing := by
    by_contra hs
    have hi := h.one
    rw [if_neg hs] at hi
    omega
  obtain ⟨hi, rfl, hlive⟩ := idle_of_initializing h hs
  obtain rfl : inits = 0 := by omega
  obtain rfl : polled = 0 := by omega
  have hnone : s.serverHealthFetcher.live = [] := List.length_eq_zero_iff.mp hlive
  refine ⟨?_, Or.inl rfl, le_rfl, ?_, ?_, h.query, h.clients⟩
  · simp [connect, initializing, hs]
  · simp [connect, startPolling, polls, shuttingDown, hnone, hs]
  · intro t ht
    simp only [connect, startPolling, hnone, List.nil_append, List.mem_singleton] at ht
    rw [ht]
    rfl

theorem sound_fetcher (h : Sound s inits shuts polled queried) {f : DataFetcher ServerHealth}
    (hlive : f.live = s.serverHealthFetcher.live)
    (htimer : f.pollingQueryTimer = s.serverHealthFetcher.pollingQueryTimer) :
    Sound { s with serverHealthFetcher := f } inits shuts polled queried := by
  refine ⟨h.one, h.stops, h.within, ?_, ?_, h.query, h.clients⟩
  · rw [hlive]
    exact h.timers
  · rw [hlive, htimer]
    exact h.current

theorem endFetch_timers {V : Type} (f : DataFetcher V) (o : Fetch V) :
    (f.endFetch o).live = f.live ∧ (f.endFetch o).pollingQueryTimer = f.pollingQueryTimer := by
  cases o <;> exact ⟨rfl, rfl⟩

theorem after_completed (context : Nat) (h : Sound s (inits + 1) shuts (polled + 1) (queried + 1))
    (hp : polled ≤ inits) :
    After ({ s with txSubmission := some context, state := .initialized }, none)
      inits shuts polled queried := by
  have hs : s.state = .initializing := by
    by_contra hs
    have hi := h.one
    rw [if_neg hs] at hi
    omega
  obtain ⟨hi, rfl, hlive⟩ := idle_of_initializing h hs
  obtain rfl : inits = 0 := by omega
  have hquery := h.query (Nat.succ_pos queried)
  exact ⟨rfl, Or.inl rfl, hp, hlive, h.current, fun _ => hquery, fun _ => ⟨hquery, rfl⟩⟩

theorem after_retry (retries : Nat) (h : Sound s (inits + 1) shuts (polled + 1) queried) :
    After (s.retry retries) inits shuts polled queried := by
  cases retries <;> exact ⟨h.one, h.stops, h.within, h.timers, h.current, h.query, h.clients⟩

theorem sound_fewer {n : Nat} (h : Sound s inits shuts polled (queried + n)) :
    Sound s inits shuts polled queried :=
  ⟨h.one, h.stops, h.within, h.timers, h.current, fun hq => h.query (by omega), h.clients⟩

theorem after_resume {k : Await} {o : Outcome} {r : NodeClient × Option Await}
    (h : Sound s (inits + (initializing k).toNat) (shuts + (shuttingDown k).toNat)
      (polled + (polls k).toNat) (queried + (queries k).toNat))
    (hp : polled ≤ inits) (hr : resume k o s = some r) : After r inits shuts polled queried := by
  cases o with
  | fetched o =>
      obtain ⟨hlive, htimer⟩ := endFetch_timers s.serverHealthFetcher o
      cases k with
      | fetching =>
          obtain rfl := Option.some.inj hr
          exact after_connect (sound_fetcher h hlive htimer) hp
      | polling timer =>
          obtain rfl := Option.some.inj hr
          exact sound_fetcher h hlive htimer
      | _ => cases hr
  | ok =>
      cases k with
      | fetching | polling timer => cases hr
      | fetchSkipped =>
          obtain rfl := Option.some.inj hr
          exact after_connect h hp
      | interactionContext retries | ledgerTip context retries =>
          obtain rfl := Option.some.inj hr
          exact ⟨h.one, h.stops, h.within, h.timers, h.current, h.query, h.clients⟩
      | stateQueryClient context retries =>
          obtain rfl := Option.some.inj hr
          exact ⟨h.one, h.stops, h.within, h.timers, h.current, fun _ => rfl,
            fun hs => ⟨rfl, (h.clients hs).2⟩⟩
      | txSubmissionClient context retries =>
          obtain rfl := Option.some.inj hr
          exact after_completed context h hp
      | timerCleared timer =>
          rw [resume] at hr
          split at hr
          · cases hr
          · obtain rfl := Option.some.inj hr
            exact after_shutdownClients h
      | stateQueryClosed context =>
          obtain rfl := Option.some.inj hr
          apply after_shutdownTxSubmission
          exact ⟨h.one, h.stops, h.within, h.timers, h.current, h.query, h.clients⟩
      | txSubmissionClosed context =>
          obtain rfl := Option.some.inj hr
          apply after_stopped (s := { s with closing := s.closing.erase context })
          exact ⟨h.one, h.stops, h.within, h.timers, h.current, h.query, h.clients⟩
      | shutDown =>
          obtain rfl := Option.some.inj hr
          exact after_nodeInitialize h
  | fails =>
      cases k with
      | interactionContext retries | stateQueryClient context retries =>
          obtain rfl := Option.some.inj hr
          exact after_retry retries h
      | ledgerTip context retries | txSubmissionClient context retries =>
          obtain rfl := Option.some.inj hr
          exact after_retry retries (sound_fewer h)
      | _ => cases hr

/-- One initialization at a time, and one live timer where the client is initialized. -/
structure Flight (w : World NodeClient Await) : Prop where
  initializations : w.pending.countP initializing ≤ 1
  timers : w.shared.state = .initialized → w.shared.serverHealthFetcher.live.length = 1

/-- The same, but for the time that a shutdown takes. -/
structure FlightBetween (w : World NodeClient Await) : Prop where
  initializations : w.pending.countP initializing ≤ 1
  timers : w.shared.state = .initialized → w.pending.countP shuttingDown = 0 →
    w.shared.serverHealthFetcher.live.length = 1

/-- No context closes abnormally while the client is initialized. -/
def Undisturbed (w : World NodeClient Await) (e : Event Trigger Outcome) : Prop :=
  ∀ context, e = .call (.closed context) → w.shared.state ≠ .initialized

def OneByOne (w : World NodeClient Await) (e : Event Trigger Outcome) : Prop :=
  ∀ context, e = .call (.closed context) → w.shared.state = .initialized →
    w.pending.countP shuttingDown = 0

def SoundWorld (w : World NodeClient Await) : Prop :=
  Sound w.shared (w.pending.countP initializing) (w.pending.countP shuttingDown)
    (w.pending.countP polls) (w.pending.countP queries)

theorem polls_initializing (pending : List Await) : pending.countP polls ≤ pending.countP initializing := by
  apply List.countP_mono_left
  intro k _ hk
  cases k <;> first | rfl | cases hk

theorem sound_of_after {rest : List Await} {r : NodeClient × Option Await}
    (h : After r (rest.countP initializing) (rest.countP shuttingDown) (rest.countP polls)
      (rest.countP queries)) : SoundWorld ⟨r.1, rest ++ r.2.toList⟩ := by
  simp only [SoundWorld, countP_call]
  exact h

theorem after_receive {t : Trigger} {r : NodeClient × Option Await}
    (h : Sound s inits shuts polled queried) (hr : receive t s = some r)
    (hidle : ∀ context, t = .closed context → s.state = .initialized → shuts = 0) :
    After r inits shuts polled queried := by
  cases t with
  | called =>
      obtain rfl := Option.some.inj hr
      exact after_nodeInitialize h
  | closed context =>
      rw [receive, onClosed] at hr
      split at hr
      · obtain rfl := Option.some.inj hr
        apply after_shutdown
        · exact ⟨h.one, h.stops, h.within, h.timers, h.current, h.query, h.clients⟩
        · exact hidle context rfl
      · cases hr
  | interval timer =>
      rw [receive, onInterval] at hr
      dsimp only at hr
      split at hr
      · cases hr
      · split at hr
        · obtain rfl := Option.some.inj hr
          exact h
        · obtain rfl := Option.some.inj hr
          exact sound_fetcher h rfl rfl

theorem sound_step {w w' : World NodeClient Await} {e : Event Trigger Outcome} (h : SoundWorld w)
    (he : OneByOne w e) (hstep : step node w e = some w') : SoundWorld w' := by
  cases e with
  | call t =>
      obtain ⟨r, hr, rfl⟩ := step_call hstep
      exact sound_of_after (after_receive h (call_alive hr).2 fun context ht => he context (ht ▸ rfl))
  | settle n o =>
      obtain ⟨k, rest, r, hperm, hr, rfl⟩ := step_settle hstep
      apply sound_of_after
      apply after_resume _ (polls_initializing rest) (resume_alive hr).2
      rw [SoundWorld] at h
      simpa only [countP_pending _ hperm] using h

theorem sound_started : SoundWorld started := by
  refine ⟨rfl, Or.inl rfl, le_rfl, rfl, fun timer h => ?_, fun h => ?_, fun h => ?_⟩
  · cases h
  · cases h
  · cases h

theorem flightBetween_of_sound {w : World NodeClient Await} (h : SoundWorld w) : FlightBetween w := by
  refine ⟨?_, fun hs hidle => ?_⟩
  · rw [h.one]
    split <;> simp
  · obtain ⟨-, -, hlive⟩ := idle_of_initialized h hs
    rwa [hidle] at hlive

theorem flight_iff {w : World NodeClient Await} (h : SoundWorld w) :
    Flight w ↔ w.pending.countP shuttingDown = 0 := by
  constructor
  · intro hflight
    rcases h.stops with hidle | ⟨-, hs⟩
    · exact hidle
    · have hlive := hflight.timers hs
      obtain ⟨-, -, hsum⟩ := idle_of_initialized h hs
      omega
  · intro hidle
    have hbetween := flightBetween_of_sound h
    exact ⟨hbetween.initializations, fun hs => hbetween.timers hs hidle⟩

theorem nodeInitialize_stops (s : NodeClient) : (nodeInitialize s).2.any shuttingDown = false := by
  rw [nodeInitialize]
  split
  · rfl
  · split <;> rfl

theorem resume_stops {k : Await} {o : Outcome} {r : NodeClient × Option Await}
    (hk : shuttingDown k = false) (hr : resume k o s = some r) : r.2.any shuttingDown = false := by
  cases o with
  | fetched o =>
      cases k with
      | fetching | polling timer =>
          obtain rfl := Option.some.inj hr
          rfl
      | _ => cases hr
  | ok =>
      cases k with
      | fetching | polling timer => cases hr
      | timerCleared timer | stateQueryClosed context | txSubmissionClosed context => cases hk
      | shutDown =>
          obtain rfl := Option.some.inj hr
          exact nodeInitialize_stops s
      | _ =>
          obtain rfl := Option.some.inj hr
          rfl
  | fails =>
      cases k with
      | interactionContext retries | stateQueryClient context retries | ledgerTip context retries
      | txSubmissionClient context retries =>
          obtain rfl := Option.some.inj hr
          cases retries <;> rfl
      | _ => cases hr

theorem receive_stops {t : Trigger} {r : NodeClient × Option Await}
    (h : Sound s inits 0 polled queried) (hr : receive t s = some r) :
    r.2.any shuttingDown = false ↔ ∀ context, t = .closed context → s.state ≠ .initialized := by
  cases t with
  | called =>
      obtain rfl := Option.some.inj hr
      exact iff_of_true (nodeInitialize_stops s) fun _ ht => by cases ht
  | interval timer =>
      rw [receive, onInterval] at hr
      dsimp only at hr
      split at hr
      · cases hr
      · split at hr
        · obtain rfl := Option.some.inj hr
          exact iff_of_true rfl fun _ ht => by cases ht
        · obtain rfl := Option.some.inj hr
          exact iff_of_true rfl fun _ ht => by cases ht
  | closed context =>
      rw [receive, onClosed] at hr
      split at hr
      · obtain rfl := Option.some.inj hr
        unfold shutdown
        split
        next hs => exact iff_of_true rfl fun _ _ => hs
        next hs =>
          have hs := not_not.mp hs
          obtain ⟨-, -, hlive⟩ := idle_of_initialized h hs
          obtain ⟨timer, htimer⟩ := List.length_eq_one_iff.mp hlive
          have hcurrent := h.current timer (by rw [htimer]; exact List.mem_cons_self)
          split
          next hnone => exact absurd (hcurrent.symm.trans hnone) (by simp)
          next => exact iff_of_false (by simp) fun ht => absurd hs (ht context rfl)
      · cases hr

theorem stops_step {w w' : World NodeClient Await} {e : Event Trigger Outcome} (h : SoundWorld w)
    (hidle : w.pending.countP shuttingDown = 0) (hstep : step node w e = some w') :
    w'.pending.countP shuttingDown = 0 ↔ Undisturbed w e := by
  cases e with
  | call t =>
      obtain ⟨r, hr, rfl⟩ := step_call hstep
      rw [SoundWorld, hidle] at h
      rw [countP_call, hidle, Nat.zero_add, Bool.toNat_eq_zero, receive_stops h (call_alive hr).2]
      exact ⟨fun hs context he => hs context (by cases he; rfl), fun hs context ht => hs context (ht ▸ rfl)⟩
  | settle n o =>
      obtain ⟨k, rest, r, hperm, hr, rfl⟩ := step_settle hstep
      rw [countP_pending _ hperm, Nat.add_eq_zero_iff, Bool.toNat_eq_zero] at hidle
      rw [countP_call, hidle.1, resume_stops hidle.2 (resume_alive hr).2]
      exact iff_of_true rfl fun context he => by cases he

/-- There is one flight throughout exactly when no context closes under an initialized
client; where none does during a shutdown, there is but for the shutdowns. -/
theorem single_flight_iff {es : List (Event Trigger Outcome)} {w : World NodeClient Await}
    (hrun : run (step node) started es = some w) :
    (Throughout (step node) Flight started es ↔ EachStep (step node) Undisturbed started es) ∧
      (EachStep (step node) OneByOne started es → Throughout (step node) FlightBetween started es) := by
  have hsound : ∀ s e t, SoundWorld s → Flight s → step node s e = some t → SoundWorld t := by
    intro s e t h hflight ht
    exact sound_step h (fun _ _ _ => (flight_iff h).mp hflight) ht
  constructor
  · apply throughout_iff hsound _ sound_started ((flight_iff sound_started).mpr rfl) hrun
    intro s e t h hflight ht
    rw [flight_iff (hsound s e t h hflight ht)]
    exact stops_step h ((flight_iff h).mp hflight) ht
  · intro hone es' hp t ht
    have hsafe := run_invariant (fun s e t => sound_step) sound_started hone
    exact flightBetween_of_sound (hsafe es' hp t ht)

def restart : List (Event Trigger Outcome) :=
  [.call .called, .settle 0 (.fetched (.value ⟨1⟩)), .settle 0 .ok, .settle 0 .ok, .settle 0 .fails,
    .settle 0 .ok, .settle 0 .ok, .settle 0 .ok, .settle 0 .ok, .call (.closed 0), .settle 0 .ok,
    .call (.closed 1), .settle 0 .ok, .settle 1 .ok, .settle 0 .ok, .settle 1 .ok]

def reconnect : List (Event Trigger Outcome) :=
  [.settle 1 .ok, .settle 0 (.fetched (.value ⟨1⟩)), .settle 1 .ok, .settle 1 .ok, .settle 1 .ok, .settle 1 .ok]

theorem restart_iff :
    ∃ w, run (step node) started restart = some w ∧
      (Throughout (step node) Flight started restart ↔ EachStep (step node) Undisturbed started restart) ∧
      (EachStep (step node) OneByOne started restart →
        Throughout (step node) FlightBetween started restart) := by
  have hrun : (run (step node) started restart).isSome = true := by decide +kernel
  obtain ⟨w, hw⟩ := Option.isSome_iff_exists.mp hrun
  exact ⟨w, hw, single_flight_iff hw⟩

theorem restart_overlaps :
    (∃ w, run (step node) started restart = some w ∧ w.pending.countP initializing = 2) ∧
      (∃ w, run (step node) started (restart ++ reconnect) = some w ∧ w.shared.state = .initialized ∧
        w.shared.serverHealthFetcher.live = [1, 2]) ∧
      ¬ ∀ es w, run (step node) started es = some w → Flight w := by
  have htwo : (run (step node) started restart).map (fun w => w.pending.countP initializing) = some 2 := by
    decide +kernel
  have hlive : (run (step node) started (restart ++ reconnect)).map (fun w =>
      (w.shared.state, w.shared.serverHealthFetcher.live)) = some (.initialized, [1, 2]) := by
    decide +kernel
  obtain ⟨w, hw, hinits⟩ := Option.map_eq_some_iff.mp htwo
  obtain ⟨v, hv, hboth⟩ := Option.map_eq_some_iff.mp hlive
  obtain ⟨hstate, htimers⟩ := Prod.mk.inj hboth
  refine ⟨⟨w, hw, hinits⟩, ⟨v, hv, hstate, htimers⟩, fun h => ?_⟩
  have hle := (h restart w hw).initializations
  omega

end CardanoGraphql.SingleFlight
