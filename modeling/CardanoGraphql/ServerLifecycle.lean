import CardanoGraphql.ModuleState
import CardanoGraphql.SyncProgress
import CardanoGraphql.Tasks

namespace CardanoGraphql.ServerLifecycle

open Runs Tasks SyncProgress

inductive Report
  | dbReady (timer : Nat)
  | syncProgress (timer : Nat) (cardanoDbSync asset : JsNumber)
deriving DecidableEq, Repr

/-- `Server` with the HTTP servers and timers it has made, both numbered by the `start` that
made them: `listening` are the servers whose socket is open, `live` the timers that are not
cleared, `handling` those whose handler is under way, and `clearing` those that a `shutdown`
waits for. -/
structure Server where
  state : ModuleState
  httpServer : Option Nat
  syncProgress : Option Nat
  starts : Nat
  listening : List Nat
  live : List Nat
  handling : List Nat
  clearing : List Nat
  reports : List Report
deriving DecidableEq, Repr

/-- A call of a method, and the interval of a timer. -/
inductive Trigger
  | callInit
  | callStart
  | callShutdown
  | interval (timer : Nat)
deriving DecidableEq, Repr

inductive Await
  | initializing
  | listenPromise
  | executeOperation (timer : Nat)
  | clearIntervalAsync (timer : Nat)
deriving DecidableEq, Repr

/-- `errors` and `status` are what `executeOperation` gives. -/
inductive Outcome
  | ok
  | fails
  | errors
  | status (initialized : Bool) (syncPercentage : JsNumber) (assets tokenMints : Nat)
deriving DecidableEq, Repr

def Server.fresh : Server :=
  { state := .null
    httpServer := none
    syncProgress := none
    starts := 0
    listening := []
    live := []
    handling := []
    clearing := []
    reports := [] }

def serverInit (s : Server) : Server × Option Await :=
  if s.state ≠ .null then (s, none) else ({ s with state := .initializing }, some .initializing)

def start (s : Server) : Server × Option Await :=
  if s.state ≠ .initialized then (s, none) else (s, some .listenPromise)

def shutdown (s : Server) : Server × Option Await :=
  if s.state ≠ .running then (s, none)
  else match s.syncProgress with
    | none => (s, none)
    | some timer =>
        ({ s with live := s.live.erase timer, clearing := timer :: s.clearing },
          some (.clearIntervalAsync timer))

/-- The handler of a timer is not called again before it has ended. -/
def onInterval (timer : Nat) (s : Server) : Option (Server × Option Await) :=
  if timer ∉ s.live ∨ timer ∈ s.handling then none
  else some ({ s with handling := timer :: s.handling }, some (.executeOperation timer))

def receive : Trigger → Server → Option (Server × Option Await)
  | .callInit, s => some (serverInit s)
  | .callStart, s => some (start s)
  | .callShutdown, s => some (shutdown s)
  | .interval timer, s => onInterval timer s

def listened (s : Server) : Server :=
  { s with
    state := .running
    httpServer := some s.starts
    syncProgress := some s.starts
    starts := s.starts + 1
    listening := s.starts :: s.listening
    live := s.starts :: s.live }

/-- A port takes one server at a time, and 0 stands for any that is free. What can go on without
an event does so before a port is taken: a cleared timer whose handler has ended. -/
def canListen (port : Nat) (s : Server) : Bool :=
  (port == 0 || s.listening.isEmpty) && s.clearing.all fun timer => s.handling.contains timer

/-- The handler clears the timer of the field `syncProgress`. -/
def reportStatus (timer : Nat) (initialized : Bool) (syncPercentage : JsNumber) (assets tokenMints : Nat)
    (s : Server) : Server :=
  if dbReady initialized assets tokenMints then
    { s with
      reports := s.reports ++ [.dbReady timer]
      live := s.syncProgress.elim s.live s.live.erase }
  else
    { s with
      reports := s.reports ++ [.syncProgress timer syncPercentage (assetSyncPercentage assets tokenMints)] }

def endHandler (timer : Nat) (s : Server) : Server := { s with handling := s.handling.erase timer }

def closed (timer : Nat) (s : Server) : Server :=
  { s with
    state := .initialized
    listening := s.httpServer.elim s.listening s.listening.erase
    clearing := s.clearing.erase timer }

def resume (port : Nat) : Await → Outcome → Server → Option (Server × Option Await)
  | .initializing, .ok, s => some ({ s with state := .initialized }, none)
  | .initializing, .fails, s => some (s, none)
  | .listenPromise, .ok, s => if canListen port s then some (listened s, none) else none
  | .listenPromise, .fails, s => some (s, none)
  | .executeOperation timer, .errors, s => some (endHandler timer s, none)
  | .executeOperation timer, .status initialized syncPercentage assets tokenMints, s =>
      some (endHandler timer (reportStatus timer initialized syncPercentage assets tokenMints s), none)
  | .clearIntervalAsync timer, .ok, s => if timer ∈ s.handling then none else some (closed timer s, none)
  | _, _, _ => none

def server (port : Nat) : Machine Server Await Trigger Outcome where
  call := receive
  resume := resume port

def started : World Server Await := ⟨Server.fresh, []⟩

def handlerOf : Await → Option Nat
  | .executeOperation timer => some timer
  | _ => none

def clearedBy : Await → Option Nat
  | .clearIntervalAsync timer => some timer
  | _ => none

def readyTimer : Report → Option Nat
  | .dbReady timer => some timer
  | .syncProgress _ _ _ => none

def readyTimers (s : Server) : List Nat := s.reports.filterMap readyTimer

/-- A server that does not run has nothing open; one that runs has what its last `start`
made, and no timer once a `shutdown` has cleared it. -/
inductive Phase (s : Server) : Prop
  | stopped (state : s.state ≠ .running) (listening : s.listening = []) (live : s.live = [])
      (handling : s.handling = []) (clearing : ∀ timer ∈ s.clearing, s.syncProgress = some timer)
  | running (n : Nat) (state : s.state = .running) (server : s.httpServer = some n)
      (timer : s.syncProgress = some n) (listening : s.listening = [n])
      (live : s.live = [n] ∧ s.clearing = [] ∨ s.live = []) (handling : s.handling = [] ∨ s.handling = [n])
      (clearing : ∀ timer ∈ s.clearing, timer = n) (made : n < s.starts)

structure Sound (s : Server) (pending : List Await) : Prop where
  phase : Phase s
  initializing : pending.count .initializing ≤ if s.state = .initializing then 1 else 0
  begun : ∀ k ∈ pending, k ≠ .initializing → s.state = .initialized ∨ s.state = .running
  handlers : (pending.filterMap handlerOf).Perm s.handling
  clears : (pending.filterMap clearedBy).Perm s.clearing
  ready : (readyTimers s).Nodup
  silent : ∀ timer ∈ readyTimers s, timer < s.starts ∧ timer ∉ s.live ∧ timer ∉ s.handling

variable {port : Nat} {s : Server} {pending : List Await}

theorem Sound.perm {pending' : List Await} (h : pending.Perm pending') (hs : Sound s pending) :
    Sound s pending' where
  phase := hs.phase
  initializing := h.count_eq _ ▸ hs.initializing
  begun := fun k hk => hs.begun k (h.mem_iff.mpr hk)
  handlers := (h.symm.filterMap handlerOf).trans hs.handlers
  clears := (h.symm.filterMap clearedBy).trans hs.clears
  ready := hs.ready
  silent := hs.silent

theorem sound_init (hs : Sound s pending) :
    Sound (serverInit s).1 (pending ++ (serverInit s).2.toList) := by
  rw [serverInit]
  split
  next => simpa using hs
  next hnull =>
    have hnull : s.state = .null := not_not.mp hnull
    have hcount : pending.count .initializing = 0 := by
      have := hs.initializing
      rw [hnull] at this
      simpa using this
    cases hs.phase with
    | stopped state listening live handling clearing =>
        refine
          { phase := .stopped (by simp) listening live handling clearing
            initializing := by simp [hcount]
            begun := fun k hk hne => ?_
            handlers := by simpa [handlerOf, List.filterMap_cons] using hs.handlers
            clears := by simpa [clearedBy, List.filterMap_cons] using hs.clears
            ready := hs.ready
            silent := hs.silent }
        rcases List.mem_append.mp hk with hk | hk
        · have := hs.begun k hk hne
          rw [hnull] at this
          simp at this
        · exact absurd (List.mem_singleton.mp hk) hne
    | running n state =>
        rw [hnull] at state
        cases state

theorem sound_start (hs : Sound s pending) : Sound (start s).1 (pending ++ (start s).2.toList) := by
  rw [start]
  split
  next => simpa using hs
  next hinitialized =>
    exact
      { phase := hs.phase
        initializing := by simpa using hs.initializing
        begun := fun _ _ _ => Or.inl (not_not.mp hinitialized)
        handlers := by simpa [handlerOf, List.filterMap_cons] using hs.handlers
        clears := by simpa [clearedBy, List.filterMap_cons] using hs.clears
        ready := hs.ready
        silent := hs.silent }

theorem sound_shutdown (hs : Sound s pending) :
    Sound (shutdown s).1 (pending ++ (shutdown s).2.toList) := by
  rw [shutdown]
  split
  next => simpa using hs
  next hrunning =>
    cases hs.phase with
    | stopped state => exact absurd state hrunning
    | running n state server timer listening live handling clearing made =>
        have hlive : s.live.erase n = [] := by
          rcases live with ⟨live, -⟩ | live <;> simp [live]
        rw [timer]
        dsimp only
        rw [hlive]
        refine
          { phase := .running n state server rfl listening (Or.inr rfl) handling ?_ made
            initializing := by simpa using hs.initializing
            begun := fun _ _ _ => Or.inr state
            handlers := by simpa [handlerOf, List.filterMap_cons] using hs.handlers
            clears := ?_
            ready := hs.ready
            silent := ?_ }
        · intro t ht
          rcases List.mem_cons.mp ht with rfl | ht
          · rfl
          · exact clearing t ht
        · rw [List.filterMap_append]
          exact List.perm_append_comm.trans (hs.clears.cons n)
        · intro t ht
          exact ⟨(hs.silent t ht).1, List.not_mem_nil, (hs.silent t ht).2.2⟩

theorem sound_interval {timer : Nat} {r : Server × Option Await} (h : onInterval timer s = some r)
    (hs : Sound s pending) : Sound r.1 (pending ++ r.2.toList) := by
  rw [onInterval] at h
  split at h
  next => cases h
  next hfires =>
    push Not at hfires
    obtain ⟨hlive, hidle⟩ := hfires
    obtain rfl := Option.some.inj h
    cases hs.phase with
    | stopped state listening live =>
        rw [live] at hlive
        cases hlive
    | running n state server htimer listening live handling clearing made =>
        obtain rfl : timer = n := by
          rcases live with ⟨live, -⟩ | live
          · exact List.mem_singleton.mp (live ▸ hlive)
          · rw [live] at hlive
            cases hlive
        have hnone : s.handling = [] := by
          rcases handling with handling | handling
          · exact handling
          · exact absurd (handling ▸ List.mem_singleton.mpr rfl) hidle
        refine
          { phase := .running timer state server htimer listening live (Or.inr (by rw [hnone])) clearing made
            initializing := by simpa using hs.initializing
            begun := fun _ _ _ => Or.inr state
            handlers := ?_
            clears := by simpa [clearedBy, List.filterMap_cons] using hs.clears
            ready := hs.ready
            silent := ?_ }
        · rw [List.filterMap_append]
          exact List.perm_append_comm.trans (hs.handlers.cons timer)
        · intro t ht
          obtain ⟨hmade, hquiet, -⟩ := hs.silent t ht
          refine ⟨hmade, hquiet, ?_⟩
          rw [hnone, List.mem_singleton]
          rintro rfl
          exact hquiet hlive

theorem canListen_iff : canListen port s = true ↔
    (port = 0 ∨ s.listening = []) ∧ ∀ timer ∈ s.clearing, timer ∈ s.handling := by
  simp [canListen]

theorem sound_initialized (hs : Sound s (.initializing :: pending)) :
    Sound { s with state := .initialized } pending := by
  have hcount := hs.initializing
  rw [List.count_cons_self] at hcount
  have hstate : s.state = .initializing := by
    by_contra hne
    rw [if_neg hne] at hcount
    omega
  rw [if_pos hstate] at hcount
  cases hs.phase with
  | stopped state listening live handling clearing =>
      exact
        { phase := .stopped (by simp) listening live handling clearing
          initializing := by simpa using hcount
          begun := fun _ _ _ => Or.inl rfl
          handlers := hs.handlers
          clears := hs.clears
          ready := hs.ready
          silent := hs.silent }
  | running n state =>
      rw [hstate] at state
      cases state

theorem count_initializing {k : Await} (hs : Sound s (k :: pending)) (hk : k ≠ .initializing) (n : Nat) :
    pending.count .initializing ≤ n := by
  have hcount := hs.initializing
  rw [List.count_cons_of_ne hk, if_neg] at hcount
  · omega
  · intro hstate
    have := hs.begun k List.mem_cons_self hk
    rw [hstate] at this
    simp at this

theorem sound_listened (hport : port ≠ 0) (hs : Sound s (.listenPromise :: pending))
    (h : canListen port s = true) : Sound (listened s) pending := by
  obtain ⟨hfree, hready⟩ := canListen_iff.mp h
  have hfree := hfree.resolve_left hport
  cases hs.phase with
  | stopped state listening live handling clearing =>
      have hclear : s.clearing = [] := by
        rw [List.eq_nil_iff_forall_not_mem]
        intro t ht
        rw [handling] at hready
        cases hready t ht
      refine
        { phase := .running s.starts rfl rfl rfl (by rw [listened, listening]) (Or.inl ⟨?_, hclear⟩)
            (Or.inl handling) (fun t ht => ?_) (Nat.lt_succ_self _)
          initializing := ?_
          begun := fun _ _ _ => Or.inr rfl
          handlers := hs.handlers
          clears := hs.clears
          ready := hs.ready
          silent := fun t ht => ?_ }
      · rw [listened, live]
      · rw [listened, hclear] at ht
        cases ht
      · exact count_initializing hs (by simp) _
      · obtain ⟨hmade, -, hended⟩ := hs.silent t ht
        refine ⟨Nat.lt_succ_of_lt hmade, ?_, hended⟩
        rw [listened, live, List.mem_singleton]
        exact Nat.ne_of_lt hmade
  | running n state server timer listening =>
      rw [listening] at hfree
      cases hfree

structure Handling (s : Server) (timer : Nat) : Prop where
  state : s.state = .running
  server : s.httpServer = some timer
  current : s.syncProgress = some timer
  listening : s.listening = [timer]
  live : s.live = [timer] ∧ s.clearing = [] ∨ s.live = []
  handling : s.handling = [timer]
  clearing : ∀ t ∈ s.clearing, t = timer
  made : timer < s.starts

theorem handling_of_sound {timer : Nat} (hs : Sound s (.executeOperation timer :: pending)) :
    Handling s timer := by
  have hmem : timer ∈ s.handling := hs.handlers.mem_iff.mp List.mem_cons_self
  cases hs.phase with
  | stopped state listening live handling =>
      rw [handling] at hmem
      cases hmem
  | running n state server htimer listening live handling clearing made =>
      rcases handling with handling | handling
      · rw [handling] at hmem
        cases hmem
      · obtain rfl := List.mem_singleton.mp (handling ▸ hmem)
        exact ⟨state, server, htimer, listening, live, handling, clearing, made⟩

theorem handlers_ended {timer : Nat} (hs : Sound s (.executeOperation timer :: pending)) :
    pending.filterMap handlerOf = [] := by
  have hperm := hs.handlers
  rw [(handling_of_sound hs).handling] at hperm
  exact List.perm_nil.mp (List.perm_cons timer |>.mp hperm)

theorem sound_errors {timer : Nat} (hs : Sound s (.executeOperation timer :: pending)) :
    Sound (endHandler timer s) pending := by
  have h := handling_of_sound hs
  have hnone : (endHandler timer s).handling = [] := by simp [endHandler, h.handling]
  exact
    { phase := .running timer h.state h.server h.current h.listening h.live (Or.inl hnone) h.clearing h.made
      initializing := count_initializing hs (by simp) _
      begun := fun _ _ _ => Or.inr h.state
      handlers := by rw [handlers_ended hs, hnone]
      clears := hs.clears
      ready := hs.ready
      silent := fun t ht => ⟨(hs.silent t ht).1, (hs.silent t ht).2.1, by rw [hnone]; exact List.not_mem_nil⟩ }

theorem sound_ready {timer : Nat} (hs : Sound s (.executeOperation timer :: pending)) :
    Sound (endHandler timer
      { s with
        reports := s.reports ++ [.dbReady timer]
        live := s.syncProgress.elim s.live s.live.erase }) pending := by
  have h := handling_of_sound hs
  have hlive : s.syncProgress.elim s.live s.live.erase = [] := by
    rw [h.current]
    rcases h.live with ⟨hl, -⟩ | hl <;> simp [hl]
  have hnone : s.handling.erase timer = [] := by simp [h.handling]
  have hfirst : timer ∉ readyTimers s := by
    intro ht
    exact (hs.silent timer ht).2.2 (h.handling ▸ List.mem_singleton.mpr rfl)
  rw [hlive]
  refine
    { phase := .running timer h.state h.server h.current h.listening (Or.inr rfl) (Or.inl hnone) h.clearing h.made
      initializing := count_initializing hs (by simp) _
      begun := fun _ _ _ => Or.inr h.state
      handlers := by rw [handlers_ended hs, endHandler, hnone]
      clears := hs.clears
      ready := ?_
      silent := fun t ht => ?_ }
  · simp only [readyTimers, endHandler, List.filterMap_append]
    exact List.nodup_append.mpr ⟨hs.ready, List.nodup_singleton timer, fun t ht t' ht' => by
      rintro rfl
      exact hfirst (List.mem_singleton.mp ht' ▸ ht)⟩
  · refine ⟨?_, List.not_mem_nil, by rw [endHandler, hnone]; exact List.not_mem_nil⟩
    simp only [readyTimers, endHandler, List.filterMap_append] at ht
    rcases List.mem_append.mp ht with ht | ht
    · exact (hs.silent t ht).1
    · exact List.mem_singleton.mp ht ▸ h.made

theorem sound_status {timer : Nat} (hs : Sound s (.executeOperation timer :: pending)) (initialized : Bool)
    (syncPercentage : JsNumber) (assets tokenMints : Nat) :
    Sound (endHandler timer (reportStatus timer initialized syncPercentage assets tokenMints s)) pending := by
  rw [reportStatus]
  split
  next => exact sound_ready hs
  next =>
    have hsame : readyTimers { s with
        reports := s.reports ++ [.syncProgress timer syncPercentage (assetSyncPercentage assets tokenMints)] } =
          readyTimers s := by
      simp [readyTimers, readyTimer, List.filterMap_cons]
    have hended := sound_errors hs
    exact
      { phase := by
          cases hended.phase with
          | stopped state listening live handling clearing => exact .stopped state listening live handling clearing
          | running n state server htimer listening live handling clearing made =>
              exact .running n state server htimer listening live handling clearing made
        initializing := hended.initializing
        begun := hended.begun
        handlers := hended.handlers
        clears := hended.clears
        ready := hsame ▸ hs.ready
        silent := hsame ▸ hended.silent }

theorem sound_closed {timer : Nat} (hs : Sound s (.clearIntervalAsync timer :: pending))
    (hidle : timer ∉ s.handling) : Sound (closed timer s) pending := by
  have hmem : timer ∈ s.clearing := hs.clears.mem_iff.mp List.mem_cons_self
  have hclears : (pending.filterMap clearedBy).Perm (s.clearing.erase timer) :=
    List.perm_cons timer |>.mp (hs.clears.trans (List.perm_cons_erase hmem))
  have hphase : s.httpServer.elim s.listening s.listening.erase = [] ∧ s.live = [] ∧ s.handling = [] ∧
      ∀ t ∈ s.clearing, s.syncProgress = some t := by
    cases hs.phase with
    | stopped state listening live handling clearing =>
        rw [listening]
        exact ⟨by cases s.httpServer <;> rfl, live, handling, clearing⟩
    | running n state server htimer listening live handling clearing made =>
        have hn : timer = n := clearing timer hmem
        refine ⟨by simp [server, listening], ?_, ?_, fun t ht => clearing t ht ▸ htimer⟩
        · rcases live with ⟨-, hnone⟩ | live
          · rw [hnone] at hmem
            cases hmem
          · exact live
        · rcases handling with handling | handling
          · exact handling
          · rw [handling, hn, List.mem_singleton] at hidle
            exact absurd rfl hidle
  obtain ⟨hlisten, hlive, hhandling, hclearing⟩ := hphase
  exact
    { phase := .stopped (by simp [closed]) hlisten hlive hhandling fun t ht => hclearing t (List.mem_of_mem_erase ht)
      initializing := count_initializing hs (by simp) _
      begun := fun _ _ _ => Or.inl rfl
      handlers := hs.handlers
      clears := hclears
      ready := hs.ready
      silent := hs.silent }

theorem receive_sound {i : Trigger} {r : Server × Option Await} (h : receive i s = some r)
    (hs : Sound s pending) : Sound r.1 (pending ++ r.2.toList) := by
  cases i with
  | callInit => exact Option.some.inj h ▸ sound_init hs
  | callStart => exact Option.some.inj h ▸ sound_start hs
  | callShutdown => exact Option.some.inj h ▸ sound_shutdown hs
  | interval timer => exact sound_interval h hs

inductive Resumed (port : Nat) (s : Server) : Await → Outcome → Server → Prop
  | initialized : Resumed port s .initializing .ok { s with state := .initialized }
  | notInitialized : Resumed port s .initializing .fails s
  | listened (free : canListen port s = true) : Resumed port s .listenPromise .ok (listened s)
  | rejected : Resumed port s .listenPromise .fails s
  | errors (timer : Nat) : Resumed port s (.executeOperation timer) .errors (endHandler timer s)
  | status (timer : Nat) (initialized : Bool) (syncPercentage : JsNumber) (assets tokenMints : Nat) :
      Resumed port s (.executeOperation timer) (.status initialized syncPercentage assets tokenMints)
        (endHandler timer (reportStatus timer initialized syncPercentage assets tokenMints s))
  | closed (timer : Nat) (idle : timer ∉ s.handling) :
      Resumed port s (.clearIntervalAsync timer) .ok (closed timer s)

theorem resumed {k : Await} {o : Outcome} {r : Server × Option Await} (h : resume port k o s = some r) :
    r.2 = none ∧ Resumed port s k o r.1 := by
  unfold resume at h
  split at h
  · obtain rfl := Option.some.inj h
    exact ⟨rfl, .initialized⟩
  · obtain rfl := Option.some.inj h
    exact ⟨rfl, .notInitialized⟩
  · split at h
    next hfree =>
      obtain rfl := Option.some.inj h
      exact ⟨rfl, .listened hfree⟩
    next => cases h
  · obtain rfl := Option.some.inj h
    exact ⟨rfl, .rejected⟩
  · obtain rfl := Option.some.inj h
    exact ⟨rfl, .errors _⟩
  · obtain rfl := Option.some.inj h
    exact ⟨rfl, .status _ _ _ _ _⟩
  · split at h
    next => cases h
    next hidle =>
      obtain rfl := Option.some.inj h
      exact ⟨rfl, .closed _ hidle⟩
  · cases h

theorem sound_rejected (hs : Sound s (.listenPromise :: pending)) : Sound s pending where
  phase := hs.phase
  initializing := count_initializing hs (by simp) _
  begun := fun k hk => hs.begun k (List.mem_cons_of_mem _ hk)
  handlers := hs.handlers
  clears := hs.clears
  ready := hs.ready
  silent := hs.silent

theorem sound_notInitialized (hs : Sound s (.initializing :: pending)) : Sound s pending where
  phase := hs.phase
  initializing := (List.count_le_count_cons).trans hs.initializing
  begun := fun k hk => hs.begun k (List.mem_cons_of_mem _ hk)
  handlers := hs.handlers
  clears := hs.clears
  ready := hs.ready
  silent := hs.silent

theorem resumed_sound (hport : port ≠ 0) {k : Await} {o : Outcome} {t : Server} (h : Resumed port s k o t)
    (hs : Sound s (k :: pending)) : Sound t pending := by
  cases h with
  | initialized => exact sound_initialized hs
  | notInitialized => exact sound_notInitialized hs
  | listened free => exact sound_listened hport hs free
  | rejected => exact sound_rejected hs
  | errors timer => exact sound_errors hs
  | status timer initialized syncPercentage assets tokenMints =>
      exact sound_status hs initialized syncPercentage assets tokenMints
  | closed timer idle => exact sound_closed hs idle

theorem sound_started : Sound started.shared started.pending where
  phase := .stopped (by decide) rfl rfl rfl (fun _ ht => by cases ht)
  initializing := Nat.zero_le _
  begun := fun _ hk => by cases hk
  handlers := List.Perm.refl []
  clears := List.Perm.refl []
  ready := List.nodup_nil
  silent := fun _ ht => by cases ht

variable {w w' : World Server Await}

theorem settled {n : Nat} {o : Outcome} (h : step (server port) w (.settle n o) = some w') :
    ∃ k, w.pending.Perm (k :: w'.pending) ∧ Resumed port w.shared k o w'.shared := by
  obtain ⟨k, rest, r, hpending, hr, rfl⟩ := step_settle h
  obtain ⟨hend, hresumed⟩ := resumed hr
  refine ⟨k, ?_, hresumed⟩
  rw [hend]
  simpa using hpending

theorem sound_step (hport : port ≠ 0) {e : Event Trigger Outcome} (hs : Sound w.shared w.pending)
    (h : step (server port) w e = some w') : Sound w'.shared w'.pending := by
  cases e with
  | call i =>
      obtain ⟨r, hr, rfl⟩ := step_call h
      exact receive_sound hr hs
  | settle n o =>
      obtain ⟨k, hpending, hresumed⟩ := settled h
      exact resumed_sound hport hresumed (hs.perm hpending)

theorem sound_run (hport : port ≠ 0) (es : List (Event Trigger Outcome)) :
    Throughout (step (server port)) (fun w => Sound w.shared w.pending) started es :=
  throughout_of_step (fun _ _ _ hw h => sound_step hport hw h) sound_started es

/-- One server listens, while the state is `running`, and one timer is live, of that server.
A timer that has reported `DB ready` has reported it once and does not fire again. -/
structure Alone (port : Nat) (w : World Server Await) : Prop where
  running : w.shared.state = .running ↔ ∃ n, w.shared.httpServer = some n ∧ w.shared.listening = [n]
  stopped : w.shared.state ≠ .running → w.shared.listening = [] ∧ w.shared.live = [] ∧ w.shared.handling = []
  timer : ∀ t, t ∈ w.shared.live ∨ t ∈ w.shared.handling →
    w.shared.httpServer = some t ∧ w.shared.syncProgress = some t
  handlers : (w.pending.filterMap handlerOf).length ≤ 1
  ready : (readyTimers w.shared).Nodup
  silent : ∀ t ∈ readyTimers w.shared, step (server port) w (.call (.interval t)) = none

theorem alone_of_sound (hs : Sound w.shared w.pending) : Alone port w := by
  have hsilent : ∀ t ∈ readyTimers w.shared, step (server port) w (.call (.interval t)) = none := by
    intro t ht
    have hnone : receive (.interval t) w.shared = none := by
      rw [receive, onInterval, if_pos (Or.inl (hs.silent t ht).2.1)]
    exact congrArg (Option.map _) hnone
  cases hs.phase with
  | stopped state listening live handling clearing =>
      refine
        { running := ⟨fun h => absurd h state, ?_⟩
          stopped := fun _ => ⟨listening, live, handling⟩
          timer := by
            intro t ht
            rw [live, handling] at ht
            simp at ht
          handlers := by
            rw [hs.handlers.length_eq, handling]
            exact Nat.zero_le 1
          ready := hs.ready
          silent := hsilent }
      rintro ⟨n, -, hlisten⟩
      rw [listening] at hlisten
      cases hlisten
  | running n state server timer listening live handling clearing made =>
      refine
        { running := ⟨fun _ => ⟨n, server, listening⟩, fun _ => state⟩
          stopped := fun h => absurd state h
          timer := ?_
          handlers := ?_
          ready := hs.ready
          silent := hsilent }
      · intro t ht
        have htn : t = n := by
          rcases ht with ht | ht
          · rcases live with ⟨live, -⟩ | live
            · exact List.mem_singleton.mp (live ▸ ht)
            · rw [live] at ht
              cases ht
          · rcases handling with handling | handling
            · rw [handling] at ht
              cases ht
            · exact List.mem_singleton.mp (handling ▸ ht)
        exact htn ▸ ⟨server, timer⟩
      · rw [hs.handlers.length_eq]
        rcases handling with handling | handling <;> simp [handling]

def startedTwice : List (Event Trigger Outcome) :=
  [.call .callInit, .settle 0 .ok, .call .callStart, .call .callStart, .settle 0 .ok, .settle 0 .ok]

theorem startedTwice_listening : ∃ w, run (step (server 0)) started startedTwice = some w ∧
    w.shared.state = .running ∧ w.shared.listening = [1, 0] :=
  ⟨_, rfl, rfl, rfl⟩

/-- Over any calls of `init`, `start` and `shutdown`, those that overlap included: it is the
port that keeps a second server from listening. -/
theorem server_alone_iff (port : Nat) :
    (∀ es : List (Event Trigger Outcome), Throughout (step (server port)) (Alone port) started es) ↔ port ≠ 0 := by
  constructor
  · rintro halone rfl
    obtain ⟨w, hw, hrunning, hlistening⟩ := startedTwice_listening
    obtain ⟨n, -, hn⟩ := (halone startedTwice startedTwice List.prefix_rfl w hw).running.mp hrunning
    rw [hlistening] at hn
    cases hn
  · exact fun hport es es' he _ ht => alone_of_sound (sound_run hport es es' he _ ht)

theorem settle_one (hs : Sound w.shared w.pending) (hpending : w.pending ≠ []) :
    ∃ n o w', step (server port) w (.settle n o) = some w' := by
  have hready : ∃ k ∈ w.pending, ∃ o r, resume port k o w.shared = some r := by
    by_cases hwaiting : ∃ k ∈ w.pending, clearedBy k = none
    · obtain ⟨k, hk, hnone⟩ := hwaiting
      cases k with
      | initializing | listenPromise => exact ⟨_, hk, .fails, _, rfl⟩
      | executeOperation timer => exact ⟨_, hk, .errors, _, rfl⟩
      | clearIntervalAsync timer => cases hnone
    · push Not at hwaiting
      have hidle : w.shared.handling = [] := by
        have hnone : w.pending.filterMap handlerOf = [] := by
          rw [List.filterMap_eq_nil_iff]
          intro k hk
          cases k with
          | executeOperation timer => exact absurd rfl (hwaiting _ hk)
          | initializing | listenPromise | clearIntervalAsync timer => rfl
        exact List.perm_nil.mp (hnone ▸ hs.handlers.symm)
      obtain ⟨k, hk⟩ := List.exists_mem_of_ne_nil w.pending hpending
      cases k with
      | clearIntervalAsync timer =>
          exact ⟨_, hk, .ok, _, if_neg (by rw [hidle]; exact List.not_mem_nil)⟩
      | initializing | listenPromise | executeOperation timer => exact absurd rfl (hwaiting _ hk)
  obtain ⟨k, hk, o, r, hr⟩ := hready
  obtain ⟨n, rest, -, hstep⟩ := step_resume (m := server port) hk hr
  exact ⟨n, o, _, hstep⟩

structure Stopping (w : World Server Await) : Prop where
  listens : .listenPromise ∉ w.pending
  clears : (∃ timer, .clearIntervalAsync timer ∈ w.pending) ∨ w.shared.state = .initialized

theorem stopping_settle {n : Nat} {o : Outcome} (h : step (server port) w (.settle n o) = some w')
    (hw : Stopping w) : Stopping w' := by
  obtain ⟨k, hpending, hresumed⟩ := settled h
  refine ⟨fun hmem => hw.listens (hpending.mem_iff.mpr (List.mem_cons_of_mem k hmem)), ?_⟩
  have hother : (∀ timer, k ≠ .clearIntervalAsync timer) → w'.shared.state = w.shared.state →
      (∃ timer, .clearIntervalAsync timer ∈ w'.pending) ∨ w'.shared.state = .initialized := by
    intro hk hstate
    rcases hw.clears with ⟨timer, hmem⟩ | hinitialized
    · rcases List.mem_cons.mp (hpending.mem_iff.mp hmem) with rfl | hmem
      · exact absurd rfl (hk timer)
      · exact Or.inl ⟨timer, hmem⟩
    · exact Or.inr (hstate.trans hinitialized)
  generalize w'.shared = t at hresumed hother
  cases hresumed with
  | initialized => exact Or.inr rfl
  | notInitialized => exact hother (by simp) rfl
  | listened free => exact absurd (hpending.mem_iff.mpr List.mem_cons_self) hw.listens
  | rejected => exact hother (by simp) rfl
  | errors timer => exact hother (by simp) rfl
  | status timer initialized syncPercentage assets tokenMints =>
      refine hother (by simp) ?_
      rw [reportStatus]
      split <;> rfl
  | closed timer idle => exact Or.inr rfl

/-- However its handlers and shutdowns are settled, each is settled once and none waits for
ever; a `shutdown` that is under way ends with nothing open where no `start` is. -/
theorem shutdown_settles (hport : port ≠ 0) {es es' : List (Event Trigger Outcome)} {w v : World Server Await}
    (hrun : run (step (server port)) started es = some w) (hes' : ∀ e ∈ es', ∃ n o, e = .settle n o)
    (hrun' : run (step (server port)) w es' = some v) :
    es'.length + v.pending.length = w.pending.length ∧
      (v.pending ≠ [] → ∃ n o u, step (server port) v (.settle n o) = some u) ∧
      (v.pending = [] → .listenPromise ∉ w.pending → (∃ timer, .clearIntervalAsync timer ∈ w.pending) →
        v.shared.state = .initialized ∧ v.shared.listening = [] ∧ v.shared.live = [] ∧ v.shared.handling = []) := by
  have hs : Sound w.shared w.pending := sound_run hport es es List.prefix_rfl w hrun
  have hkept : ∀ fs : List (Event Trigger Outcome), (∀ e ∈ fs, ∃ n o, e = .settle n o) →
      ∀ u, run (step (server port)) w fs = some u → Sound u.shared u.pending ∧
        fs.length + u.pending.length = w.pending.length ∧ (Stopping w → Stopping u) := by
    intro fs
    induction fs using List.reverseRecOn with
    | nil =>
        intro _ u hu
        obtain rfl := Option.some.inj hu
        exact ⟨hs, Nat.zero_add _, id⟩
    | append_singleton fs e ih =>
        intro hfs u hu
        rw [run_concat] at hu
        obtain ⟨x, hx, hxu⟩ := Option.bind_eq_some_iff.mp hu
        obtain ⟨hsound, hlength, hstopping⟩ := ih (fun e he => hfs e (List.mem_append_left _ he)) x hx
        obtain ⟨n, o, rfl⟩ := hfs e (List.mem_append_right _ List.mem_cons_self)
        refine ⟨sound_step hport hsound hxu, ?_, fun h => stopping_settle hxu (hstopping h)⟩
        obtain ⟨k, hpending, -⟩ := settled hxu
        have := hpending.length_eq
        rw [List.length_cons] at this
        rw [List.length_append, List.length_singleton]
        omega
  obtain ⟨hsound, hlength, hstopping⟩ := hkept es' hes' v hrun'
  refine ⟨hlength, fun hpending => settle_one hsound hpending, fun hnone hlistens hclears => ?_⟩
  have hstop := (hstopping ⟨hlistens, Or.inl hclears⟩).clears
  have hstate : v.shared.state = .initialized := by
    rcases hstop with ⟨timer, hmem⟩ | hstate
    · rw [hnone] at hmem
      cases hmem
    · exact hstate
  exact ⟨hstate, (@alone_of_sound port _ hsound).stopped (by rw [hstate]; simp)⟩

def stoppedWhileReporting : List (Event Trigger Outcome) :=
  [.call .callInit, .settle 0 .ok, .call .callStart, .settle 0 .ok, .call (.interval 0), .call .callShutdown]

theorem stoppedWhileReporting_settles :
    ∃ w v, run (step (server 3100)) started stoppedWhileReporting = some w ∧
      run (step (server 3100)) w [.settle 0 .errors, .settle 0 .ok] = some v ∧ v.pending = [] ∧
      v.shared.listening = [] := by
  refine ⟨_, _, rfl, rfl, rfl, ?_⟩
  exact ((@shutdown_settles 3100 (by decide) stoppedWhileReporting [.settle 0 .errors, .settle 0 .ok] _ _ rfl
    (by simp) rfl).2.2 rfl (by decide) ⟨0, by decide⟩).2.1

end CardanoGraphql.ServerLifecycle
