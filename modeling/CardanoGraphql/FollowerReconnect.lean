import CardanoGraphql.ModuleState
import CardanoGraphql.Tasks

namespace CardanoGraphql.FollowerReconnect

open Runs Tasks

/-- `ChainFollower` with the queues and the interaction contexts it has made, numbered in
the order of their creation: `startedQueues` are those that are started and not stopped,
`sockets` the contexts whose socket is open, `closing` those that a `shutdown` closes, and
`resumed` those whose client is resumed. `rejections` counts the callbacks that throw. -/
structure Follower where
  state : ModuleState
  queue : Option Nat
  chainSyncClient : Option Nat
  queues : Nat
  startedQueues : List Nat
  contexts : Nat
  sockets : List Nat
  closing : List Nat
  resumed : List Nat
  rejections : Nat
  exited : Bool
deriving DecidableEq, Repr

/-- `onDbSetup`, or the callback of a context. -/
inductive Caller
  | onDbSetup
  | onClose
deriving DecidableEq, Repr

/-- Where a caller waits. The steps of an attempt carry the retries left. -/
inductive Await
  | interactionContext (caller : Caller) (retries : Nat)
  | chainSyncClient (caller : Caller) (context retries : Nat)
  | initialized (caller : Caller)
  | workerStarted
  | points (caller : Caller)
  | queueStarted (caller : Caller) (queue : Nat)
  | clientResumed (caller : Caller) (context : Nat)
  | queueStopped (queue : Nat)
  | clientClosed (context : Nat)
  | shutDown
deriving DecidableEq, Repr

/-- The socket of a context closes abnormally. -/
inductive Trigger
  | dropped (context : Nat)
deriving DecidableEq, Repr

inductive Outcome
  | ok
  | fails
deriving DecidableEq, Repr

def Follower.fresh : Follower :=
  { state := .null
    queue := none
    chainSyncClient := none
    queues := 0
    startedQueues := []
    contexts := 0
    sockets := []
    closing := []
    resumed := []
    rejections := 0
    exited := false }

def throwTo (caller : Caller) (s : Follower) : Follower × Option Await :=
  match caller with
  | .onDbSetup => ({ s with exited := true }, none)
  | .onClose => ({ s with rejections := s.rejections + 1 }, none)

def Follower.retry (s : Follower) (caller : Caller) : Nat → Follower × Option Await
  | 0 => ({ s with exited := true }, some (.interactionContext caller 0))
  | retries + 1 => (s, some (.interactionContext caller retries))

def followerInitialize (caller : Caller) (s : Follower) : Follower × Option Await :=
  if s.state ≠ .null then (s, some (.initialized caller))
  else
    ({ s with state := .initializing, queue := some s.queues, queues := s.queues + 1 },
      some (.interactionContext caller 100))

def createInteractionContext (caller : Caller) (retries : Nat) (s : Follower) : Follower × Option Await :=
  ({ s with contexts := s.contexts + 1, sockets := s.sockets ++ [s.contexts] },
    some (.chainSyncClient caller s.contexts retries))

def followerStart (caller : Caller) (s : Follower) : Follower × Option Await :=
  if s.state ≠ .initialized then throwTo caller s
  else match s.queue with
    | none => throwTo caller s
    | some queue => (s, some (.queueStarted caller queue))

def resumeClient (caller : Caller) (s : Follower) : Follower × Option Await :=
  match s.chainSyncClient with
  | none => throwTo caller s
  | some context => (s, some (.clientResumed caller context))

def followerShutdown (s : Follower) : Follower × Option Await :=
  if s.state ≠ .running then throwTo .onClose s
  else match s.queue with
    | none => throwTo .onClose s
    | some queue => (s, some (.queueStopped queue))

def shutdownClient (s : Follower) : Follower × Option Await :=
  match s.chainSyncClient with
  | none => throwTo .onClose s
  | some context =>
      if context ∈ s.sockets then
        ({ s with sockets := s.sockets.erase context, closing := context :: s.closing },
          some (.clientClosed context))
      else ({ s with state := .null }, some .shutDown)

def Follower.drop (s : Follower) (context : Nat) : Follower :=
  { s with
    sockets := s.sockets.erase context
    closing := s.closing.erase context
    resumed := s.resumed.filter (· ≠ context) }

/-- A connection may fail to be made; else nothing fails but what stands on a context that
is closed. -/
def resume : Await → Outcome → Follower → Option (Follower × Option Await)
  | .interactionContext caller retries, .ok, s => some (createInteractionContext caller retries s)
  | .interactionContext caller retries, .fails, s => some (s.retry caller retries)
  | .chainSyncClient caller context _, .ok, s =>
      some ({ s with chainSyncClient := some context, state := .initialized }, some (.initialized caller))
  | .chainSyncClient caller context retries, .fails, s =>
      if context ∈ s.sockets then none else some (s.retry caller retries)
  | .initialized .onDbSetup, .ok, s => some (s, some .workerStarted)
  | .initialized .onClose, .ok, s => some (s, some (.points .onClose))
  | .workerStarted, .ok, s => some (s, some (.points .onDbSetup))
  | .points caller, .ok, s => some (followerStart caller s)
  | .queueStarted caller queue, .ok, s =>
      some (resumeClient caller { s with startedQueues := s.startedQueues ++ [queue] })
  | .clientResumed _ context, .ok, s =>
      if context ∈ s.sockets then some ({ s with resumed := s.resumed ++ [context], state := .running }, none)
      else none
  | .clientResumed caller context, .fails, s =>
      if context ∈ s.sockets then none else some (throwTo caller s)
  | .queueStopped queue, .ok, s =>
      some (shutdownClient { s with startedQueues := s.startedQueues.erase queue })
  | .clientClosed context, .ok, s => some ({ s.drop context with state := .null }, some .shutDown)
  | .shutDown, .ok, s => some (followerInitialize .onClose s)
  | _, _, _ => none

def receive : Trigger → Follower → Option (Follower × Option Await)
  | .dropped context, s =>
      if context ∈ s.sockets ∨ context ∈ s.closing then some (followerShutdown (s.drop context)) else none

def follower : Machine Follower Await Trigger Outcome where
  call trigger s := if s.exited then none else receive trigger s
  resume k o s := if s.exited then none else resume k o s

def started : World Follower Await :=
  ⟨(followerInitialize .onDbSetup .fresh).1, (followerInitialize .onDbSetup .fresh).2.toList⟩

/-- No callback has thrown, and once nothing is pending the follower runs. -/
structure Recovers (w : World Follower Await) : Prop where
  callbacks : w.shared.rejections = 0
  running : w.pending = [] → w.shared.state = .running
  queue : w.pending = [] → w.shared.startedQueues.length = 1
  client : w.pending = [] → w.shared.resumed.length = 1

def DroppedRunning (w : World Follower Await) (e : Event Trigger Outcome) : Prop :=
  ∀ context, e = .call (.dropped context) → w.shared.state = .running

structure Holds (s : Follower) (state : ModuleState) (startedQueues sockets resumed : List Nat) : Prop where
  state : s.state = state
  startedQueues : s.startedQueues = startedQueues
  sockets : s.sockets = sockets
  closing : s.closing = []
  resumed : s.resumed = resumed
  rejections : s.rejections = 0

/-- Where a run without a drop outside `running` stands. -/
inductive Phase : World Follower Await → Prop
  | connecting {s : Follower} (caller : Caller) (retries : Nat) (h : Holds s .initializing [] [] [])
      (hq : s.queue.isSome = true) : Phase ⟨s, [.interactionContext caller retries]⟩
  | connected {s : Follower} (caller : Caller) (context retries : Nat)
      (h : Holds s .initializing [] [context] []) (hq : s.queue.isSome = true) :
      Phase ⟨s, [.chainSyncClient caller context retries]⟩
  | initialized {s : Follower} {k : Await} (context : Nat) (h : Holds s .initialized [] [context] [])
      (hq : s.queue.isSome = true) (hc : s.chainSyncClient = some context)
      (hk : (∃ caller, k = .initialized caller ∨ k = .points caller) ∨ k = .workerStarted) : Phase ⟨s, [k]⟩
  | queueStarting {s : Follower} (caller : Caller) (queue context : Nat)
      (h : Holds s .initialized [] [context] []) (hq : s.queue = some queue)
      (hc : s.chainSyncClient = some context) : Phase ⟨s, [.queueStarted caller queue]⟩
  | resuming {s : Follower} (caller : Caller) (queue context : Nat)
      (h : Holds s .initialized [queue] [context] []) (hq : s.queue = some queue)
      (hc : s.chainSyncClient = some context) : Phase ⟨s, [.clientResumed caller context]⟩
  | running {s : Follower} (queue context : Nat) (h : Holds s .running [queue] [context] [context])
      (hq : s.queue = some queue) (hc : s.chainSyncClient = some context) : Phase ⟨s, []⟩
  | stopping {s : Follower} (queue context : Nat) (h : Holds s .running [queue] [] [])
      (hc : s.chainSyncClient = some context) : Phase ⟨s, [.queueStopped queue]⟩
  | stopped {s : Follower} (h : Holds s .null [] [] []) : Phase ⟨s, [.shutDown]⟩

theorem resume_alive {k : Await} {o : Outcome} {s : Follower} {r : Follower × Option Await}
    (h : follower.resume k o s = some r) : resume k o s = some r :=
  (alive_of_some h).2

theorem phase_retry {s : Follower} (caller : Caller) (retries : Nat)
    (h : Holds s .initializing [] [] []) (hq : s.queue.isSome = true) :
    Phase ⟨(s.retry caller retries).1, (s.retry caller retries).2.toList⟩ := by
  cases retries with
  | zero =>
      exact .connecting caller 0
        ⟨h.state, h.startedQueues, h.sockets, h.closing, h.resumed, h.rejections⟩ hq
  | succ retries => exact .connecting caller retries h hq

theorem phase_context {s : Follower} (caller : Caller) (retries : Nat)
    (h : Holds s .initializing [] [] []) (hq : s.queue.isSome = true) :
    Phase ⟨(createInteractionContext caller retries s).1,
      (createInteractionContext caller retries s).2.toList⟩ := by
  refine .connected caller s.contexts retries
    ⟨h.state, h.startedQueues, ?_, h.closing, h.resumed, h.rejections⟩ hq
  simp [createInteractionContext, h.sockets]

theorem phase_start {s : Follower} (caller : Caller) {context : Nat}
    (h : Holds s .initialized [] [context] []) (hq : s.queue.isSome = true)
    (hc : s.chainSyncClient = some context) :
    Phase ⟨(followerStart caller s).1, (followerStart caller s).2.toList⟩ := by
  obtain ⟨queue, hqueue⟩ := Option.isSome_iff_exists.mp hq
  rw [followerStart, if_neg (not_not.mpr h.state), hqueue]
  exact .queueStarting caller queue context h hqueue hc

theorem phase_resumeClient {s : Follower} (caller : Caller) {queue context : Nat}
    (h : Holds s .initialized [queue] [context] []) (hq : s.queue = some queue)
    (hc : s.chainSyncClient = some context) :
    Phase ⟨(resumeClient caller s).1, (resumeClient caller s).2.toList⟩ := by
  rw [resumeClient, hc]
  exact .resuming caller queue context h hq hc

theorem phase_shutdownClient {s : Follower} {context : Nat} (h : Holds s .running [] [] [])
    (hc : s.chainSyncClient = some context) :
    Phase ⟨(shutdownClient s).1, (shutdownClient s).2.toList⟩ := by
  unfold shutdownClient
  rw [hc]
  dsimp only
  rw [if_neg (by rw [h.sockets]; exact List.not_mem_nil)]
  exact .stopped ⟨rfl, h.startedQueues, h.sockets, h.closing, h.resumed, h.rejections⟩

theorem phase_reinitialize {s : Follower} (h : Holds s .null [] [] []) :
    Phase ⟨(followerInitialize .onClose s).1, (followerInitialize .onClose s).2.toList⟩ := by
  rw [followerInitialize, if_neg (not_not.mpr h.state)]
  exact .connecting .onClose 100
    ⟨rfl, h.startedQueues, h.sockets, h.closing, h.resumed, h.rejections⟩ rfl

theorem phase_shutdown {s : Follower} {queue context : Nat} (h : Holds s .running [queue] [] [])
    (hq : s.queue = some queue) (hc : s.chainSyncClient = some context) :
    Phase ⟨(followerShutdown s).1, (followerShutdown s).2.toList⟩ := by
  rw [followerShutdown, if_neg (not_not.mpr h.state), hq]
  exact .stopping queue context h hc

theorem phase_resume {s : Follower} {k : Await} {o : Outcome} {r : Follower × Option Await}
    (h : Phase ⟨s, [k]⟩) (hr : resume k o s = some r) : Phase ⟨r.1, r.2.toList⟩ := by
  cases h with
  | connecting caller retries h hq =>
      cases o with
      | ok =>
          obtain rfl := Option.some.inj hr
          exact phase_context caller retries h hq
      | fails =>
          obtain rfl := Option.some.inj hr
          exact phase_retry caller retries h hq
  | connected caller context retries h hq =>
      cases o with
      | ok =>
          obtain rfl := Option.some.inj hr
          exact .initialized context ⟨rfl, h.startedQueues, h.sockets, h.closing, h.resumed, h.rejections⟩
            hq rfl (Or.inl ⟨caller, Or.inl rfl⟩)
      | fails =>
          rw [resume, h.sockets, if_pos List.mem_cons_self] at hr
          cases hr
  | initialized context h hq hc hk =>
      cases o with
      | fails =>
          rcases hk with ⟨caller, rfl | rfl⟩ | rfl
          · cases caller <;> cases hr
          · cases hr
          · cases hr
      | ok =>
          rcases hk with ⟨caller, rfl | rfl⟩ | rfl
          · cases caller with
            | onDbSetup =>
                obtain rfl := Option.some.inj hr
                exact .initialized context h hq hc (Or.inr rfl)
            | onClose =>
                obtain rfl := Option.some.inj hr
                exact .initialized context h hq hc (Or.inl ⟨.onClose, Or.inr rfl⟩)
          · obtain rfl := Option.some.inj hr
            exact phase_start caller h hq hc
          · obtain rfl := Option.some.inj hr
            exact .initialized context h hq hc (Or.inl ⟨.onDbSetup, Or.inr rfl⟩)
  | queueStarting caller queue context h hq hc =>
      cases o with
      | fails => cases hr
      | ok =>
          obtain rfl := Option.some.inj hr
          have hstarted : Holds { s with startedQueues := s.startedQueues ++ [queue] } .initialized
              [queue] [context] [] :=
            ⟨h.state, by simp [h.startedQueues], h.sockets, h.closing, h.resumed, h.rejections⟩
          exact phase_resumeClient caller hstarted hq hc
  | resuming caller queue context h hq hc =>
      have hopen : context ∈ s.sockets := by
        rw [h.sockets]
        exact List.mem_cons_self
      cases o with
      | fails =>
          rw [resume, if_pos hopen] at hr
          cases hr
      | ok =>
          rw [resume, if_pos hopen] at hr
          obtain rfl := Option.some.inj hr
          exact .running queue context
            ⟨rfl, h.startedQueues, h.sockets, h.closing, by simp [h.resumed], h.rejections⟩ hq hc
  | stopping queue context h hc =>
      cases o with
      | fails => cases hr
      | ok =>
          obtain rfl := Option.some.inj hr
          have hstopped : Holds { s with startedQueues := s.startedQueues.erase queue } .running [] [] [] :=
            ⟨h.state, by simp [h.startedQueues], h.sockets, h.closing, h.resumed, h.rejections⟩
          exact phase_shutdownClient hstopped hc
  | stopped h =>
      cases o with
      | fails => cases hr
      | ok =>
          obtain rfl := Option.some.inj hr
          exact phase_reinitialize h

theorem phase_drop {s : Follower} {pending : List Await} {context : Nat} {r : Follower × Option Await}
    (h : Phase ⟨s, pending⟩) (hs : s.state = .running) (hr : receive (.dropped context) s = some r) :
    Phase ⟨r.1, pending ++ r.2.toList⟩ := by
  cases h with
  | connecting _ _ h _ | connected _ _ _ h _ | initialized _ h _ _ _ | queueStarting _ _ _ h _ _
  | resuming _ _ _ h _ _ | stopped h => exact absurd (hs.symm.trans h.state) (by simp)
  | stopping queue context h hc => simp [receive, h.sockets, h.closing] at hr
  | running queue live h hq hc =>
      have hcontext : context = live := by
        by_contra hne
        simp [receive, h.sockets, h.closing, hne] at hr
      subst hcontext
      rw [receive, if_pos (Or.inl (by rw [h.sockets]; exact List.mem_cons_self))] at hr
      obtain rfl := Option.some.inj hr
      have hdropped : Holds (s.drop context) .running [queue] [] [] := by
        refine ⟨hs, h.startedQueues, ?_, ?_, ?_, h.rejections⟩
        · simp [Follower.drop, h.sockets]
        · simp [Follower.drop, h.closing]
        · simp [Follower.drop, h.resumed]
      exact phase_shutdown hdropped hq hc

theorem receive_alive {t : Trigger} {s : Follower} {r : Follower × Option Await}
    (h : follower.call t s = some r) : receive t s = some r :=
  (alive_of_some h).2

theorem recovers_of_phase {w : World Follower Await} (h : Phase w) : Recovers w := by
  cases h with
  | running queue context h hq hc =>
      refine ⟨h.rejections, fun _ => h.state, fun _ => ?_, fun _ => ?_⟩
      · rw [h.startedQueues]
        rfl
      · rw [h.resumed]
        rfl
  | connecting _ _ h _ | connected _ _ _ h _ | initialized _ h _ _ _ | queueStarting _ _ _ h _ _
  | resuming _ _ _ h _ _ | stopping _ _ h _ | stopped h =>
      refine ⟨h.rejections, fun hp => ?_, fun hp => ?_, fun hp => ?_⟩ <;> cases hp

theorem phase_single {s : Follower} {pending : List Await} (h : Phase ⟨s, pending⟩) :
    pending = [] ∨ ∃ k, pending = [k] := by
  cases h <;> simp

/-- The step lemma: a step that is no drop outside `running` keeps to the phases. -/
theorem phase_step {w w' : World Follower Await} {e : Event Trigger Outcome} (h : Phase w)
    (he : DroppedRunning w e) (hstep : step follower w e = some w') : Phase w' := by
  obtain ⟨s, pending⟩ := w
  cases e with
  | call t =>
      obtain ⟨context⟩ := t
      obtain ⟨r, hr, rfl⟩ := step_call hstep
      exact phase_drop h (he context rfl) (receive_alive hr)
  | settle n o =>
      rcases phase_single h with rfl | ⟨k, rfl⟩
      · simp [step] at hstep
      · obtain ⟨r, hr, rfl⟩ := step_settle_one hstep
        exact phase_resume h (resume_alive hr)

theorem rejected_step {w w' : World Follower Await} {context : Nat}
    (hs : w.shared.state ≠ .running) (hstep : step follower w (.call (.dropped context)) = some w') :
    w'.shared.rejections = w.shared.rejections + 1 := by
  obtain ⟨r, hr, rfl⟩ := step_call hstep
  have hr := receive_alive hr
  rw [receive] at hr
  split at hr
  · obtain rfl := Option.some.inj hr
    rw [followerShutdown, if_pos (by exact hs)]
    rfl
  · cases hr

theorem phase_started : Phase started :=
  .connecting .onDbSetup 100 ⟨rfl, rfl, rfl, rfl, rfl, rfl⟩ rfl

theorem recovers_step_iff {w w' : World Follower Await} {e : Event Trigger Outcome} (h : Phase w)
    (hstep : step follower w e = some w') : Recovers w' ↔ DroppedRunning w e := by
  constructor
  · intro hrecovers context he
    subst he
    by_contra hs
    have hmore := rejected_step hs hstep
    rw [hrecovers.callbacks] at hmore
    omega
  · intro he
    exact recovers_of_phase (phase_step h he hstep)

def stepsLeft : Await → Nat
  | .queueStopped _ => 8
  | .clientClosed _ => 8
  | .shutDown => 7
  | .interactionContext .onDbSetup _ => 7
  | .interactionContext .onClose _ => 6
  | .chainSyncClient .onDbSetup _ _ => 6
  | .chainSyncClient .onClose _ _ => 5
  | .initialized .onDbSetup => 5
  | .initialized .onClose => 4
  | .workerStarted => 4
  | .points _ => 3
  | .queueStarted _ _ => 2
  | .clientResumed _ _ => 1

theorem stepsLeft_pos (k : Await) : 0 < stepsLeft k := by
  cases k with
  | interactionContext caller retries | chainSyncClient caller context retries | initialized caller =>
      cases caller <;> exact Nat.succ_pos _
  | _ => exact Nat.succ_pos _

theorem phase_progress {s : Follower} {k : Await} (h : Phase ⟨s, [k]⟩) (halive : s.exited = false) :
    ∃ r, follower.resume k .ok s = some r ∧ r.1.exited = false ∧
      ∀ k', r.2 = some k' → stepsLeft k' < stepsLeft k := by
  have hresume (r : Follower × Option Await) (hr : resume k .ok s = some r) :
      follower.resume k .ok s = some r := by
    simpa [follower, halive] using hr
  cases h with
  | connecting caller retries h hq =>
      refine ⟨_, hresume _ rfl, halive, fun k' hk' => ?_⟩
      cases hk'
      cases caller <;> simp [stepsLeft]
  | connected caller context retries h hq =>
      refine ⟨_, hresume _ rfl, halive, fun k' hk' => ?_⟩
      cases hk'
      cases caller <;> simp [stepsLeft]
  | initialized context h hq hc hk =>
      obtain ⟨queue, hqueue⟩ := Option.isSome_iff_exists.mp hq
      rcases hk with ⟨caller, rfl | rfl⟩ | rfl
      · cases caller with
        | onDbSetup =>
            refine ⟨_, hresume _ rfl, halive, fun k' hk' => ?_⟩
            cases hk'
            simp [stepsLeft]
        | onClose =>
            refine ⟨_, hresume _ rfl, halive, fun k' hk' => ?_⟩
            cases hk'
            simp [stepsLeft]
      · have hstart : followerStart caller s = (s, some (.queueStarted caller queue)) := by
          rw [followerStart, if_neg (not_not.mpr h.state), hqueue]
        refine ⟨_, hresume _ (congrArg some hstart), halive, fun k' hk' => ?_⟩
        cases hk'
        simp [stepsLeft]
      · refine ⟨_, hresume _ rfl, halive, fun k' hk' => ?_⟩
        cases hk'
        simp [stepsLeft]
  | queueStarting caller queue context h hq hc =>
      refine ⟨_, hresume _ rfl, ?_⟩
      rw [resumeClient, hc]
      refine ⟨halive, fun k' hk' => ?_⟩
      cases hk'
      simp [stepsLeft]
  | resuming caller queue context h hq hc =>
      refine ⟨_, hresume _ (if_pos ?_), halive, fun k' hk' => ?_⟩
      · rw [h.sockets]
        exact List.mem_cons_self
      · cases hk'
  | stopping queue context h hc =>
      refine ⟨_, hresume _ rfl, ?_⟩
      unfold shutdownClient
      rw [hc]
      dsimp only
      rw [if_neg (by rw [h.sockets]; exact List.not_mem_nil)]
      refine ⟨halive, fun k' hk' => ?_⟩
      cases hk'
      simp [stepsLeft]
  | stopped h =>
      refine ⟨_, hresume _ rfl, ?_⟩
      rw [followerInitialize, if_neg (not_not.mpr h.state)]
      refine ⟨halive, fun k' hk' => ?_⟩
      cases hk'
      simp [stepsLeft]

theorem phase_complete {fuel : Nat} {w : World Follower Await} (h : Phase w)
    (halive : w.shared.exited = false) (hfuel : ∀ k ∈ w.pending, stepsLeft k ≤ fuel) :
    (complete follower .ok fuel w).pending = [] ∧ Phase (complete follower .ok fuel w) := by
  obtain ⟨s, pending⟩ := w
  induction fuel generalizing s pending with
  | zero =>
      rcases phase_single h with rfl | ⟨k, rfl⟩
      · exact ⟨rfl, h⟩
      · exact absurd (hfuel k List.mem_cons_self) (Nat.not_le_of_lt (stepsLeft_pos k))
  | succ fuel ih =>
      rcases phase_single h with rfl | ⟨k, rfl⟩
      · rw [complete_idle]
        exact ⟨rfl, h⟩
      · obtain ⟨r, hr, hstill, hnext⟩ := phase_progress h halive
        rw [complete_one hr]
        apply ih r.1 r.2.toList (phase_resume h (resume_alive hr)) hstill
        intro k' hk'
        have hlt := hnext k' (Option.mem_toList.mp hk')
        have hle := hfuel k List.mem_cons_self
        omega

theorem stepsLeft_le (k : Await) : stepsLeft k ≤ 8 := by
  cases k with
  | interactionContext caller retries | chainSyncClient caller context retries | initialized caller =>
      cases caller <;> simp [stepsLeft]
  | _ => simp [stepsLeft]

/-- The follower recovers throughout exactly when every drop finds it running, and then it
runs again as soon as what is pending has succeeded. -/
theorem recovers_iff {es : List (Event Trigger Outcome)} {w : World Follower Await}
    (hrun : run (step follower) started es = some w) :
    (Throughout (step follower) Recovers started es ↔
        EachStep (step follower) DroppedRunning started es) ∧
      (EachStep (step follower) DroppedRunning started es → w.shared.exited = false →
        (complete follower .ok 8 w).pending = [] ∧ Recovers (complete follower .ok 8 w)) := by
  have hphase : ∀ s e t, (Recovers s → Phase s) → Recovers s → step follower s e = some t →
      Recovers t → Phase t := by
    intro s e t h hs hst ht
    exact phase_step (h hs) ((recovers_step_iff (h hs) hst).mp ht) hst
  constructor
  · apply throughout_iff hphase _ (fun _ => phase_started) (recovers_of_phase phase_started) hrun
    intro s e t h hs hst
    exact recovers_step_iff (h hs) hst
  · intro hdrops halive
    have hw : Phase w := run_invariant (fun s e t => phase_step) phase_started hdrops es List.prefix_rfl w hrun
    obtain ⟨hidle, hphase⟩ := phase_complete hw halive fun k _ => stepsLeft_le k
    exact ⟨hidle, recovers_of_phase hphase⟩

def earlyDrop : List (Event Trigger Outcome) :=
  [.settle 0 .ok, .settle 0 .ok, .settle 0 .ok, .call (.dropped 0), .settle 0 .ok, .settle 0 .ok,
    .settle 0 .ok, .settle 0 .fails]

theorem earlyDrop_iff :
    ∃ w, run (step follower) started earlyDrop = some w ∧
      (Throughout (step follower) Recovers started earlyDrop ↔
        EachStep (step follower) DroppedRunning started earlyDrop) := by
  have hrun : (run (step follower) started earlyDrop).isSome = true := by decide +kernel
  obtain ⟨w, hw⟩ := Option.isSome_iff_exists.mp hrun
  exact ⟨w, hw, (recovers_iff hw).1⟩

theorem earlyDrop_stranded :
    (∃ w, run (step follower) started earlyDrop = some w ∧ w.pending = [] ∧ w.shared.rejections = 1 ∧
        w.shared.state = .initialized ∧ w.shared.exited = true) ∧
      ¬ ∀ es w, run (step follower) started es = some w → Recovers w := by
  have hend : (run (step follower) started earlyDrop).map (fun w =>
      (w.pending, w.shared.rejections, w.shared.state, w.shared.exited)) =
        some ([], 1, .initialized, true) := by
    decide +kernel
  obtain ⟨w, hw, hfields⟩ := Option.map_eq_some_iff.mp hend
  simp only [Prod.mk.injEq] at hfields
  obtain ⟨hpending, hrejections, hstate, hexited⟩ := hfields
  refine ⟨⟨w, hw, hpending, hrejections, hstate, hexited⟩, fun h => ?_⟩
  have hcallbacks := (h earlyDrop w hw).callbacks
  omega

end CardanoGraphql.FollowerReconnect
