import CardanoGraphql.CardanoNodeClient
import CardanoGraphql.FailedInit

namespace CardanoGraphql.FetchedValues

open Runs Tasks DataFetcher CardanoNodeClient

structure AdaPotsToCalculateSupply where
  circulating : String
  reserves : String
deriving DecidableEq, Repr

/-- The fetch function of `HasuraClient`: a call that throws gives `undefined`, which is
`none` here. -/
def fetchAdaPots : Fetch AdaPotsToCalculateSupply → Fetch (Option AdaPotsToCalculateSupply)
  | .value v => .value (some v)
  | .throws => .value none
  | .rejects => .rejects

structure HasuraClient where
  state : ModuleState
  adaPotsToCalculateSupplyFetcher : DataFetcher (Option AdaPotsToCalculateSupply)

def HasuraClient.fresh : HasuraClient := ⟨.null, .fresh⟩

def HasuraClient.adaPots (s : HasuraClient) : Option AdaPotsToCalculateSupply :=
  s.adaPotsToCalculateSupplyFetcher.value.join

/-- `p-retry` with `forever`: it ends with the first attempt that succeeds, and `none` is that it still
waits. -/
def retryForever {σ ω : Type} (attempt : σ → ω → Except String σ) (s : σ) : List ω → Option σ
  | [] => none
  | o :: os =>
      match attempt s o with
      | .ok t => some t
      | .error _ => retryForever attempt s os

def hasuraInitialize (introspection : Nat → Except String Unit)
    (os : List (Fetch AdaPotsToCalculateSupply)) (s : HasuraClient) : Option HasuraClient :=
  if s.state ≠ .null then some s
  else match FailedInit.pRetry 9 introspection with
    | .error _ => none
    | .ok _ =>
        (retryForever (fun f o => fetcherInitialize f (fetchAdaPots o))
          s.adaPotsToCalculateSupplyFetcher os).map fun f => ⟨.initialized, f⟩

theorem hasuraInitialize_first {introspection : Nat → Except String Unit}
    {os : List (Fetch AdaPotsToCalculateSupply)} {s : HasuraClient}
    (h : hasuraInitialize introspection os .fresh = some s) :
    ∃ o, os.head? = some o ∧ s.state = .initialized ∧
      s.adaPots = ((fresh.fetches [fetchAdaPots o]).value).join := by
  rw [hasuraInitialize, if_neg (by simp [HasuraClient.fresh])] at h
  cases hschema : FailedInit.pRetry 9 introspection with
  | error message => simp [hschema] at h
  | ok u =>
      simp only [hschema] at h
      cases os with
      | nil => cases h
      | cons o os =>
          cases h
          exact ⟨o, rfl, rfl, rfl⟩

theorem adaPots_isSome {o : Fetch AdaPotsToCalculateSupply} :
    ((fresh.fetches [fetchAdaPots o]).value).join.isSome = true ↔ ∃ v, o = .value v := by
  cases o <;> simp [fetches, fetch, fresh, beginFetch, endFetch, fetchAdaPots]

/-- The value where the client is initialized, as `submitTransaction` meets it. -/
structure Served (s : NodeClient) : Prop where
  defined : s.state = .initialized → s.serverHealthFetcher.value.isSome = true
  submitted : ∀ submit, submitTransaction s submit ≠ .typeError

def given : Outcome → Option ServerHealth
  | .fetched (.value health) => some health
  | _ => none

def completing : Await → Outcome → Bool
  | .txSubmissionClient _ _, .ok => true
  | _, _ => false

def Completes (w : World NodeClient Await) (e : Event Trigger Outcome) : Prop :=
  ∃ n k o, e = .settle n o ∧ w.pending[n]? = some k ∧ completing k o = true

def HasFetched (es : List (Event Trigger Outcome)) : Prop :=
  ∃ n o, .settle n o ∈ es ∧ (given o).isSome = true

theorem served_iff (s : NodeClient) :
    Served s ↔ (s.state = .initialized → s.serverHealthFetcher.value.isSome = true) := by
  refine ⟨Served.defined, fun h => ⟨h, fun submit => ?_⟩⟩
  unfold submitTransaction
  split
  next => simp
  next hstate =>
    obtain ⟨health, hvalue⟩ := Option.isSome_iff_exists.mp (h (not_not.mp hstate))
    rw [hvalue]
    dsimp only
    split
    · simp
    · cases submit <;> simp

structure Quiet (s : NodeClient) (r : NodeClient × Option Await) : Prop where
  value : r.1.serverHealthFetcher.value = s.serverHealthFetcher.value
  state : r.1.state = .initialized → s.state = .initialized

theorem quiet_nodeInitialize (s : NodeClient) : Quiet s (nodeInitialize s) := by
  rw [nodeInitialize]
  split
  · exact ⟨rfl, id⟩
  · split <;> exact ⟨rfl, fun h => by cases h⟩

theorem quiet_shutdown (s : NodeClient) : Quiet s (shutdown s) := by
  unfold shutdown
  split
  · exact ⟨rfl, id⟩
  · split <;> exact ⟨rfl, id⟩

theorem quiet_shutdownTxSubmission (s : NodeClient) : Quiet s (shutdownTxSubmission s) := by
  unfold shutdownTxSubmission
  split
  · exact ⟨rfl, id⟩
  · split
    · exact ⟨rfl, id⟩
    · exact ⟨rfl, fun h => by cases h⟩

theorem quiet_shutdownClients (s : NodeClient) : Quiet s (shutdownClients s) := by
  unfold shutdownClients
  split
  · exact ⟨rfl, id⟩
  · split
    · exact ⟨rfl, id⟩
    · exact quiet_shutdownTxSubmission s

theorem quiet_receive {t : Trigger} {s : NodeClient} {r : NodeClient × Option Await}
    (h : receive t s = some r) : Quiet s r := by
  cases t with
  | called =>
      obtain rfl := Option.some.inj h
      exact quiet_nodeInitialize s
  | closed context =>
      rw [receive, onClosed] at h
      split at h
      · obtain rfl := Option.some.inj h
        exact ⟨(quiet_shutdown _).value, (quiet_shutdown _).state⟩
      · cases h
  | interval timer =>
      rw [receive, onInterval] at h
      dsimp only at h
      split at h
      · cases h
      · split at h
        · obtain rfl := Option.some.inj h
          exact ⟨rfl, id⟩
        · obtain rfl := Option.some.inj h
          exact ⟨rfl, id⟩

theorem quiet_retry (s : NodeClient) (retries : Nat) : Quiet s (s.retry retries) := by
  cases retries <;> exact ⟨rfl, id⟩

structure Effect (s : NodeClient) (k : Await) (o : Outcome) (r : NodeClient × Option Await) : Prop where
  value : r.1.serverHealthFetcher.value = (given o).or s.serverHealthFetcher.value
  completed : completing k o = true → r.1.state = .initialized
  state : r.1.state = .initialized → s.state = .initialized ∨ completing k o = true

theorem effect_of_quiet {s : NodeClient} {k : Await} {o : Outcome} {r : NodeClient × Option Await}
    (h : Quiet s r) (ho : given o = none) (hk : completing k o = false) : Effect s k o r := by
  refine ⟨?_, fun hc => absurd (hk.symm.trans hc) (by simp), fun hs => Or.inl (h.state hs)⟩
  rw [ho, Option.none_or]
  exact h.value

theorem endFetch_value (f : DataFetcher ServerHealth) (o : Fetch ServerHealth) :
    (f.endFetch o).value = (given (.fetched o)).or f.value := by
  cases o <;> rfl

theorem resume_effect {k : Await} {o : Outcome} {s : NodeClient} {r : NodeClient × Option Await}
    (h : resume k o s = some r) : Effect s k o r := by
  cases o with
  | fetched o =>
      cases k with
      | fetching | polling timer =>
          obtain rfl := Option.some.inj h
          exact ⟨endFetch_value _ o, fun hc => absurd hc (by simp [completing]), Or.inl⟩
      | _ => cases h
  | ok =>
      cases k with
      | txSubmissionClient context retries =>
          obtain rfl := Option.some.inj h
          exact ⟨rfl, fun _ => rfl, fun _ => Or.inr rfl⟩
      | fetching | polling timer => cases h
      | fetchSkipped | interactionContext retries | stateQueryClient context retries
      | ledgerTip context retries =>
          obtain rfl := Option.some.inj h
          exact effect_of_quiet ⟨rfl, id⟩ rfl rfl
      | timerCleared timer =>
          rw [resume] at h
          split at h
          · cases h
          · obtain rfl := Option.some.inj h
            exact effect_of_quiet (quiet_shutdownClients s) rfl rfl
      | stateQueryClosed context =>
          obtain rfl := Option.some.inj h
          have hquiet := quiet_shutdownTxSubmission { s with closing := s.closing.erase context }
          exact effect_of_quiet ⟨hquiet.value, hquiet.state⟩ rfl rfl
      | txSubmissionClosed context =>
          obtain rfl := Option.some.inj h
          exact effect_of_quiet ⟨rfl, fun h => by cases h⟩ rfl rfl
      | shutDown =>
          obtain rfl := Option.some.inj h
          exact effect_of_quiet (quiet_nodeInitialize s) rfl rfl
  | fails =>
      cases k with
      | interactionContext retries | stateQueryClient context retries | ledgerTip context retries
      | txSubmissionClient context retries =>
          obtain rfl := Option.some.inj h
          exact effect_of_quiet (quiet_retry s retries) rfl rfl
      | _ => cases h

theorem step_effect {w w' : World NodeClient Await} {e : Event Trigger Outcome}
    (h : step node w e = some w') :
    (∃ t r, e = .call t ∧ w'.shared = r.1 ∧ Quiet w.shared r) ∨
      ∃ n k o r, e = .settle n o ∧ w.pending[n]? = some k ∧ w'.shared = r.1 ∧ Effect w.shared k o r := by
  cases e with
  | call t =>
      obtain ⟨r, hr, rfl⟩ := step_call h
      exact Or.inl ⟨t, r, rfl, rfl, quiet_receive (call_alive hr).2⟩
  | settle n o =>
      cases hk : w.pending[n]? with
      | none => simp [step, hk] at h
      | some k =>
          simp only [step, hk] at h
          obtain ⟨r, hr, rfl⟩ := Option.map_eq_some_iff.mp h
          exact Or.inr ⟨n, k, o, r, rfl, hk, rfl, resume_effect (resume_alive hr).2⟩

theorem given_of_completing {k : Await} {o : Outcome} (h : completing k o = true) : given o = none := by
  cases o with
  | ok | fails => rfl
  | fetched o => cases k <;> cases h

theorem completes_step {w w' : World NodeClient Await} {e : Event Trigger Outcome}
    (h : step node w e = some w') (hc : Completes w e) :
    w'.shared.state = .initialized ∧
      w'.shared.serverHealthFetcher.value = w.shared.serverHealthFetcher.value := by
  obtain ⟨n, k, o, rfl, hk, hc⟩ := hc
  rcases step_effect h with ⟨t, r, he, -, -⟩ | ⟨m, l, p, r, he, hl, hr, heffect⟩
  · cases he
  · cases he
    obtain rfl := Option.some.inj (hk.symm.trans hl)
    rw [hr, heffect.value, given_of_completing hc, Option.none_or]
    exact ⟨heffect.completed hc, rfl⟩

theorem hasFetched_call (es : List (Event Trigger Outcome)) (t : Trigger) :
    HasFetched (es ++ [.call t]) ↔ HasFetched es := by
  simp [HasFetched]

theorem hasFetched_settle (es : List (Event Trigger Outcome)) (n : Nat) (o : Outcome) :
    HasFetched (es ++ [.settle n o]) ↔ HasFetched es ∨ (given o).isSome = true := by
  simp [HasFetched, or_and_right, exists_or]

theorem HasFetched.mono {es es' : List (Event Trigger Outcome)} (h : HasFetched es') (hp : es' <+: es) :
    HasFetched es := by
  obtain ⟨n, o, hmem, ho⟩ := h
  exact ⟨n, o, hp.subset hmem, ho⟩

theorem value_isSome_iff {es : List (Event Trigger Outcome)} {w : World NodeClient Await}
    (hrun : run (step node) started es = some w) :
    w.shared.serverHealthFetcher.value.isSome = true ↔ HasFetched es := by
  induction es using List.reverseRecOn generalizing w with
  | nil =>
      obtain rfl := Option.some.inj hrun
      simp [HasFetched, started, NodeClient.fresh, fresh]
  | append_singleton es e ih =>
      rw [run_concat] at hrun
      obtain ⟨t, ht, htw⟩ := Option.bind_eq_some_iff.mp hrun
      rcases step_effect htw with ⟨i, r, rfl, hr, hquiet⟩ | ⟨n, k, o, r, rfl, -, hr, heffect⟩
      · rw [hasFetched_call, hr, hquiet.value, ih ht]
      · rw [hasFetched_settle, hr, heffect.value, Option.isSome_or, Bool.or_eq_true, ih ht, or_comm]

theorem exists_completes {es : List (Event Trigger Outcome)} {w : World NodeClient Await}
    (hrun : run (step node) started es = some w) (hstate : w.shared.state = .initialized) :
    ∃ es' e t, es' ++ [e] <+: es ∧ run (step node) started es' = some t ∧ Completes t e := by
  induction es using List.reverseRecOn generalizing w with
  | nil =>
      obtain rfl := Option.some.inj hrun
      cases hstate
  | append_singleton es e ih =>
      rw [run_concat] at hrun
      obtain ⟨t, ht, htw⟩ := Option.bind_eq_some_iff.mp hrun
      have hearlier (hs : t.shared.state = .initialized) :
          ∃ es' f u, es' ++ [f] <+: es ++ [e] ∧ run (step node) started es' = some u ∧ Completes u f := by
        obtain ⟨es', f, u, hp, hu, hf⟩ := ih ht hs
        exact ⟨es', f, u, hp.trans (List.prefix_append es [e]), hu, hf⟩
      rcases step_effect htw with ⟨i, r, rfl, hr, hquiet⟩ | ⟨n, k, o, r, rfl, hk, hr, heffect⟩
      · exact hearlier (hquiet.state (hr ▸ hstate))
      · rcases heffect.state (hr ▸ hstate) with hs | hc
        · exact hearlier hs
        · exact ⟨es, _, t, List.prefix_rfl, ht, n, k, o, rfl, hk, hc⟩

theorem served_throughout_iff {es : List (Event Trigger Outcome)} {w : World NodeClient Await}
    (hrun : run (step node) started es = some w) :
    Throughout (step node) (fun w => Served w.shared) started es ↔
      ∀ es' e, es' ++ [e] <+: es → ∀ t, run (step node) started es' = some t → Completes t e →
        HasFetched es' := by
  constructor
  · intro h es' e hp t ht hc
    obtain ⟨u, hu, hrun'⟩ := step_of_prefix hrun hp ht
    have hserved := h (es' ++ [e]) hp u hrun'
    obtain ⟨hstate, hvalue⟩ := completes_step hu hc
    rw [← value_isSome_iff ht, ← hvalue]
    exact hserved.defined hstate
  · intro h es' hp t ht
    rw [served_iff]
    intro hstate
    obtain ⟨es'', e, u, hp', hu, hc⟩ := exists_completes ht hstate
    have hfetched := h es'' e (hp'.trans hp) u hu hc
    exact (value_isSome_iff ht).mpr (hfetched.mono ((List.prefix_append es'' [e]).trans hp'))

/-- The three layers: the fetcher, whatever its fetches met before, `HasuraClient`, whatever
the attempts of its loop meet, and `CardanoNodeClient` in any run. -/
theorem initialized_fetched_iff {V : Type} (os : List (Fetch V)) (o : Fetch V)
    {introspection : Nat → Except String Unit} {attempts : List (Fetch AdaPotsToCalculateSupply)}
    {s : HasuraClient} (hs : hasuraInitialize introspection attempts .fresh = some s)
    {es : List (Event Trigger Outcome)} {w : World NodeClient Await}
    (hrun : run (step node) started es = some w) :
    (∃ f, fetcherInitialize (fresh.fetches os) o = .ok f ∧
        ((∃ v, f.value = some v ∧ .value v ∈ os ++ [o]) ↔ ∃ v, .value v ∈ os ++ [o])) ∧
      (s.state = .initialized ∧ (s.adaPots.isSome = true ↔ ∃ v, attempts.head? = some (.value v))) ∧
      (Throughout (step node) (fun w => Served w.shared) started es ↔
        ∀ es' e, es' ++ [e] <+: es → ∀ t, run (step node) started es' = some t → Completes t e →
          HasFetched es') := by
  refine ⟨⟨_, rfl, ?_⟩, ?_, served_throughout_iff hrun⟩
  · have hvalue : ((fresh.fetches os).fetch o).startPolling.value = (fresh.fetches (os ++ [o])).value := by
      rw [startPolling_value, fetches, fetches, List.foldl_append]
      rfl
    rw [hvalue]
    constructor
    · rintro ⟨v, -, hv⟩
      exact ⟨v, hv⟩
    · intro h
      obtain ⟨v, hv⟩ := Option.isSome_iff_exists.mp ((fetches_value_isSome (os ++ [o])).mpr h)
      exact ⟨v, hv, fetches_value hv⟩
  · obtain ⟨p, hp, hstate, hpots⟩ := hasuraInitialize_first hs
    rw [hp, hpots, adaPots_isSome]
    exact ⟨hstate, exists_congr fun v => Option.some_inj.symm⟩

def lateOgmios : List (Event Trigger Outcome) :=
  [.call .called, .settle 0 (.fetched .rejects), .settle 0 .ok, .settle 0 .ok, .settle 0 .ok, .settle 0 .ok]

theorem lateOgmios_iff :
    ∃ s w, hasuraInitialize (fun _ => .ok ()) [.rejects] .fresh = some s ∧
      run (step node) started lateOgmios = some w ∧ s.state = .initialized ∧
      (Throughout (step node) (fun w => Served w.shared) started lateOgmios ↔
        ∀ es' e, es' ++ [e] <+: lateOgmios → ∀ t, run (step node) started es' = some t → Completes t e →
          HasFetched es') := by
  have hrun : (run (step node) started lateOgmios).isSome = true := by decide +kernel
  obtain ⟨w, hw⟩ := Option.isSome_iff_exists.mp hrun
  have hhasura : ∃ s, hasuraInitialize (fun _ => .ok ()) [.rejects] .fresh = some s := ⟨_, rfl⟩
  obtain ⟨s, hs⟩ := hhasura
  obtain ⟨-, hinitialized, hthroughout⟩ := initialized_fetched_iff [] (Fetch.value true) hs hw
  exact ⟨s, w, hs, hw, hinitialized.1, hthroughout⟩

theorem lateOgmios_typeError :
    (∃ f, fetcherInitialize fresh (Fetch.rejects (V := ServerHealth)) = .ok f ∧ f.value = none) ∧
      (∃ s, hasuraInitialize (fun _ => .ok ()) [.rejects] .fresh = some s ∧ s.state = .initialized ∧
        s.adaPots = none) ∧
      ∃ w, run (step node) started lateOgmios = some w ∧ w.shared.state = .initialized ∧
        submitTransaction w.shared (.ok "hash") = .typeError := by
  refine ⟨⟨_, rfl, rfl⟩, ⟨_, rfl, rfl, rfl⟩, ?_⟩
  have hend : (run (step node) started lateOgmios).map (fun w =>
      (w.shared.state, submitTransaction w.shared (.ok "hash"))) = some (.initialized, .typeError) := by
    decide +kernel
  obtain ⟨w, hw, hboth⟩ := Option.map_eq_some_iff.mp hend
  obtain ⟨hstate, hsubmit⟩ := Prod.mk.inj hboth
  exact ⟨w, hw, hstate, hsubmit⟩

end CardanoGraphql.FetchedValues
