import CardanoGraphql.DbSetup

namespace CardanoGraphql.PreparedStart

open Runs Tasks DbSetup

/-- Every call of `ChainFollower.start` so far followed a complete application that began
after the last `init`. -/
def StartsPrepared (s : Process) : Prop := ∀ b ∈ s.starts, b = true

def underWay : Await → Bool
  | .migrationDelay _ | .followerQueue | .resume => false
  | _ => true

/-- `init` comes while no run is under way; a setup begins the application itself, or it
is prepared already. -/
def Calm (w : World Process Await) : Event Trigger Outcome → Prop
  | .call t =>
      (isInit t = true → ∀ k ∈ w.pending, underWay k = false) ∧
        (isSetup t = true →
          (w.shared.hasura = .null ∧ w.shared.applyingSchemaAndMetadata = false) ∨
            w.shared.prepared = true)
  | .settle _ _ => True

/-- An application that is under way began after the last `init`, and one is complete
where a run is past it. -/
def Settled (s : Process) : Await → Prop
  | .migrationDelay _ | .followerQueue | .resume => True
  | .migrateDown _ began | .migrateUp _ began | .metadataClear _ began | .metadataApply _ began =>
      began = s.inits
  | _ => s.prepared = true

theorem settled_of_idle {k : Await} (h : underWay k = false) (s : Process) : Settled s k := by
  cases k with
  | migrationDelay | followerQueue | resume => trivial
  | _ => cases h

theorem prepared_iff (s : Process) : s.prepared = true ↔ s.inits ∈ s.applications := decide_eq_true_iff

structure Keeps (s : Process) (r : Process × Option Await) : Prop where
  inits : r.1.inits = s.inits
  applications : s.applications ⊆ r.1.applications
  bounded : (∀ a ∈ s.applications, a ≤ s.inits) → ∀ a ∈ r.1.applications, a ≤ r.1.inits
  worker : r.1.worker = s.worker
  starts : StartsPrepared s → StartsPrepared r.1
  next : ∀ k, r.2 = some k → Settled r.1 k

theorem keeps_prepared {s : Process} {r : Process × Option Await} (h : Keeps s r)
    (hp : s.prepared = true) : r.1.prepared = true := by
  rw [prepared_iff] at hp ⊢
  rw [h.inits]
  exact h.applications hp

theorem keeps_settled {s : Process} {r : Process × Option Await} (h : Keeps s r) {k : Await}
    (hk : Settled s k) : Settled r.1 k := by
  cases k with
  | migrationDelay _ | followerQueue | resume => trivial
  | migrateDown _ began | migrateUp _ began | metadataClear _ began | metadataApply _ began =>
      exact hk.trans h.inits.symm
  | _ => exact keeps_prepared h hk

theorem keeps_same (s : Process) {k : Await} (hk : Settled s k) : Keeps s (s, some k) :=
  ⟨rfl, List.Subset.refl _, id, rfl, id, fun _ h => Option.some.inj h ▸ hk⟩

theorem keeps_exit (s : Process) : Keeps s s.exit :=
  ⟨rfl, List.Subset.refl _, id, rfl, id, fun _ h => by cases h⟩

theorem keeps_retry (s : Process) (retries : Nat) {attempt : Nat → Await}
    (h : ∀ left, Settled s (attempt left)) : Keeps s (s.retry retries attempt) := by
  cases retries with
  | zero => exact keeps_exit s
  | succ left => exact keeps_same s (h left)

theorem chainFollowerStart_keeps {s : Process} (hp : s.prepared = true) : Keeps s (chainFollowerStart s) := by
  have hstarts : StartsPrepared s → ∀ b ∈ s.starts ++ [s.prepared], b = true := by
    intro h b hb
    rcases List.mem_append.mp hb with hb | hb
    · exact h b hb
    · rw [List.mem_singleton.mp hb, hp]
  rw [chainFollowerStart]
  split
  · exact ⟨rfl, List.Subset.refl _, id, rfl, hstarts, fun _ h => by cases h⟩
  · exact ⟨rfl, List.Subset.refl _, id, rfl, hstarts, fun k h => Option.some.inj h ▸ trivial⟩

theorem resumeOk_keeps {s : Process} (hworker : s.worker = .initialized) {k : Await} (hk : Settled s k) :
    Keeps s (resumeOk k s) := by
  cases k with
  | metadataApply retries began =>
      obtain rfl : began = s.inits := hk
      refine ⟨rfl, List.subset_cons_self _ _, fun h => ?_, rfl, id, fun k h => ?_⟩
      · exact List.forall_mem_cons.mpr ⟨le_rfl, h⟩
      · obtain rfl := Option.some.inj h
        exact decide_eq_true List.mem_cons_self
  | migrateUp _ began | metadataClear _ began | migrateDown _ began => exact keeps_same s hk
  | migrationDelay retries => exact keeps_same s rfl
  | hasuraInitialized =>
      rw [resumeOk, metadataClientInitialize]
      split
      · exact keeps_same s hk
      · exact ⟨rfl, List.Subset.refl _, id, rfl, id, fun k h => Option.some.inj h ▸ hk⟩
  | metadataClientInitialized =>
      rw [resumeOk, chainFollowerInitialize]
      split
      · exact keeps_same s hk
      · exact ⟨rfl, List.Subset.refl _, id, rfl, id, fun k h => Option.some.inj h ▸ hk⟩
  | chainFollowerInitialized =>
      rw [resumeOk, workerStart, if_neg (not_not.mpr hworker)]
      exact keeps_same s hk
  | chainSyncPoints retries => exact chainFollowerStart_keeps hk
  | followerQueue => exact keeps_same s trivial
  | resume => exact ⟨rfl, List.Subset.refl _, id, rfl, id, fun _ h => by cases h⟩
  | _ => exact ⟨rfl, List.Subset.refl _, id, rfl, id, fun k h => Option.some.inj h ▸ hk⟩

theorem resumeFailed_keeps {s : Process} {k : Await} (hk : Settled s k) {r : Process × Option Await}
    (h : resumeFailed k s = some r) : Keeps s r := by
  cases k with
  | migrateDown retries began | migrateUp retries began =>
      obtain rfl := Option.some.inj h
      exact keeps_retry s retries fun _ => trivial
  | metadataClear retries began | metadataApply retries began | epochs retries
  | metadataServerAvailable retries | metadataServerSynced retries | chainSyncConnection retries
  | chainSyncPoints retries =>
      obtain rfl := Option.some.inj h
      exact keeps_retry s retries fun _ => hk
  | workerQueue | subscribeInitial | subscribeUpdate | followerQueue | resume =>
      obtain rfl := Option.some.inj h
      exact keeps_exit s
  | _ => cases h

theorem resume_keeps {s : Process} (hworker : s.worker = .initialized) {k : Await} (hk : Settled s k)
    {o : Outcome} {r : Process × Option Await} (h : background.resume k o s = some r) : Keeps s r := by
  obtain ⟨-, hr⟩ := alive_of_some h
  cases o with
  | ok =>
      obtain rfl := Option.some.inj hr
      exact resumeOk_keeps hworker hk
  | fails => exact resumeFailed_keeps hk hr

theorem onDbSetup_keeps {s : Process}
    (h : (s.hasura = .null ∧ s.applyingSchemaAndMetadata = false) ∨ s.prepared = true) :
    Keeps s (onDbSetup s) := by
  rw [onDbSetup, hasuraInitialize]
  split
  next hnull =>
    rcases h with ⟨h, -⟩ | hp
    · exact absurd h hnull
    · exact keeps_same s hp
  next =>
    split
    next happlying =>
      rcases h with ⟨-, h⟩ | hp
      · exact absurd (h.symm.trans happlying) (by simp)
      · exact ⟨rfl, List.Subset.refl _, id, rfl, id, fun k h => Option.some.inj h ▸ hp⟩
    next =>
      exact ⟨rfl, List.Subset.refl _, id, rfl, id, fun k h => Option.some.inj h ▸ rfl⟩

structure Good (w : World Process Await) : Prop where
  settled : ∀ k ∈ w.pending, Settled w.shared k
  bounded : ∀ a ∈ w.shared.applications, a ≤ w.shared.inits
  worker : w.shared.worker = .initialized
  starts : StartsPrepared w.shared

theorem good_of_keeps {w : World Process Await} (h : Good w) {r : Process × Option Await}
    (hr : Keeps w.shared r) {rest : List Await} (hrest : rest ⊆ w.pending) :
    Good ⟨r.1, rest ++ r.2.toList⟩ := by
  refine ⟨fun k hk => ?_, hr.bounded h.bounded, hr.worker.trans h.worker, hr.starts h.starts⟩
  rcases List.mem_append.mp hk with hk | hk
  · exact keeps_settled hr (h.settled k (hrest hk))
  · exact hr.next k (Option.mem_toList.mp hk)

theorem good_init {w : World Process Await} (h : Good w) (hidle : ∀ k ∈ w.pending, underWay k = false) :
    Good ⟨(onDbInit w.shared).1, w.pending ++ (onDbInit w.shared).2.toList⟩ := by
  refine ⟨fun k hk => ?_, fun a ha => Nat.le_succ_of_le (h.bounded a ha), h.worker, h.starts⟩
  rw [onDbInit, Option.toList_none, List.append_nil] at hk
  exact settled_of_idle (hidle k hk) _

theorem good_step {w w' : World Process Await} {e : Event Trigger Outcome} (h : Good w)
    (hcalm : Calm w e) (hstep : step background w e = some w') : Good w' := by
  cases e with
  | call t =>
      obtain ⟨r, hr, rfl⟩ := step_call hstep
      obtain ⟨hinit, hsetup⟩ := hcalm
      obtain ⟨-, hreceive⟩ := call_alive hr
      cases hi : isInit t with
      | true =>
          rw [← hreceive, receive_init hi]
          exact good_init h (hinit hi)
      | false =>
          cases hs : isSetup t with
          | true =>
              rw [← hreceive, receive_setup hs]
              exact good_of_keeps h (onDbSetup_keeps (hsetup hs)) (List.Subset.refl _)
          | false =>
              rw [← hreceive, receive_other hi hs, Option.toList_none, List.append_nil]
              exact h
  | settle n o =>
      obtain ⟨k, rest, r, hperm, hr, rfl⟩ := step_settle hstep
      have hk := h.settled k (hperm.mem_iff.mpr List.mem_cons_self)
      have hrest : rest ⊆ w.pending := fun x hx => hperm.mem_iff.mpr (List.mem_cons_of_mem k hx)
      exact good_of_keeps h (resume_keeps h.worker hk hr) hrest

theorem good_started : Good started := by
  refine ⟨fun k hk => ?_, fun a ha => ?_, rfl, fun b hb => ?_⟩
  · cases hk
  · cases ha
  · cases hb

def stepsLeft : Await → Nat
  | .migrationDelay _ => 19
  | .migrateDown _ _ => 18
  | .migrateUp _ _ => 17
  | .metadataClear _ _ => 16
  | .metadataApply _ _ => 15
  | .epochs _ => 14
  | .hasuraInitialized => 13
  | .metadataServerAvailable _ => 12
  | .metadataServerSynced _ => 11
  | .metadataClientInitialized => 10
  | .chainSyncConnection _ => 9
  | .chainFollowerInitialized => 8
  | .workerQueue => 7
  | .subscribeInitial => 6
  | .subscribeUpdate => 5
  | .workerStarted => 4
  | .chainSyncPoints _ => 3
  | .followerQueue => 2
  | .resume => 1

/-- A run that is under way, whose application is none that the last `init` left, in a
process that is not prepared otherwise. -/
structure Doomed (s : Process) (k : Await) : Prop where
  underWay : underWay k = true
  unsettled : ¬ Settled s k
  unprepared : s.prepared = false
  worker : s.worker = .initialized
  alive : s.exited = false

theorem prepared_cons {s : Process} (h : s.prepared = false) {began : Nat} (hb : began ≠ s.inits) :
    Process.prepared { s with applyingSchemaAndMetadata := false, applications := began :: s.applications } =
      false := by
  rw [Process.prepared, decide_eq_false_iff_not] at h ⊢
  rw [List.mem_cons, not_or]
  exact ⟨Ne.symm hb, h⟩

theorem doomed_step {s : Process} {k : Await} (h : Doomed s k) :
    ∃ r, background.resume k .ok s = some r ∧
      (¬ StartsPrepared r.1 ∨ ∃ k', r.2 = some k' ∧ Doomed r.1 k' ∧ stepsLeft k' < stepsLeft k) := by
  obtain ⟨hunder, hunsettled, hunprepared, hworker, halive⟩ := h
  have hnot : ¬ s.prepared = true := by simp [hunprepared]
  refine ⟨resumeOk k s, by simp [background, halive], ?_⟩
  cases k with
  | migrationDelay _ | followerQueue | resume => cases hunder
  | chainSyncPoints retries =>
      refine Or.inl fun hstarts => ?_
      have hmem : false ∈ (chainFollowerStart s).1.starts := by
        rw [chainFollowerStart, ← hunprepared]
        split <;> exact List.mem_append_right _ List.mem_cons_self
      exact absurd (hstarts false hmem) (by simp)
  | migrateDown retries began | migrateUp retries began | metadataClear retries began =>
      exact Or.inr ⟨_, rfl, ⟨rfl, hunsettled, hunprepared, hworker, halive⟩, by simp [stepsLeft]⟩
  | metadataApply retries began =>
      have hafter := prepared_cons hunprepared hunsettled
      refine Or.inr ⟨.epochs 10, rfl, ⟨rfl, ?_, hafter, hworker, halive⟩, by simp [stepsLeft]⟩
      exact Bool.eq_false_iff.mp hafter
  | hasuraInitialized =>
      rw [resumeOk, metadataClientInitialize]
      split <;> exact Or.inr ⟨_, rfl, ⟨rfl, hnot, hunprepared, hworker, halive⟩, by simp [stepsLeft]⟩
  | metadataClientInitialized =>
      rw [resumeOk, chainFollowerInitialize]
      split <;> exact Or.inr ⟨_, rfl, ⟨rfl, hnot, hunprepared, hworker, halive⟩, by simp [stepsLeft]⟩
  | chainFollowerInitialized =>
      rw [resumeOk, workerStart, if_neg (not_not.mpr hworker)]
      exact Or.inr ⟨_, rfl, ⟨rfl, hnot, hunprepared, hworker, halive⟩, by simp [stepsLeft]⟩
  | _ => exact Or.inr ⟨_, rfl, ⟨rfl, hnot, hunprepared, hworker, halive⟩, by simp [stepsLeft]⟩

theorem calm_settles {w : World Process Await} {es : List (Event Trigger Outcome)}
    (h : ∀ e ∈ es, ∃ n, e = .settle n .ok) : EachStep (step background) Calm w es := by
  intro es' e hp t ht
  obtain ⟨n, rfl⟩ := h e (hp.subset (List.mem_append_right es' List.mem_cons_self))
  trivial

theorem doomed_start {w : World Process Await} {k : Await} (hk : k ∈ w.pending) (h : Doomed w.shared k) :
    ∃ es v, EachStep (step background) Calm w es ∧ run (step background) w es = some v ∧
      ¬ StartsPrepared v.shared := by
  obtain ⟨es, v, hes, hrun, hv⟩ := reaches (m := background) (R := fun s => ¬ StartsPrepared s)
    stepsLeft .ok (fun s k => doomed_step) hk h
  exact ⟨es, v, calm_settles hes, hrun, hv⟩

theorem unsettled_init {s : Process} {k : Await} (hunder : underWay k = true) (hk : Settled s k)
    (h : (onDbInit s).1.prepared = false) : ¬ Settled (onDbInit s).1 k := by
  have hnot : ¬ (onDbInit s).1.prepared = true := by simp [h]
  cases k with
  | migrationDelay _ | followerQueue | resume => cases hunder
  | migrateDown _ began | migrateUp _ began | metadataClear _ began | metadataApply _ began =>
      intro hafter
      exact Nat.succ_ne_self s.inits (hafter.symm.trans hk)
  | _ => exact hnot

theorem doomed_setup {s : Process} (h : ¬ (s.hasura = .null ∧ s.applyingSchemaAndMetadata = false))
    (hprepared : s.prepared = false) (hworker : s.worker = .initialized) (halive : s.exited = false) :
    ∃ k, (onDbSetup s).2 = some k ∧ Doomed (onDbSetup s).1 k := by
  have hnot : ¬ s.prepared = true := by simp [hprepared]
  rw [onDbSetup, hasuraInitialize]
  split
  next => exact ⟨_, rfl, rfl, hnot, hprepared, hworker, halive⟩
  next hnull =>
    split
    next => exact ⟨_, rfl, rfl, hnot, hprepared, hworker, halive⟩
    next happlying => exact absurd ⟨not_not.mp hnull, Bool.eq_false_iff.mpr happlying⟩ h

theorem doomed_of_not_calm {w w' : World Process Await} {e : Event Trigger Outcome} (h : Good w)
    (hstep : step background w e = some w') (hcalm : ¬ Calm w e) :
    ∃ k ∈ w'.pending, Doomed w'.shared k := by
  cases e with
  | settle n o => exact absurd trivial hcalm
  | call t =>
      obtain ⟨r, hr, rfl⟩ := step_call hstep
      obtain ⟨halive, hreceive⟩ := call_alive hr
      rw [Calm, not_and_or, Classical.not_imp, Classical.not_imp] at hcalm
      rcases hcalm with ⟨hi, hidle⟩ | ⟨hs, hneither⟩
      · rw [receive_init hi] at hreceive
        subst hreceive
        simp only [not_forall, Bool.not_eq_false] at hidle
        obtain ⟨k, hk, hunder⟩ := hidle
        have hunprepared : (onDbInit w.shared).1.prepared = false := by
          rw [Process.prepared, decide_eq_false_iff_not]
          exact fun hmem => absurd (h.bounded _ hmem) (Nat.not_succ_le_self _)
        refine ⟨k, List.mem_append_left _ hk, hunder, ?_, hunprepared, h.worker, halive⟩
        exact unsettled_init hunder (h.settled k hk) hunprepared
      · rw [receive_setup hs] at hreceive
        subst hreceive
        rw [not_or] at hneither
        obtain ⟨k, hk, hdoomed⟩ :=
          doomed_setup hneither.1 (Bool.eq_false_iff.mpr hneither.2) h.worker halive
        refine ⟨k, List.mem_append_right _ ?_, hdoomed⟩
        rw [hk]
        exact List.mem_cons_self

/-- The follower is started on a prepared schema in every run of calm steps, and only a
calm step rules out that the steps after it start it unprepared. -/
theorem prepared_start {es : List (Event Trigger Outcome)} {w : World Process Await}
    (hrun : run (step background) started es = some w) (hcalm : EachStep (step background) Calm started es) :
    Throughout (step background) (fun w => StartsPrepared w.shared) started es ∧
      ∀ e w', step background w e = some w' →
        (Calm w e ↔ ∀ es' v, EachStep (step background) Calm w' es' →
          run (step background) w' es' = some v → StartsPrepared v.shared) := by
  have hgood : Throughout (step background) Good started es :=
    run_invariant (fun s e t => good_step) good_started hcalm
  refine ⟨fun es' hp t ht => (hgood es' hp t ht).starts, fun e w' hstep => ?_⟩
  have hw : Good w := hgood es List.prefix_rfl w hrun
  constructor
  · intro he es' v hes hv
    have hafter := run_invariant (fun s e t => good_step) (good_step hw he hstep) hes
    exact (hafter es' List.prefix_rfl v hv).starts
  · intro hsafe
    by_contra hnot
    obtain ⟨k, hk, hdoomed⟩ := doomed_of_not_calm hw hstep hnot
    obtain ⟨es', v, hes, hv, hunprepared⟩ := doomed_start hk hdoomed
    exact hunprepared (hsafe es' v hes hv)

def oneSetup : List (Event Trigger Outcome) := .call .connected :: List.replicate 16 (.settle 0 .ok)

theorem oneSetup_prepared :
    ∃ w, run (step background) started oneSetup = some w ∧ w.shared.starts = [true] ∧
      Throughout (step background) (fun w => StartsPrepared w.shared) started oneSetup := by
  have hstarts : (run (step background) started oneSetup).map (fun w => w.shared.starts) = some [true] := by
    decide +kernel
  obtain ⟨w, hw, hone⟩ := Option.map_eq_some_iff.mp hstarts
  have hcalm : EachStep (step background) Calm started oneSetup := by
    apply EachStep.cons
    · refine ⟨fun h => ?_, fun _ => Or.inl ⟨rfl, rfl⟩⟩
      cases h
    · intro t _
      exact calm_settles fun e he => ⟨0, List.eq_of_mem_replicate he⟩
  exact ⟨w, hw, hone, (prepared_start hw hcalm).1⟩

def secondSetup : List (Event Trigger Outcome) :=
  .call .connected :: .call (.notification "db-setup") :: List.replicate 11 (.settle 1 .ok)

theorem secondSetup_unprepared :
    ¬ ∀ es w, run (step background) started es = some w → StartsPrepared w.shared := by
  intro h
  have hstarts : (run (step background) started secondSetup).map (fun w => w.shared.starts) =
      some [false] := by decide +kernel
  obtain ⟨w, hw, hone⟩ := Option.map_eq_some_iff.mp hstarts
  have hprepared := h secondSetup w hw
  rw [StartsPrepared, hone] at hprepared
  exact absurd (hprepared false List.mem_cons_self) (by simp)

end CardanoGraphql.PreparedStart
