import CardanoGraphql.DbSetup

namespace CardanoGraphql.SetupRepeats

open Runs Tasks DbSetup

/-- The trigger handled to completion, every external operation succeeding. -/
def handled (w : World Process Await) (t : Trigger) : World Process Await :=
  match step background w (.call t) with
  | none => w
  | some w' => complete background .ok 20 w'

def afterAll (ts : List Trigger) : World Process Await := ts.foldl handled started

/-- The process runs, the follower is running, and each queue has one subscription. -/
structure Ready (s : Process) : Prop where
  alive : s.exited = false
  running : s.chainFollower = .running
  initial : s.subscribedInitial = 1
  update : s.subscribedUpdate = 1

theorem afterAll_concat (ts : List Trigger) (t : Trigger) :
    afterAll (ts ++ [t]) = handled (afterAll ts) t := by
  rw [afterAll, List.foldl_append]
  rfl

def unset (inits : Nat) : Process := { Process.fresh with inits := inits }

def setUp (hasura : ModuleState) (inits : Nat) (applications : List Nat) : Process :=
  { hasura := hasura
    applyingSchemaAndMetadata := false
    metadataClient := .initialized
    chainFollower := .running
    worker := .initialized
    subscribedInitial := 1
    subscribedUpdate := 1
    exited := false
    inits := inits
    applications := applications
    starts := [true] }

inductive Stage : Nat → World Process Await → Prop
  | unset (inits : Nat) : Stage 0 ⟨unset inits, []⟩
  | setUp (hasura : ModuleState) (inits : Nat) (applications : List Nat)
      (h : hasura = .null ∨ hasura = .initialized) : Stage 1 ⟨setUp hasura inits applications, []⟩
  | exited (s : Process) (h : s.exited = true) : Stage 2 ⟨s, []⟩

theorem handled_init {w : World Process Await} {t : Trigger} (h : isInit t = true)
    (halive : w.shared.exited = false) (hidle : w.pending = []) :
    handled w t = ⟨{ w.shared with hasura := .null, inits := w.shared.inits + 1 }, []⟩ := by
  obtain ⟨s, pending⟩ := w
  subst hidle
  have hcall : background.call t s = some (onDbInit s) := by
    rw [← receive_init h]
    exact if_neg (Bool.eq_false_iff.mp halive)
  simp only [handled, step, hcall, Option.map_some]
  rfl

theorem handled_setup {w : World Process Await} {t : Trigger} (h : isSetup t = true)
    (halive : w.shared.exited = false) (hidle : w.pending = []) :
    handled w t = complete background .ok 20
      ⟨(onDbSetup w.shared).1, (onDbSetup w.shared).2.toList⟩ := by
  obtain ⟨s, pending⟩ := w
  subst hidle
  have hcall : background.call t s = some (onDbSetup s) := by
    rw [← receive_setup h]
    exact if_neg (Bool.eq_false_iff.mp halive)
  simp only [handled, step, hcall, Option.map_some, List.nil_append]

theorem handled_other {w : World Process Await} {t : Trigger} (hi : isInit t = false)
    (hs : isSetup t = false) (hidle : w.pending = []) : handled w t = w := by
  obtain ⟨s, pending⟩ := w
  subst hidle
  cases halive : s.exited with
  | true => simp [handled, step, background, halive]
  | false =>
      have hcall : background.call t s = some (s, none) := by
        rw [← receive_other hi hs]
        exact if_neg (Bool.eq_false_iff.mp halive)
      simp only [handled, step, hcall, Option.map_some]
      rfl

theorem handled_exited {w : World Process Await} (h : w.shared.exited = true) (t : Trigger) :
    handled w t = w := by
  simp [handled, step, background, h]

theorem complete_alone {s : Process} (h : s.exited = false) (k : Await) (fuel : Nat) :
    complete background .ok (fuel + 1) ⟨s, [k]⟩ =
      complete background .ok fuel ⟨(resumeOk k s).1, (resumeOk k s).2.toList⟩ :=
  complete_one (by simp [background, h]) fuel

theorem first_setup (inits : Nat) :
    complete background .ok 20 ⟨(onDbSetup (unset inits)).1, (onDbSetup (unset inits)).2.toList⟩ =
      ⟨setUp .initialized inits [inits], []⟩ := by
  simp [onDbSetup, hasuraInitialize, unset, Process.fresh, complete_alone, complete_idle, resumeOk,
    metadataClientInitialize, chainFollowerInitialize, workerStart, chainFollowerStart, Process.prepared, setUp]

theorem stage_two {w : World Process Await} (hexited : w.shared.exited = true) (hidle : w.pending = []) :
    Stage 2 w := by
  obtain ⟨s, pending⟩ := w
  subst hidle
  exact Stage.exited s hexited

theorem second_setup (hasura : ModuleState) (inits : Nat) (applications : List Nat)
    (h : hasura = .null ∨ hasura = .initialized) :
    Stage 2 (complete background .ok 20 ⟨(onDbSetup (setUp hasura inits applications)).1,
      (onDbSetup (setUp hasura inits applications)).2.toList⟩) := by
  apply stage_two
  · rcases h with rfl | rfl <;>
      simp [onDbSetup, hasuraInitialize, setUp, complete_alone, complete_idle, resumeOk,
        metadataClientInitialize, chainFollowerInitialize, workerStart, chainFollowerStart, Process.exit]
  · rcases h with rfl | rfl <;>
      simp [onDbSetup, hasuraInitialize, setUp, complete_alone, complete_idle, resumeOk,
        metadataClientInitialize, chainFollowerInitialize, workerStart, chainFollowerStart, Process.exit]

theorem isSetup_of_isInit {t : Trigger} (h : isInit t = true) : isSetup t = false := by
  cases t with
  | connected => cases h
  | notification payload =>
      obtain rfl := of_decide_eq_true h
      rfl

theorem stage_handled {n : Nat} {w : World Process Await} (h : Stage n w) (t : Trigger) :
    Stage (min (n + (isSetup t).toNat) 2) (handled w t) := by
  cases hi : isInit t with
  | true =>
      rw [isSetup_of_isInit hi]
      cases h with
      | unset inits =>
          rw [handled_init hi rfl rfl]
          exact Stage.unset (inits + 1)
      | setUp hasura inits applications h =>
          rw [handled_init hi rfl rfl]
          exact Stage.setUp .null (inits + 1) applications (Or.inl rfl)
      | exited s h =>
          rw [handled_exited h]
          exact Stage.exited s h
  | false =>
      cases hs : isSetup t with
      | true =>
          cases h with
          | unset inits =>
              rw [handled_setup hs rfl rfl, first_setup]
              exact Stage.setUp .initialized inits [inits] (Or.inr rfl)
          | setUp hasura inits applications h =>
              rw [handled_setup hs rfl rfl]
              exact second_setup hasura inits applications h
          | exited s h =>
              rw [handled_exited h]
              exact Stage.exited s h
      | false =>
          cases h with
          | unset inits =>
              rw [handled_other hi hs rfl]
              exact Stage.unset inits
          | setUp hasura inits applications h =>
              rw [handled_other hi hs rfl]
              exact Stage.setUp hasura inits applications h
          | exited s h =>
              rw [handled_exited h]
              exact Stage.exited s h

theorem stage_afterAll (ts : List Trigger) : Stage (min (ts.countP isSetup) 2) (afterAll ts) := by
  induction ts using List.reverseRecOn with
  | nil => exact Stage.unset 0
  | append_singleton ts t ih =>
      have hnext := stage_handled ih t
      rw [afterAll_concat, List.countP_append, List.countP_singleton]
      have hmin : min (min (ts.countP isSetup) 2 + (isSetup t).toNat) 2 =
          min (ts.countP isSetup + if isSetup t = true then 1 else 0) 2 := by
        cases isSetup t with
        | false => simp
        | true =>
            simp only [Bool.toNat_true, if_true]
            omega
      rwa [hmin] at hnext

theorem stage_idle {n : Nat} {w : World Process Await} (h : Stage n w) : w.pending = [] := by
  cases h <;> rfl

theorem ready_of_stage_one {w : World Process Await} (h : Stage 1 w) : Ready w.shared := by
  cases h with
  | setUp hasura inits applications h => exact ⟨rfl, rfl, rfl, rfl⟩

theorem not_ready_of_stage_two {w : World Process Await} (h : Stage 2 w) : ¬ Ready w.shared := by
  intro hready
  cases h with
  | exited s h => exact absurd (h.symm.trans hready.alive) (by simp)

/-- Every trigger is handled to its end, and from the first setup trigger on the process is
ready after each, exactly when there is no second one. -/
theorem setup_repeats_iff (ts : List Trigger) :
    (afterAll ts).pending = [] ∧
      ((∀ ts', ts' <+: ts → 0 < ts'.countP isSetup → Ready (afterAll ts').shared) ↔
        ts.countP isSetup ≤ 1) := by
  refine ⟨stage_idle (stage_afterAll ts), ?_⟩
  constructor
  · intro h
    by_contra hmany
    have hstage := stage_afterAll ts
    rw [show min (ts.countP isSetup) 2 = 2 by omega] at hstage
    exact not_ready_of_stage_two hstage (h ts List.prefix_rfl (by omega))
  · intro h ts' hp hpos
    have hle : ts'.countP isSetup ≤ 1 := hp.sublist.countP_le.trans h
    have hstage := stage_afterAll ts'
    rw [show min (ts'.countP isSetup) 2 = 1 by omega] at hstage
    exact ready_of_stage_one hstage

theorem reconnect_exits :
    (afterAll [.connected, .connected]).shared.exited = true ∧
      (afterAll [.connected, .connected]).shared.subscribedInitial = 2 ∧
      ¬ ∀ ts', ts' <+: [.connected, .connected] → 0 < ts'.countP isSetup →
        Ready (afterAll ts').shared := by
  have hexited : (afterAll [.connected, .connected]).shared.exited = true := by decide +kernel
  refine ⟨hexited, by decide +kernel, fun h => ?_⟩
  have hready := h [.connected, .connected] List.prefix_rfl (by decide)
  exact absurd (hexited.symm.trans hready.alive) (by simp)

end CardanoGraphql.SetupRepeats
