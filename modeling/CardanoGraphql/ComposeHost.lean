import CardanoGraphql.DockerRestore

namespace CardanoGraphql.ComposeHost

open Fallible DockerStack DockerRestore

structure Containers where
  running : Nat
  exited : Nat
deriving DecidableEq, Repr

/-- `ps` is given no project and lists the one of the working directory; some versions of
`docker-compose` list the containers that have exited as well. -/
structure Compose where
  projectName : String
  observed : String
  listsExited : Bool
  services : Nat
  services_pos : 0 < services

def Compose.listed (compose : Compose) (c : Containers) : Nat :=
  if compose.listsExited then c.running + c.exited else c.running

/-- A command that fails may have done a part of its work. -/
inductive ComposeOutcome
  | succeeds
  | fails (error : String) (left : Containers)

/-- What one command of the CLI meets outside the program. The state of the stack is
asked of the host, so that `docker` is looked at for the images, volumes and runs only. -/
structure CommandExternals where
  ps : Site → Except String Unit
  psAll : Site → Except String Unit
  upAll : Site → ComposeOutcome
  stopAll : ComposeOutcome
  downAll : ComposeOutcome
  docker : RestoreExternals

inductive AccessKind
  | read
  | replace
deriving DecidableEq, Repr

/-- A volume is read or replaced, with the containers that the stack has then. -/
structure Access where
  kind : AccessKind
  containers : Containers
deriving DecidableEq, Repr

structure StackHost where
  projects : String → Containers
  docker : RestoreWorld
  accesses : List Access

def touched (w : RestoreWorld) : Nat :=
  w.docker.tars.length + w.docker.removed.length + w.created.length + w.restored.length

section Steps

variable (compose : Compose) (env : CommandExternals)

def setProject (left : Containers) (s : StackHost) : StackHost :=
  { s with projects := Function.update s.projects compose.projectName left }

def currentState (site : Site) : Program StackHost StackState := do
  outcome (env.ps site)
  let c := (← get).projects compose.observed
  if compose.listed c = 0 then
    outcome (env.psAll site)
    if c.running + c.exited = 0 then pure .down else pure .stopped
  else pure .up

def composeCommand (result : ComposeOutcome) (done : Containers → Containers) : Program StackHost Unit :=
  match result with
  | .succeeds => modify fun s => setProject compose (done (s.projects compose.projectName)) s
  | .fails error left => do
      modify (setProject compose left)
      throw error

def up (site : Site) : Program StackHost Unit := do
  if (← currentState compose env site) ≠ .up then
    composeCommand compose (env.upAll site) fun _ => ⟨compose.services, 0⟩

def stop : Program StackHost Unit := do
  let state ← currentState compose env .stopForSnapshot
  if state ≠ .stopped ∧ state ≠ .down then
    composeCommand compose env.stopAll fun c => ⟨0, c.running + c.exited⟩

def down : Program StackHost Unit := do
  if (← currentState compose env .downForRebuild) ≠ .down then
    composeCommand compose env.downAll fun _ => ⟨0, 0⟩

def onVolumes {α : Type} (kind : AccessKind) (h : Program RestoreWorld α) : Program StackHost α := fun s =>
  ((call h s.docker).1,
    { s with
      docker := (call h s.docker).2
      accesses := s.accesses ++
        List.replicate (touched (call h s.docker).2 - touched s.docker) ⟨kind, s.projects compose.projectName⟩ })

end Steps

inductive Command
  | makeSnapshot
  | restoreSnapshot (entries : List Snapshot) (snapshotName : Option String)
  | rebuildService (services : List StatefulService) (backup : Bool)

def Command.isMakeSnapshot : Command → Bool
  | .makeSnapshot => true
  | _ => false

section Commands

variable (compose : Compose) (utilityImage : String) (statefulServices : List StatefulService)
  (env : CommandExternals)

def makeSnapshot : Program StackHost Unit := do
  let beforeState ← currentState compose env .beforeSnapshot
  stop compose env
  catchAndLog (onVolumes compose .read
    (onStack (dockerMakeSnapshot env.docker.stack utilityImage statefulServices)))
  if beforeState = .up then
    up compose env .upAfterSnapshot

def restoreSnapshot (entries : List Snapshot) (snapshotName : Option String) : Program StackHost Unit := do
  outcome (listed env.docker snapshotName)
  let snapshot := chosenName entries snapshotName
  outcome (validateSnapshot entries snapshot)
  let beforeState ← currentState compose env .beforeRebuild
  down compose env
  onVolumes compose .replace (DockerRestore.removeServiceVolumes env.docker statefulServices)
  onVolumes compose .replace (createServiceVolumes env.docker statefulServices)
  onVolumes compose .replace (dockerRestoreSnapshot env.docker utilityImage entries snapshot statefulServices)
  if beforeState = .up then
    up compose env .upAfterRebuild

def removeAndRestart (services : List StatefulService) : Program StackHost Unit := do
  let beforeState ← currentState compose env .beforeRebuild
  down compose env
  catchAndLog (onVolumes compose .replace (DockerRestore.removeServiceVolumes env.docker services))
  if beforeState = .up then
    up compose env .upAfterRebuild

def rebuildService (services : List StatefulService) (backup : Bool) : Program StackHost Unit := do
  if backup then
    makeSnapshot compose utilityImage statefulServices env
  removeAndRestart compose env services

def perform : Command → Program StackHost Unit
  | .makeSnapshot => makeSnapshot compose utilityImage statefulServices env
  | .restoreSnapshot entries snapshotName =>
      restoreSnapshot compose utilityImage statefulServices env entries snapshotName
  | .rebuildService services backup => rebuildService compose utilityImage statefulServices env services backup

end Commands

/-- A volume is read with nothing running, and replaced with no container left. -/
def Access.Quiet (a : Access) : Prop := a.containers.running = 0 ∧ (a.kind = .replace → a.containers.exited = 0)

def AllQuiet (s : StackHost) : Prop := ∀ a ∈ s.accesses, a.Quiet

def Compose.stateOf (compose : Compose) (c : Containers) : StackState :=
  if compose.listed c = 0 then (if c.running + c.exited = 0 then .down else .stopped) else .up

section Rules

variable (compose : Compose) (env : CommandExternals)

theorem Compose.stateOf_eq_up_iff (c : Containers) : compose.stateOf c = .up ↔ 0 < compose.listed c := by
  rw [Compose.stateOf]
  split <;> grind

theorem Compose.stateOf_eq_down_iff (c : Containers) :
    compose.stateOf c = .down ↔ c.running = 0 ∧ c.exited = 0 := by
  rw [Compose.stateOf, Compose.listed]
  grind

theorem Compose.running_le_listed (c : Containers) : c.running ≤ compose.listed c := by
  rw [Compose.listed]
  split <;> omega

theorem Compose.listed_le (c : Containers) : compose.listed c ≤ c.running + c.exited := by
  rw [Compose.listed]
  split <;> omega

theorem Compose.stateOf_started : compose.stateOf ⟨compose.services, 0⟩ = .up := by
  rw [Compose.stateOf_eq_up_iff]
  exact compose.services_pos.trans_le (compose.running_le_listed ⟨compose.services, 0⟩)

theorem Compose.stateOf_exited {n : Nat} (hn : 0 < n) :
    compose.stateOf ⟨0, n⟩ = .up ↔ compose.listsExited = true := by
  rw [Compose.stateOf_eq_up_iff, Compose.listed]
  split <;> simp_all

def answer (site : Site) (c : Containers) : Except String StackState :=
  env.ps site >>= fun _ =>
    (if compose.listed c = 0 then env.psAll site else .ok ()) >>= fun _ => .ok (compose.stateOf c)

theorem call_currentState (site : Site) (s : StackHost) :
    call (currentState compose env site) s = (answer compose env site (s.projects compose.observed), s) := by
  rw [currentState, answer, Compose.stateOf, call_bind, call_outcome]
  cases env.ps site with
  | error e => rfl
  | ok u =>
      simp only [call_bind, call_get]
      by_cases hlisted : compose.listed (s.projects compose.observed) = 0
      · simp only [if_pos hlisted, call_bind, call_outcome]
        cases env.psAll site with
        | error e => rfl
        | ok v =>
            by_cases hall : (s.projects compose.observed).running + (s.projects compose.observed).exited = 0
            · simp only [if_pos hall, call_pure]
              rfl
            · simp only [if_neg hall, call_pure]
              rfl
      · simp only [if_neg hlisted, call_pure]
        rfl

theorem answer_ok {site : Site} {c : Containers} {st : StackState} (h : answer compose env site c = .ok st) :
    st = compose.stateOf c := by
  obtain ⟨u, -, hrest⟩ := bind_ok_iff.mp h
  obtain ⟨v, -, hst⟩ := bind_ok_iff.mp hrest
  exact (Except.ok.inj hst).symm

variable {P E : StackHost → Prop}

theorem currentState_rule (site : Site) (hp : ∀ s, P s → E s) :
    Triple P (currentState compose env site)
      (fun st s => P s ∧ st = compose.stateOf (s.projects compose.observed)) E := by
  apply Triple.of_call
  intro s hs
  rw [call_currentState]
  cases hanswer : answer compose env site (s.projects compose.observed) with
  | error e => exact Or.inr ⟨e, s, rfl, hp s hs⟩
  | ok st => exact Or.inl ⟨st, s, rfl, hs, answer_ok compose env hanswer⟩

theorem composeCommand_rule {Q : StackHost → Prop} {done : Containers → Containers} (result : ComposeOutcome)
    (hdone : ∀ s, P s → Q (setProject compose (done (s.projects compose.projectName)) s))
    (hleft : ∀ left s, P s → E (setProject compose left s)) :
    Triple P (composeCommand compose result done) (fun _ => Q) E := by
  apply Triple.of_call
  intro s hs
  cases result with
  | succeeds => exact Or.inl ⟨(), _, rfl, hdone s hs⟩
  | fails error left => exact Or.inr ⟨error, setProject compose left s, rfl, hleft left s hs⟩

theorem onVolumes_rule {α : Type} {Q : StackHost → Prop} {kind : AccessKind} (h : Program RestoreWorld α)
    (hadded : ∀ s, P s → ∀ docker n, Q { s with
      docker := docker
      accesses := s.accesses ++ List.replicate n ⟨kind, s.projects compose.projectName⟩ })
    (hq : ∀ s, Q s → E s) : Triple P (onVolumes compose kind h) (fun _ => Q) E := by
  apply Triple.of_call
  intro s hs
  rcases hcall : call (onVolumes compose kind h) s with ⟨r, t⟩
  have ht : Q t := by
    have hstate : (call (onVolumes compose kind h) s).2 = t := congrArg Prod.snd hcall
    rw [← hstate]
    exact hadded s hs _ _
  cases r with
  | error e => exact Or.inr ⟨e, t, rfl, hq t ht⟩
  | ok a => exact Or.inl ⟨a, t, rfl, ht⟩

end Rules

/-- What the steps of the commands make of some assertions: of `Before` where a command
begins, of `Stopped` and `Removed` where it comes to the volumes, of `After` where it ends
and of `E` where it throws. The state it has read at its start is one of those in `Seen`. -/
structure StepRules (compose : Compose) (env : CommandExternals) (Before Stopped Removed E : StackHost → Prop)
    (Seen : StackState → Prop) (After : Command → StackHost → Prop) : Prop where
  asked : ∀ site, Triple Before (currentState compose env site) (fun st s => Before s ∧ Seen st) E
  stopped : Triple Before (stop compose env) (fun _ => Stopped) E
  takenDown : Triple Before (down compose env) (fun _ => Removed) E
  saved : ∀ h : Program RestoreWorld Unit, Triple Stopped (onVolumes compose .read h) (fun _ => Stopped) Stopped
  replaced : ∀ h : Program RestoreWorld Unit,
    Triple Removed (onVolumes compose .replace h) (fun _ => Removed) Removed
  afterSnapshot : ∀ st, Seen st → Triple Stopped
    (if st = .up then up compose env .upAfterSnapshot else pure ()) (fun _ => After .makeSnapshot) E
  afterRebuild : ∀ st command, Seen st → command.isMakeSnapshot = false → Triple Removed
    (if st = .up then up compose env .upAfterRebuild else pure ()) (fun _ => After command) E
  before_throws : ∀ s, Before s → E s
  removed_throws : ∀ s, Removed s → E s
  again : ∀ s, After .makeSnapshot s → Before s

namespace StepRules

variable {compose : Compose} {env : CommandExternals} {Before Stopped Removed E : StackHost → Prop}
  {Seen : StackState → Prop} {After : Command → StackHost → Prop} (utilityImage : String)
  (statefulServices : List StatefulService) (rules : StepRules compose env Before Stopped Removed E Seen After)
include rules

theorem makeSnapshot : Triple Before (makeSnapshot compose utilityImage statefulServices env)
    (fun _ => After .makeSnapshot) E := by
  apply Triple.bind (rules.asked .beforeSnapshot)
  intro beforeState
  apply Triple.of_fact
  intro hseen
  apply Triple.bind rules.stopped
  intro _
  apply Triple.bind (Triple.catchAndLog (rules.saved _))
  intro _
  exact rules.afterSnapshot beforeState hseen

theorem replaced_throws (h : Program RestoreWorld Unit) :
    Triple Removed (onVolumes compose .replace h) (fun _ => Removed) E :=
  (rules.replaced h).consequence (fun _ hs => hs) (fun _ _ hs => hs) rules.removed_throws

theorem restoreSnapshot (entries : List Snapshot) (snapshotName : Option String) :
    Triple Before (restoreSnapshot compose utilityImage statefulServices env entries snapshotName)
      (fun _ => After (.restoreSnapshot entries snapshotName)) E := by
  apply Triple.bind (Triple.outcome _ rules.before_throws)
  intro _
  apply Triple.bind (Triple.outcome _ rules.before_throws)
  intro _
  apply Triple.bind (rules.asked .beforeRebuild)
  intro beforeState
  apply Triple.of_fact
  intro hseen
  apply Triple.bind rules.takenDown
  intro _
  apply Triple.bind (rules.replaced_throws _)
  intro _
  apply Triple.bind (rules.replaced_throws _)
  intro _
  apply Triple.bind (rules.replaced_throws _)
  intro _
  exact rules.afterRebuild beforeState _ hseen rfl

theorem removeAndRestart (services : List StatefulService) (backup : Bool) :
    Triple Before (removeAndRestart compose env services)
      (fun _ => After (.rebuildService services backup)) E := by
  apply Triple.bind (rules.asked .beforeRebuild)
  intro beforeState
  apply Triple.of_fact
  intro hseen
  apply Triple.bind rules.takenDown
  intro _
  apply Triple.bind (Triple.catchAndLog (rules.replaced _))
  intro _
  exact rules.afterRebuild beforeState _ hseen rfl

theorem perform (command : Command) :
    Triple Before (perform compose utilityImage statefulServices env command) (fun _ => After command) E := by
  cases command with
  | makeSnapshot => exact rules.makeSnapshot utilityImage statefulServices
  | restoreSnapshot entries snapshotName =>
      exact rules.restoreSnapshot utilityImage statefulServices entries snapshotName
  | rebuildService services backup =>
      have hremoved := rules.removeAndRestart services backup
      cases backup with
      | false => exact hremoved
      | true =>
          have hmade := (rules.makeSnapshot utilityImage statefulServices).consequence
            (fun s hs => hs) (fun _ s hs => rules.again s hs) fun s hs => hs
          exact hmade.bind fun _ => hremoved

end StepRules

section Refinement

variable (compose : Compose) (utilityImage : String) (statefulServices : List StatefulService)
  (env : CommandExternals)

def ComposeOutcome.result : ComposeOutcome → Except String Unit
  | .succeeds => .ok ()
  | .fails error _ => .error error

def metBy (s : StackHost) : Externals :=
  { env.docker.stack with
    currentState := fun site =>
      match site with
      | .upAfterSnapshot => (call (currentState compose env site) (exec (stop compose env) s)).1
      | .upAfterRebuild => (call (currentState compose env site) (exec (down compose env) s)).1
      | _ => (call (currentState compose env site) s).1
    upAll := fun site => (env.upAll site).result
    stopAll := env.stopAll.result
    downAll := env.downAll.result }

theorem call_composeCommand (result : ComposeOutcome) (done : Containers → Containers) (s : StackHost) :
    (call (composeCommand compose result done) s).1 = result.result ∧
      (call (composeCommand compose result done) s).2.docker = s.docker := by
  cases result with
  | succeeds => exact ⟨rfl, rfl⟩
  | fails error left => exact ⟨rfl, rfl⟩

theorem call_asked (p : StackState → Prop) [DecidablePred p] (site : Site) (result : ComposeOutcome)
    (done : Containers → Containers) (s : StackHost) :
    (call (currentState compose env site >>= fun st =>
        if p st then composeCommand compose result done else pure ()) s).1 =
      ((call (currentState compose env site) s).1 >>= fun st => if p st then result.result else .ok ()) ∧
    (call (currentState compose env site >>= fun st =>
        if p st then composeCommand compose result done else pure ()) s).2.docker = s.docker := by
  rw [call_bind, call_currentState]
  cases answer compose env site (s.projects compose.observed) with
  | error e => exact ⟨rfl, rfl⟩
  | ok st =>
      obtain ⟨hresult, hdocker⟩ := call_composeCommand compose result done s
      by_cases hp : p st
      · simp only [if_pos hp]
        refine ⟨hresult.trans ?_, hdocker⟩
        exact (if_pos hp).symm
      · simp only [if_neg hp]
        refine ⟨?_, rfl⟩
        exact (if_neg hp).symm

theorem stop_met (s : StackHost) :
    (call (stop compose env) s).1 = stopOutcome (metBy compose env s) ∧
      (call (stop compose env) s).2.docker = s.docker :=
  call_asked compose env (fun st => st ≠ .stopped ∧ st ≠ .down) .stopForSnapshot _ _ s

theorem down_met (s : StackHost) :
    (call (down compose env) s).1 = downOutcome (metBy compose env s) ∧
      (call (down compose env) s).2.docker = s.docker :=
  call_asked compose env (fun st => st ≠ .down) .downForRebuild _ _ s

theorem up_met (site : Site) (s : StackHost) :
    (call (up compose env site) s).1 = ((call (currentState compose env site) s).1 >>= fun st =>
        if st ≠ .up then (env.upAll site).result else .ok ()) ∧
      (call (up compose env site) s).2.docker = s.docker :=
  call_asked compose env (fun st => st ≠ .up) site _ _ s

theorem refines_of_met {h : Program StackHost Unit} {r : Except String Unit} {s : StackHost}
    (hh : (call h s).1 = r ∧ (call h s).2.docker = s.docker) :
    Refines (fun t : StackHost => t.docker.docker) h (outcome r) s ∧
      Refines StackHost.docker h (onStack (outcome r)) s := by
  obtain ⟨rfl, hdocker⟩ := hh
  rw [Refines, Refines, onStack, call_onPart, call_outcome, hdocker]
  exact ⟨rfl, rfl⟩

theorem restart_refines {t : StackHost} {site : Site} {met : Externals} (beforeState : StackState)
    (hstate : met.currentState site = (call (currentState compose env site) t).1)
    (hup : met.upAll site = (env.upAll site).result) :
    Refines (fun s : StackHost => s.docker.docker) (if beforeState = .up then up compose env site else pure ())
        (if beforeState = .up then DockerStack.up met site else pure ()) t ∧
      Refines StackHost.docker (if beforeState = .up then up compose env site else pure ())
        (if beforeState = .up then onStack (DockerStack.up met site) else pure ()) t := by
  by_cases hbefore : beforeState = .up
  · rw [if_pos hbefore, if_pos hbefore, if_pos hbefore, up_eq, upOutcome, hstate, hup]
    exact refines_of_met (up_met compose env site t)
  · rw [if_neg hbefore, if_neg hbefore, if_neg hbefore]
    exact ⟨rfl, rfl⟩

theorem state_of_asked {site : Site} {s t : StackHost} {st : StackState}
    (h : call (currentState compose env site) s = (.ok st, t)) : t = s := by
  rw [call_currentState] at h
  exact (congrArg Prod.snd h).symm

theorem asked_refines {τ : Type} {part : StackHost → τ} {site : Site} {met : Externals} {s : StackHost}
    (hstate : met.currentState site = (call (currentState compose env site) s).1) :
    Refines part (currentState compose env site) (outcome (met.currentState site)) s := by
  rw [Refines, call_outcome, hstate, call_currentState]

theorem onVolumes_refines {α : Type} (kind : AccessKind) (h : Program RestoreWorld α) (s : StackHost) :
    Refines StackHost.docker (onVolumes compose kind h) h s := rfl

theorem onVolumes_onStack_refines {α : Type} (kind : AccessKind) (h : Program World α) (s : StackHost) :
    Refines (fun t : StackHost => t.docker.docker) (onVolumes compose kind (onStack h)) h s := rfl

theorem projects_onVolumes {α : Type} {kind : AccessKind} {h : Program RestoreWorld α} {s t : StackHost}
    {r : Except String α} (hcall : call (onVolumes compose kind h) s = (r, t)) : t.projects = s.projects :=
  (congrArg (fun c => c.2.projects) hcall).symm

theorem currentState_congr (site : Site) {s t : StackHost} (h : t.projects = s.projects) :
    (call (currentState compose env site) s).1 = (call (currentState compose env site) t).1 := by
  rw [call_currentState, call_currentState, h]

/-- A snapshot on the host is one that meets what the host answers. -/
theorem makeSnapshot_refines (s : StackHost) :
    Refines (fun t : StackHost => t.docker.docker) (makeSnapshot compose utilityImage statefulServices env)
      (DockerStack.makeSnapshot (metBy compose env s) utilityImage statefulServices) s := by
  have hasked := @asked_refines compose env World (fun t => t.docker.docker) .beforeSnapshot
    (metBy compose env s) s rfl
  refine hasked.bind fun beforeState t ht => ?_
  obtain rfl := state_of_asked compose env ht
  rw [stop_eq]
  refine (refines_of_met (stop_met compose env t)).1.bind fun _ u hu => ?_
  have hsaved := onVolumes_onStack_refines compose .read
    (dockerMakeSnapshot (metBy compose env t) utilityImage statefulServices) u
  refine hsaved.catchAndLog.bind fun _ v hv => ?_
  have hstate : (metBy compose env t).currentState .upAfterSnapshot =
      (call (currentState compose env .upAfterSnapshot) v).1 := by
    have hkept : v.projects = (exec (stop compose env) t).projects := by
      rw [exec, hu]
      exact (congrArg (fun c => c.2.projects) hv).symm
    exact currentState_congr compose env .upAfterSnapshot hkept
  exact (restart_refines compose env beforeState hstate rfl).1

theorem restoreSnapshot_refines (entries : List Snapshot) (snapshotName : Option String) (s : StackHost) :
    Refines StackHost.docker (restoreSnapshot compose utilityImage statefulServices env entries snapshotName)
      (DockerRestore.restoreSnapshot { env.docker with stack := metBy compose env s } utilityImage entries
        statefulServices snapshotName) s := by
  refine (Refines.outcome _ s).bind fun _ t ht => ?_
  obtain rfl : s = t := congrArg Prod.snd ht
  refine (Refines.outcome _ s).bind fun _ t ht => ?_
  obtain rfl : s = t := congrArg Prod.snd ht
  have hasked := @asked_refines compose env RestoreWorld StackHost.docker .beforeRebuild (metBy compose env s) s rfl
  refine hasked.bind fun beforeState t ht => ?_
  obtain rfl := state_of_asked compose env ht
  rw [down_eq]
  refine (refines_of_met (down_met compose env t)).2.bind fun _ u hu => ?_
  refine (onVolumes_refines compose .replace _ u).bind fun _ v hv => ?_
  refine (onVolumes_refines compose .replace _ v).bind fun _ w hw => ?_
  refine (onVolumes_refines compose .replace _ w).bind fun _ x hx => ?_
  have hstate : (metBy compose env t).currentState .upAfterRebuild =
      (call (currentState compose env .upAfterRebuild) x).1 := by
    have hkept : x.projects = (exec (down compose env) t).projects := by
      rw [projects_onVolumes compose hx, projects_onVolumes compose hw, projects_onVolumes compose hv, exec, hu]
    exact currentState_congr compose env .upAfterRebuild hkept
  exact (restart_refines compose env beforeState hstate rfl).2

end Refinement

end CardanoGraphql.ComposeHost
