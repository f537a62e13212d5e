import CardanoGraphql.ComposeHost
import CardanoGraphql.Runs
import CardanoGraphql.SnapshotHistory

namespace CardanoGraphql.StackLifecycle

open Fallible ComposeHost
open DockerStack (StackState StatefulService Site postgresService)
open DockerRestore (RestoreWorld Snapshot found)

section Safety

variable {compose : Compose} (env : CommandExternals)

def Idle (compose : Compose) (s : StackHost) : Prop :=
  AllQuiet s ∧ (s.projects compose.projectName).running = 0

def Gone (compose : Compose) (s : StackHost) : Prop :=
  AllQuiet s ∧ s.projects compose.projectName = ⟨0, 0⟩

theorem allQuiet_append {s : StackHost} (h : AllQuiet s) {a : Access} (ha : a.Quiet) (n : Nat) :
    ∀ b ∈ s.accesses ++ List.replicate n a, b.Quiet := by
  intro b hb
  rcases List.mem_append.mp hb with hb | hb
  · exact h b hb
  · exact List.eq_of_mem_replicate hb ▸ ha

theorem up_quiet (site : Site) : Triple AllQuiet (up compose env site) (fun _ => AllQuiet) AllQuiet := by
  apply Triple.bind (currentState_rule compose env site fun s hs => hs)
  intro st
  refine Triple.ite (fun _ => ?_) fun _ => Triple.pure fun s hs => hs.1
  exact composeCommand_rule compose _ (fun s hs => hs.1) fun left s hs => hs.1

variable (hname : compose.observed = compose.projectName)
include hname

theorem stop_idle : Triple AllQuiet (stop compose env) (fun _ => Idle compose) AllQuiet := by
  apply Triple.bind (currentState_rule compose env .stopForSnapshot fun s hs => hs)
  intro st
  refine Triple.ite (fun _ => ?_) fun hst => Triple.pure ?_
  · refine composeCommand_rule compose _ (fun s hs => ⟨hs.1, ?_⟩) fun left s hs => hs.1
    simp [setProject]
  · rintro s ⟨hquiet, hstate⟩
    refine ⟨hquiet, ?_⟩
    have hnot : ¬ 0 < compose.listed (s.projects compose.projectName) := by
      rw [← Compose.stateOf_eq_up_iff, ← hname, ← hstate]
      rintro rfl
      exact hst ⟨nofun, nofun⟩
    have hle := compose.running_le_listed (s.projects compose.projectName)
    omega

theorem down_gone : Triple AllQuiet (down compose env) (fun _ => Gone compose) AllQuiet := by
  apply Triple.bind (currentState_rule compose env .downForRebuild fun s hs => hs)
  intro st
  refine Triple.ite (fun _ => ?_) fun hst => Triple.pure ?_
  · refine composeCommand_rule compose _ (fun s hs => ⟨hs.1, ?_⟩) fun left s hs => hs.1
    simp [setProject]
  · rintro s ⟨hquiet, hstate⟩
    have hdown := (compose.stateOf_eq_down_iff _).mp (hstate.symm.trans (not_not.mp hst))
    rw [hname] at hdown
    refine ⟨hquiet, ?_⟩
    rcases hc : s.projects compose.projectName with ⟨running, exited⟩
    rw [hc] at hdown
    simp_all

omit hname in
theorem read_idle {α : Type} (h : Program RestoreWorld α) :
    Triple (Idle compose) (onVolumes compose .read h) (fun _ => Idle compose) (Idle compose) := by
  refine onVolumes_rule compose h (fun s hs docker n => ⟨?_, hs.2⟩) fun s hs => hs
  exact allQuiet_append hs.1 ⟨hs.2, fun h => by cases h⟩ n

omit hname in
theorem replace_gone {α : Type} (h : Program RestoreWorld α) :
    Triple (Gone compose) (onVolumes compose .replace h) (fun _ => Gone compose) (Gone compose) := by
  refine onVolumes_rule compose h (fun s hs docker n => ⟨?_, hs.2⟩) fun s hs => hs
  have hnone : (s.projects compose.projectName).running = 0 ∧ (s.projects compose.projectName).exited = 0 := by
    rw [hs.2]
    exact ⟨rfl, rfl⟩
  exact allQuiet_append hs.1 ⟨hnone.1, fun _ => hnone.2⟩ n

omit hname in
theorem restart_quiet {P : StackHost → Prop} (hp : ∀ s, P s → AllQuiet s) (beforeState : StackState)
    (site : Site) :
    Triple P (if beforeState = .up then up compose env site else pure ()) (fun _ => AllQuiet) AllQuiet := by
  apply Triple.ite
  · intro _
    exact (up_quiet env site).consequence hp (fun _ s hs => hs) fun s hs => hs
  · exact fun _ => Triple.pure hp

theorem quiet_rules : StepRules compose env AllQuiet (Idle compose) (Gone compose) AllQuiet (fun _ => True)
    fun _ => AllQuiet where
  asked site := (currentState_rule compose env site fun _ hs => hs).consequence (fun _ hs => hs)
    (fun _ _ hs => ⟨hs.1, trivial⟩) fun _ hs => hs
  stopped := stop_idle env hname
  takenDown := down_gone env hname
  saved h := read_idle h
  replaced h := replace_gone h
  afterSnapshot st _ := restart_quiet env (fun _ hs => hs.1) st .upAfterSnapshot
  afterRebuild st _ _ _ := restart_quiet env (fun _ hs => hs.1) st .upAfterRebuild
  before_throws _ hs := hs
  removed_throws _ hs := hs.1
  again _ hs := hs

end Safety

section Restart

variable {compose : Compose} (env : CommandExternals)

def SeenUp (compose : Compose) (s : StackHost) : Prop :=
  AllQuiet s ∧ compose.stateOf (s.projects compose.projectName) = .up

def Halted (compose : Compose) (s : StackHost) : Prop :=
  AllQuiet s ∧ ∃ n, 0 < n ∧ s.projects compose.projectName = ⟨0, n⟩

def Restarted (compose : Compose) (command : Command) (s : StackHost) : Prop :=
  SeenUp compose s ∧ (0 < (s.projects compose.projectName).running ↔
    (compose.listsExited = true → command.isMakeSnapshot = false))

theorem read_halted {α : Type} (h : Program RestoreWorld α) :
    Triple (Halted compose) (onVolumes compose .read h) (fun _ => Halted compose) (Halted compose) := by
  refine onVolumes_rule compose h (fun s hs docker n => ⟨?_, hs.2⟩) fun s hs => hs
  obtain ⟨hquiet, m, -, hprojects⟩ := hs
  exact allQuiet_append hquiet ⟨by rw [hprojects], fun h => by cases h⟩ n

theorem started {compose : Compose} {s : StackHost} (hs : AllQuiet s) :
    SeenUp compose (setProject compose ⟨compose.services, 0⟩ s) ∧
      0 < ((setProject compose ⟨compose.services, 0⟩ s).projects compose.projectName).running := by
  have hproject : (setProject compose ⟨compose.services, 0⟩ s).projects compose.projectName =
      ⟨compose.services, 0⟩ := Function.update_self _ _ _
  rw [SeenUp, hproject]
  exact ⟨⟨hs, compose.stateOf_started⟩, compose.services_pos⟩

variable (hname : compose.observed = compose.projectName)
include hname

theorem asked_up (site : Site) : Triple (SeenUp compose) (currentState compose env site)
    (fun st s => SeenUp compose s ∧ st = .up) fun _ => True := by
  apply (currentState_rule compose env site fun s hs => hs).consequence (fun s hs => hs) _ fun s _ => trivial
  rintro st s ⟨hs, hst⟩
  rw [hname] at hst
  exact ⟨hs, hst.trans hs.2⟩

theorem stop_halted : Triple (SeenUp compose) (stop compose env) (fun _ => Halted compose) fun _ => True := by
  apply Triple.bind (asked_up env hname .stopForSnapshot)
  intro st
  apply Triple.of_fact
  rintro rfl
  rw [if_pos ⟨nofun, nofun⟩]
  refine composeCommand_rule compose _ (fun s hs => ⟨hs.1, _, ?_, Function.update_self _ _ _⟩)
    fun left s hs => trivial
  have hlisted := (compose.stateOf_eq_up_iff _).mp hs.2
  exact hlisted.trans_le (compose.listed_le _)

theorem up_halted (site : Site) : Triple (Halted compose) (up compose env site)
    (fun _ => Restarted compose .makeSnapshot) fun _ => True := by
  apply Triple.bind (currentState_rule compose env site fun s hs => trivial)
  intro st
  apply Triple.ite
  · intro hst
    refine composeCommand_rule compose _ (fun s hs => ?_) fun left s hs => trivial
    obtain ⟨⟨hquiet, n, hn, hprojects⟩, hstate⟩ := hs
    obtain ⟨hseen, hrunning⟩ := @started compose s hquiet
    have hlists : ¬ compose.listsExited = true := by
      rw [← compose.stateOf_exited hn, ← hprojects, ← hname, ← hstate]
      exact hst
    exact ⟨hseen, iff_of_true hrunning fun h => absurd h hlists⟩
  · intro hst
    refine Triple.pure fun s hs => ?_
    obtain ⟨⟨hquiet, n, hn, hprojects⟩, hstate⟩ := hs
    rw [not_not.mp hst, hname, hprojects] at hstate
    have hlists := (compose.stateOf_exited hn).mp hstate.symm
    rw [Restarted, SeenUp, hprojects]
    exact ⟨⟨hquiet, hstate.symm⟩, iff_of_false (Nat.lt_irrefl 0) fun h => by cases h hlists⟩

theorem up_gone (site : Site) (command : Command) (hcommand : command.isMakeSnapshot = false) :
    Triple (Gone compose) (up compose env site) (fun _ => Restarted compose command) fun _ => True := by
  apply Triple.bind (currentState_rule compose env site fun s hs => trivial)
  intro st
  apply Triple.ite
  · intro _
    refine composeCommand_rule compose _ (fun s hs => ?_) fun left s hs => trivial
    obtain ⟨hseen, hrunning⟩ := @started compose s hs.1.1
    exact ⟨hseen, iff_of_true hrunning fun _ => hcommand⟩
  · intro hst
    refine Triple.pure fun s hs => ?_
    have hdown : compose.stateOf ⟨0, 0⟩ = .down := (compose.stateOf_eq_down_iff _).mpr ⟨rfl, rfl⟩
    have hstate := hs.2
    rw [not_not.mp hst, hname, hs.1.2, hdown] at hstate
    cases hstate

theorem restart_rules : StepRules compose env (SeenUp compose) (Halted compose) (Gone compose) (fun _ => True)
    (fun st => st = .up) (Restarted compose) where
  asked site := asked_up env hname site
  stopped := stop_halted env hname
  takenDown := (down_gone env hname).consequence (fun _ hs => hs.1) (fun _ _ hs => hs) fun _ _ => trivial
  saved h := read_halted h
  replaced h := replace_gone h
  afterSnapshot st hst := by
    rw [if_pos hst]
    exact up_halted env hname .upAfterSnapshot
  afterRebuild st command hst hcommand := by
    rw [if_pos hst]
    exact up_gone env hname .upAfterRebuild command hcommand
  before_throws _ _ := trivial
  removed_throws _ _ := trivial
  again _ hs := hs.1

end Restart

section Elsewhere

variable {compose : Compose} (env : CommandExternals)

def Elsewhere (compose : Compose) (other : Containers) (s : StackHost) : Prop :=
  s.projects compose.observed = other ∧
    ((s.projects compose.projectName).running = 0 ∨ ∀ a ∈ s.accesses, 0 < a.containers.running)

variable {other : Containers}

theorem volumes_elsewhere {α : Type} (kind : AccessKind) (h : Program RestoreWorld α) :
    Triple (Elsewhere compose other) (onVolumes compose kind h) (fun _ => Elsewhere compose other)
      (Elsewhere compose other) := by
  refine onVolumes_rule compose h (fun s hs docker n => ⟨hs.1, ?_⟩) fun s hs => hs
  rcases Nat.eq_zero_or_pos (s.projects compose.projectName).running with hidle | hruns
  · exact Or.inl hidle
  · refine Or.inr fun a ha => ?_
    rcases List.mem_append.mp ha with ha | ha
    · exact hs.2.resolve_left (Nat.ne_of_gt hruns) a ha
    · rw [List.eq_of_mem_replicate ha]
      exact hruns

theorem asked_elsewhere (site : Site) : Triple (Elsewhere compose other) (currentState compose env site)
    (fun st s => Elsewhere compose other s ∧ st = compose.stateOf other) fun _ => True := by
  apply (currentState_rule compose env site fun s hs => hs).consequence (fun s hs => hs) _ fun s _ => trivial
  rintro st s ⟨hs, hst⟩
  exact ⟨hs, hs.1 ▸ hst⟩

theorem restart_elsewhere (site : Site) : Triple (Elsewhere compose other)
    (if compose.stateOf other = .up then up compose env site else pure ())
    (fun _ => Elsewhere compose other) fun _ => True := by
  apply Triple.ite
  · intro hup
    apply Triple.bind (asked_elsewhere env site)
    intro st
    apply Triple.of_fact
    rintro rfl
    rw [if_neg (not_not.mpr hup)]
    exact Triple.pure fun s hs => hs
  · exact fun _ => Triple.pure fun s hs => hs

variable (hname : compose.observed ≠ compose.projectName)
include hname

theorem halt_elsewhere {done : Containers → Containers} (hdone : ∀ c, (done c).running = 0)
    (result : ComposeOutcome) : Triple (Elsewhere compose other) (composeCommand compose result done)
      (fun _ => Elsewhere compose other) fun _ => True := by
  refine composeCommand_rule compose _ (fun s hs => ⟨?_, Or.inl ?_⟩) fun left s hs => trivial
  · exact (Function.update_of_ne hname _ _).trans hs.1
  · rw [setProject]
    simp [hdone]

theorem stop_elsewhere : Triple (Elsewhere compose other) (stop compose env)
    (fun _ => Elsewhere compose other) fun _ => True := by
  apply Triple.bind (asked_elsewhere env .stopForSnapshot)
  intro st
  apply Triple.of_fact
  intro _
  apply Triple.ite
  · exact fun _ => halt_elsewhere hname (fun c => rfl) env.stopAll
  · exact fun _ => Triple.pure fun s hs => hs

theorem down_elsewhere : Triple (Elsewhere compose other) (down compose env)
    (fun _ => Elsewhere compose other) fun _ => True := by
  apply Triple.bind (asked_elsewhere env .downForRebuild)
  intro st
  apply Triple.of_fact
  intro _
  apply Triple.ite
  · exact fun _ => halt_elsewhere hname (fun c => rfl) env.downAll
  · exact fun _ => Triple.pure fun s hs => hs

theorem elsewhere_rules : StepRules compose env (Elsewhere compose other) (Elsewhere compose other)
    (Elsewhere compose other) (fun _ => True) (fun st => st = compose.stateOf other)
    fun _ => Elsewhere compose other where
  asked site := asked_elsewhere env site
  stopped := stop_elsewhere env hname
  takenDown := down_elsewhere env hname
  saved h := volumes_elsewhere .read h
  replaced h := volumes_elsewhere .replace h
  afterSnapshot _ hst := hst ▸ restart_elsewhere env .upAfterSnapshot
  afterRebuild _ _ hst _ := hst ▸ restart_elsewhere env .upAfterRebuild
  before_throws _ _ := trivial
  removed_throws _ _ := trivial
  again _ hs := hs

end Elsewhere

/-- A command of the CLI, which may end with an error, or anything else that is done to
containers on the host. -/
inductive Event
  | command (env : CommandExternals) (command : Command)
  | outside (projects : String → Containers)

section History

variable (compose : Compose) (utilityImage : String) (statefulServices : List StatefulService)

def afterEvent (s : StackHost) : Event → StackHost
  | .command env command => exec (perform compose utilityImage statefulServices env command) s
  | .outside projects => { s with projects := projects }

/-- However the commands end, no volume is touched while containers use it. -/
theorem volumes_touched_quietly (hname : compose.observed = compose.projectName) {s : StackHost}
    (hs : s.accesses = []) (events : List Event) :
    AllQuiet (events.foldl (afterEvent compose utilityImage statefulServices) s) := by
  have hstart : AllQuiet s := by
    rw [AllQuiet, hs]
    exact fun a ha => absurd ha List.not_mem_nil
  clear hs
  induction events generalizing s with
  | nil => exact hstart
  | cons event events ih =>
      apply ih
      cases event with
      | command env command =>
          exact ((quiet_rules env hname).perform utilityImage statefulServices command).exec hstart
      | outside projects => exact hstart

def finished (s : StackHost) (c : CommandExternals × Command) : Option StackHost :=
  match call (perform compose utilityImage statefulServices c.1 c.2) s with
  | (.ok _, t) => some t
  | (.error _, _) => none

end History

def succeedingCommand : CommandExternals :=
  { ps := fun _ => .ok ()
    psAll := fun _ => .ok ()
    upAll := fun _ => .succeeds
    stopAll := .succeeds
    downAll := .succeeds
    docker := { SnapshotHistory.succeeding with stack := SnapshotHistory.finished.env } }

def cloned : Compose :=
  { projectName := "cardano-graphql"
    observed := "cardano-graphql"
    listsExited := false
    services := 5
    services_pos := Nat.succ_pos 4 }

def runningHost : StackHost :=
  { projects := fun name => if name = "cardano-graphql" then ⟨5, 0⟩ else ⟨0, 0⟩
    docker := found SnapshotHistory.databaseVolume none
    accesses := [] }

def troubledEvents : List Event :=
  [.command { succeedingCommand with stopAll := .fails "timeout" ⟨2, 3⟩ } .makeSnapshot,
    .command { succeedingCommand with upAll := fun _ => .fails "port is already allocated" ⟨1, 4⟩ } .makeSnapshot,
    .outside fun _ => ⟨4, 1⟩,
    .command succeedingCommand (.rebuildService [postgresService "cg"] false)]

theorem troubled_quiet :
    (troubledEvents.foldl (afterEvent cloned "alpine:3.12.0" [postgresService "cg"]) runningHost).accesses =
        [⟨.read, ⟨0, 5⟩⟩, ⟨.replace, ⟨0, 0⟩⟩] ∧
      AllQuiet (troubledEvents.foldl (afterEvent cloned "alpine:3.12.0" [postgresService "cg"]) runningHost) :=
  ⟨by decide +kernel,
    volumes_touched_quietly cloned "alpine:3.12.0" [postgresService "cg"] rfl rfl troubledEvents⟩

section Runs

variable {compose : Compose} {utilityImage : String} {statefulServices : List StatefulService}

theorem Triple.finished {P Q E : StackHost → Prop} {s t : StackHost} {c : CommandExternals × Command}
    (h : Triple P (perform compose utilityImage statefulServices c.1 c.2) (fun _ => Q) E) (hs : P s)
    (ht : finished compose utilityImage statefulServices s c = some t) : Q t := by
  rw [StackLifecycle.finished] at ht
  rcases hcall : call (perform compose utilityImage statefulServices c.1 c.2) s with ⟨r, u⟩
  rw [hcall] at ht
  cases r with
  | error e => cases ht
  | ok a => exact h.ends s hs a t (by rw [hcall, Option.some.inj ht])

/-- The last command of the run is no `makeSnapshot`, unless exited containers are not listed. -/
def LeavesRunning (compose : Compose) (commands : List (CommandExternals × Command)) : Prop :=
  compose.listsExited = true → ∀ c ∈ commands.getLast?, c.2.isMakeSnapshot = false

theorem run_restarts (hname : compose.observed = compose.projectName) {s t : StackHost}
    {commands : List (CommandExternals × Command)} (hs : AllQuiet s)
    (hruns : 0 < (s.projects compose.projectName).running)
    (hrun : Runs.run (finished compose utilityImage statefulServices) s commands = some t) :
    SeenUp compose t ∧ (0 < (t.projects compose.projectName).running ↔ LeavesRunning compose commands) := by
  induction commands using List.reverseRecOn generalizing t with
  | nil =>
      obtain rfl : s = t := Option.some.inj hrun
      have hup := (compose.stateOf_eq_up_iff _).mpr (hruns.trans_le (compose.running_le_listed _))
      exact ⟨⟨hs, hup⟩, iff_of_true hruns fun _ c hc => by cases hc⟩
  | append_singleton commands c ih =>
      rw [Runs.run_concat] at hrun
      obtain ⟨u, hu, hut⟩ := Option.bind_eq_some_iff.mp hrun
      obtain ⟨hseen, hrunning⟩ :=
        Triple.finished ((restart_rules c.1 hname).perform utilityImage statefulServices c.2) (ih hu).1 hut
      refine ⟨hseen, hrunning.trans ?_⟩
      rw [LeavesRunning, List.getLast?_concat]
      simp

theorem run_elsewhere (hname : compose.observed ≠ compose.projectName) {s t : StackHost} {other : Containers}
    {commands : List (CommandExternals × Command)} (hs : Elsewhere compose other s)
    (hrun : Runs.run (finished compose utilityImage statefulServices) s commands = some t) :
    Elsewhere compose other t := by
  induction commands generalizing s with
  | nil => exact Option.some.inj hrun ▸ hs
  | cons c commands ih =>
      obtain ⟨u, hu, hut⟩ := Option.bind_eq_some_iff.mp hrun
      exact ih (Triple.finished ((elsewhere_rules c.1 hname).perform utilityImage statefulServices c.2) hs hu) hut

/-- Commands that end normally keep a running stack running, and away from its volumes,
exactly where `ps` lists the stack itself and does not keep it from being started. -/
theorem kept_running_iff {s t : StackHost} {commands : List (CommandExternals × Command)}
    (hs : s.accesses = []) (hruns : 0 < (s.projects compose.projectName).running)
    (hrun : Runs.run (finished compose utilityImage statefulServices) s commands = some t)
    (htouched : t.accesses ≠ []) :
    (AllQuiet t ∧ 0 < (t.projects compose.projectName).running) ↔
      compose.observed = compose.projectName ∧ LeavesRunning compose commands := by
  by_cases hname : compose.observed = compose.projectName
  · have hquiet : AllQuiet s := by
      rw [AllQuiet, hs]
      exact fun a ha => absurd ha List.not_mem_nil
    obtain ⟨hseen, hrunning⟩ := run_restarts hname hquiet hruns hrun
    rw [← hrunning]
    exact ⟨fun h => ⟨hname, h.2⟩, fun h => ⟨hseen.1, h.2⟩⟩
  · refine iff_of_false ?_ fun h => hname h.1
    rintro ⟨hquiet, hrunning⟩
    have hstart : Elsewhere compose (s.projects compose.observed) s := by
      refine ⟨rfl, Or.inr ?_⟩
      rw [hs]
      exact fun a ha => absurd ha List.not_mem_nil
    obtain ⟨a, ha⟩ := List.exists_mem_of_ne_nil _ htouched
    have hnoisy := (run_elsewhere hname hstart hrun).2.resolve_left (Nat.ne_of_gt hrunning) a ha
    exact Nat.ne_of_gt hnoisy (hquiet a ha).1

end Runs

def moved : Compose := { cloned with observed := "cgql" }

theorem moved_not_kept : ∃ t,
    Runs.run (finished moved "alpine:3.12.0" [postgresService "cg"]) runningHost
        [(succeedingCommand, .makeSnapshot)] = some t ∧
      t.accesses = [⟨.read, ⟨5, 0⟩⟩] ∧
      ((AllQuiet t ∧ 0 < (t.projects moved.projectName).running) ↔
        moved.observed = moved.projectName ∧ LeavesRunning moved [(succeedingCommand, .makeSnapshot)]) := by
  have haccesses : (Runs.run (finished moved "alpine:3.12.0" [postgresService "cg"]) runningHost
      [(succeedingCommand, .makeSnapshot)]).map StackHost.accesses = some [⟨.read, ⟨5, 0⟩⟩] := by
    decide +kernel
  obtain ⟨t, hrun, ht⟩ := Option.map_eq_some_iff.mp haccesses
  exact ⟨t, hrun, ht, kept_running_iff rfl (by decide) hrun (by rw [ht]; exact List.cons_ne_nil _ _)⟩

end CardanoGraphql.StackLifecycle
