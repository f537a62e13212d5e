import CardanoGraphql.Fallible

namespace CardanoGraphql.DockerStack

open Fallible

inductive StackState
  | up
  | down
  | stopped
deriving DecidableEq, Repr

structure StatefulService where
  name : String
  dataPath : String
  volumes : List String
deriving DecidableEq, Repr

structure ImageInfo where
  id : String
  repoTags : Option (List String)
deriving DecidableEq, Repr

inductive Site
  | beforeSnapshot
  | stopForSnapshot
  | upAfterSnapshot
  | beforeRebuild
  | downForRebuild
  | upAfterRebuild
deriving DecidableEq, Repr

/-- What the steps of one call meet outside the program. A run of a container has an exit
status, and it fails only where the container cannot be run. -/
structure Externals where
  currentState : Site → Except String StackState
  upAll : Site → Except String Unit
  stopAll : Except String Unit
  downAll : Except String Unit
  initSnapshot : Except String String
  listImages : Except String (List ImageInfo)
  pull : Except String Unit
  listImagesAfterPull : Except String (List ImageInfo)
  setManagedImages : Except String Unit
  run : Nat → Except String Nat
  removeVolume : Nat → Except String Unit

structure World where
  tars : List (String × Nat)
  removed : List String
  managedImages : Option (List String)
deriving DecidableEq, Repr

variable (env : Externals) (utilityImage : String)

def getImage (images : List ImageInfo) (name : String) : Option ImageInfo :=
  images.find? fun image => decide (name ∈ image.repoTags.getD [])

def ensureUtilityImageAvailable : Program World Unit := do
  let images ← outcome env.listImages
  if (getImage images utilityImage).isNone then
    outcome env.pull
    match getImage (← outcome env.listImagesAfterPull) utilityImage with
    | none => throw "Cannot read properties of undefined (reading 'Id')"
    | some image =>
      outcome env.setManagedImages
      modify fun s => { s with managedImages := some [image.id] }

/-- The status that `docker.run` resolves with is not looked at. -/
def tarVolume (volume : String) : Program World Unit := do
  let s ← get
  let status ← outcome (env.run s.tars.length)
  modify fun s => { s with tars := s.tars ++ [(volume, status)] }

def dockerMakeSnapshot (services : List StatefulService) : Program World Unit := do
  let _ ← outcome env.initSnapshot
  ensureUtilityImageAvailable env utilityImage
  forM services fun service => forM service.volumes (tarVolume env)

def up (site : Site) : Program World Unit := do
  if (← outcome (env.currentState site)) ≠ .up then
    outcome (env.upAll site)

def stop : Program World Unit := do
  let currentState ← outcome (env.currentState .stopForSnapshot)
  if currentState ≠ .stopped ∧ currentState ≠ .down then
    outcome env.stopAll

def down : Program World Unit := do
  if (← outcome (env.currentState .downForRebuild)) ≠ .down then
    outcome env.downAll

/-- The `finally` block runs after the error has been logged. -/
def makeSnapshot (statefulServices : List StatefulService) : Program World Unit := do
  let beforeState ← outcome (env.currentState .beforeSnapshot)
  stop env
  catchAndLog (dockerMakeSnapshot env utilityImage statefulServices)
  if beforeState = .up then
    up env .upAfterSnapshot

def removeVolume (volume : String) : Program World Unit := do
  let s ← get
  outcome (env.removeVolume s.removed.length)
  modify fun s => { s with removed := s.removed ++ [volume] }

def removeServiceVolumes (services : List StatefulService) : Program World Unit :=
  catchAndLog (forM services fun service => forM service.volumes (removeVolume env))

def rebuildService (statefulServices services : List StatefulService) (backup : Bool) :
    Program World Unit := do
  if backup then
    makeSnapshot env utilityImage statefulServices
  let beforeState ← outcome (env.currentState .beforeRebuild)
  down env
  catchAndLog (removeServiceVolumes env services)
  if beforeState = .up then
    up env .upAfterRebuild

def fresh (managedImages : Option (List String)) : World :=
  { tars := [], removed := [], managedImages := managedImages }

def volumesOf (services : List StatefulService) : List String :=
  services.flatMap StatefulService.volumes

theorem forM_volumesOf {σ : Type} (services : List StatefulService) (f : String → Program σ PUnit) :
    (forM services fun service => forM service.volumes f) = forM (volumesOf services) f := by
  rw [volumesOf, forM_flatMap]

/-- Where something is removed, a snapshot was made with a tar of every volume of the
stack, those removed among them. -/
def BackedUp (statefulServices : List StatefulService) (s : World) : Prop :=
  s.removed ≠ [] → s.tars = (volumesOf statefulServices).map (fun volume => (volume, 0)) ∧
    ∀ volume ∈ s.removed, (volume, 0) ∈ s.tars

def stopOutcome : Except String Unit :=
  env.currentState .stopForSnapshot >>= fun st => if st ≠ .stopped ∧ st ≠ .down then env.stopAll else .ok ()

def upOutcome (site : Site) : Except String Unit :=
  env.currentState site >>= fun st => if st ≠ .up then env.upAll site else .ok ()

def downOutcome : Except String Unit :=
  env.currentState .downForRebuild >>= fun st => if st ≠ .down then env.downAll else .ok ()

structure PassesBackup : Prop where
  asked : ∃ st, env.currentState .beforeSnapshot = .ok st
  stopped : stopOutcome env = .ok ()
  restarted : env.currentState .beforeSnapshot = .ok .up → upOutcome env .upAfterSnapshot = .ok ()

structure PassesDown : Prop where
  asked : ∃ st, env.currentState .beforeRebuild = .ok st
  takenDown : downOutcome env = .ok ()

structure ReachesRemoval : Prop where
  backup : PassesBackup env
  down : PassesDown env

def ImageAvailable : Prop :=
  ∃ images, env.listImages = .ok images ∧
    ((getImage images utilityImage).isSome = true ∨
      (env.pull = .ok () ∧ env.setManagedImages = .ok () ∧
        ∃ pulled, env.listImagesAfterPull = .ok pulled ∧ (getImage pulled utilityImage).isSome = true))

structure SnapshotSucceeds (statefulServices : List StatefulService) : Prop where
  directory : ∃ path, env.initSnapshot = .ok path
  image : ImageAvailable env utilityImage
  tarred : ∀ i < (volumesOf statefulServices).length, env.run i = .ok 0

def removedBy (remove : Nat → Except String Unit) : Nat → List String → List String
  | _, [] => []
  | n, volume :: volumes =>
      match remove n with
      | .ok _ => volume :: removedBy remove (n + 1) volumes
      | .error _ => []

def tarsBy (run : Nat → Except String Nat) : Nat → List String → List (String × Nat)
  | _, [] => []
  | n, volume :: volumes =>
      match run n with
      | .ok status => (volume, status) :: tarsBy run (n + 1) volumes
      | .error _ => []

theorem stop_eq : stop env = outcome (stopOutcome env) := by
  simp only [stop, stopOutcome, outcome_ite, outcome_bind]

theorem up_eq (site : Site) : up env site = outcome (upOutcome env site) := by
  simp only [up, upOutcome, outcome_ite, outcome_bind]

theorem down_eq : down env = outcome (downOutcome env) := by
  simp only [down, downOutcome, outcome_ite, outcome_bind]

theorem exec_tarVolumes (volumes : List String) (s : World) :
    exec (forM volumes (tarVolume env)) s =
      { s with tars := s.tars ++ tarsBy env.run s.tars.length volumes } := by
  induction volumes generalizing s with
  | nil => simp [exec, tarsBy]
  | cons volume volumes ih =>
      rw [exec, call_forM_cons, tarsBy]
      simp only [tarVolume, call_bind, call_get, call_outcome]
      cases hr : env.run s.tars.length with
      | error e => simp
      | ok status =>
          have hrest := ih { s with tars := s.tars ++ [(volume, status)] }
          rw [exec] at hrest
          simpa [tarVolume] using hrest

theorem exec_removeVolumes (volumes : List String) (s : World) :
    exec (forM volumes (removeVolume env)) s =
      { s with removed := s.removed ++ removedBy env.removeVolume s.removed.length volumes } := by
  induction volumes generalizing s with
  | nil => simp [exec, removedBy]
  | cons volume volumes ih =>
      rw [exec, call_forM_cons, removedBy]
      simp only [removeVolume, call_bind, call_get, call_outcome]
      cases hr : env.removeVolume s.removed.length with
      | error e => simp
      | ok done =>
          have hrest := ih { s with removed := s.removed ++ [volume] }
          rw [exec] at hrest
          simpa [removeVolume] using hrest

theorem call_ensureUtilityImageAvailable (s : World) :
    ∃ r images, call (ensureUtilityImageAvailable env utilityImage) s = (r, { s with managedImages := images }) ∧
      (r = .ok () ↔ ImageAvailable env utilityImage) := by
  rw [ensureUtilityImageAvailable, call_bind, call_outcome, ImageAvailable]
  cases hlist : env.listImages with
  | error e => exact ⟨.error e, s.managedImages, rfl, by simp⟩
  | ok images =>
      cases hhas : getImage images utilityImage with
      | some image => exact ⟨.ok (), s.managedImages, by simp [hhas], by simp [hhas]⟩
      | none =>
          cases hpull : env.pull with
          | error e => exact ⟨.error e, s.managedImages, by simp [hhas], by simp [hhas]⟩
          | ok u =>
              cases hagain : env.listImagesAfterPull with
              | error e => exact ⟨.error e, s.managedImages, by simp [hhas], by simp [hhas]⟩
              | ok pulled =>
                  cases hgot : getImage pulled utilityImage with
                  | none => exact ⟨_, s.managedImages, by simp [hhas, hgot]; rfl, by simp [hhas, hgot]⟩
                  | some image =>
                      cases hset : env.setManagedImages with
                      | error e => exact ⟨.error e, s.managedImages, by simp [hhas, hgot], by simp [hhas]⟩
                      | ok v => exact ⟨.ok (), some [image.id], by simp [hhas, hgot], by simp [hgot]⟩

theorem exec_dockerMakeSnapshot (services : List StatefulService) (managed : Option (List String)) :
    ∃ tars images, exec (dockerMakeSnapshot env utilityImage services) (fresh managed) =
        { tars := tars, removed := [], managedImages := images } ∧
      ((∃ path, env.initSnapshot = .ok path) → ImageAvailable env utilityImage →
        tars = tarsBy env.run 0 (volumesOf services)) ∧
      (tars ≠ [] → (∃ path, env.initSnapshot = .ok path) ∧ ImageAvailable env utilityImage ∧
        tars = tarsBy env.run 0 (volumesOf services)) := by
  rw [exec, dockerMakeSnapshot, call_bind, call_outcome]
  cases hinit : env.initSnapshot with
  | error e =>
      refine ⟨[], managed, rfl, ?_, fun h => absurd rfl h⟩
      rintro ⟨path, hpath⟩
      cases hpath
  | ok path =>
      obtain ⟨r, images, hcall, hr⟩ := call_ensureUtilityImageAvailable env utilityImage (fresh managed)
      simp only [call_bind, hcall]
      cases r with
      | error e =>
          refine ⟨[], images, rfl, fun _ himage => ?_, fun h => absurd rfl h⟩
          exact absurd (hr.mpr himage) (error_ne_ok _ _)
      | ok u =>
          have hloop := exec_tarVolumes env (volumesOf services) { fresh managed with managedImages := images }
          rw [exec, ← forM_volumesOf] at hloop
          exact ⟨_, images, hloop, fun _ _ => rfl, fun _ => ⟨⟨path, rfl⟩, hr.mp rfl, rfl⟩⟩

theorem tarsBy_complete_iff (run : Nat → Except String Nat) (n : Nat) (volumes : List String) :
    tarsBy run n volumes = volumes.map (fun volume => (volume, 0)) ↔
      ∀ i < volumes.length, run (n + i) = .ok 0 := by
  induction volumes generalizing n with
  | nil => simp [tarsBy]
  | cons volume volumes ih =>
      rw [tarsBy, List.map_cons]
      cases hr : run n with
      | error e =>
          constructor
          · intro h
            cases h
          · intro h
            have hfirst := h 0 (Nat.succ_pos _)
            rw [Nat.add_zero, hr] at hfirst
            cases hfirst
      | ok status =>
          simp only [List.cons.injEq, Prod.mk.injEq, true_and, ih, List.length_cons]
          constructor
          · rintro ⟨rfl, hrest⟩ i hi
            cases i with
            | zero => exact hr
            | succ i =>
                rw [← Nat.add_assoc, Nat.add_right_comm]
                exact hrest i (by omega)
          · intro h
            have hfirst := h 0 (Nat.succ_pos _)
            rw [Nat.add_zero, hr] at hfirst
            refine ⟨Except.ok.inj hfirst, fun i hi => ?_⟩
            have := h (i + 1) (by omega)
            rwa [← Nat.add_assoc, Nat.add_right_comm] at this

theorem mem_tarsBy (run : Nat → Except String Nat) (n : Nat) (volumes : List String) (volume : String) :
    volume ∈ (tarsBy run n volumes).map Prod.fst ↔
      ∃ i, volumes[i]? = some volume ∧ ∀ j ≤ i, ∃ status, run (n + j) = .ok status := by
  induction volumes generalizing n with
  | nil => simp [tarsBy]
  | cons first volumes ih =>
      rw [tarsBy]
      cases hr : run n with
      | error e =>
          refine iff_of_false List.not_mem_nil ?_
          rintro ⟨i, -, hrun⟩
          obtain ⟨status, hfirst⟩ := hrun 0 (Nat.zero_le i)
          rw [Nat.add_zero, hr] at hfirst
          cases hfirst
      | ok status =>
          rw [List.map_cons, List.mem_cons, ih]
          constructor
          · rintro (rfl | ⟨i, hi, hrun⟩)
            · refine ⟨0, rfl, fun j hj => ⟨status, ?_⟩⟩
              rw [Nat.le_zero.mp hj, Nat.add_zero, hr]
            · refine ⟨i + 1, hi, fun j hj => ?_⟩
              cases j with
              | zero => exact ⟨status, hr⟩
              | succ j =>
                  rw [← Nat.add_assoc, Nat.add_right_comm]
                  exact hrun j (by omega)
          · rintro ⟨i, hi, hrun⟩
            cases i with
            | zero => exact Or.inl (Option.some.inj hi).symm
            | succ i =>
                refine Or.inr ⟨i, hi, fun j hj => ?_⟩
                rw [Nat.add_right_comm, Nat.add_assoc]
                exact hrun (j + 1) (by omega)

theorem exec_removeServiceVolumes (services : List StatefulService) (s : World) :
    exec (catchAndLog (removeServiceVolumes env services)) s =
      { s with removed := s.removed ++ removedBy env.removeVolume s.removed.length (volumesOf services) } := by
  rw [← exec_removeVolumes, ← forM_volumesOf]
  rfl

def removeAndRestart (services : List StatefulService) : Program World Unit := do
  let beforeState ← outcome (env.currentState .beforeRebuild)
  down env
  catchAndLog (removeServiceVolumes env services)
  if beforeState = .up then
    up env .upAfterRebuild

theorem exec_removeAndRestart (services : List StatefulService) (s : World) :
    (PassesDown env ∧ exec (removeAndRestart env services) s =
      exec (catchAndLog (removeServiceVolumes env services)) s) ∨
    (¬ PassesDown env ∧ exec (removeAndRestart env services) s = s) := by
  rw [exec, removeAndRestart, down_eq, up_eq, call_bind, call_outcome]
  cases hasked : env.currentState .beforeRebuild with
  | error e =>
      refine Or.inr ⟨fun h => ?_, rfl⟩
      obtain ⟨st, hst⟩ := h.asked
      exact absurd (hasked.symm.trans hst) (error_ne_ok _ _)
  | ok st =>
      simp only [call_bind, call_outcome]
      cases hdown : downOutcome env with
      | error e => exact Or.inr ⟨fun h => absurd (hdown.symm.trans h.takenDown) (error_ne_ok _ _), rfl⟩
      | ok u =>
          refine Or.inl ⟨⟨⟨st, hasked⟩, hdown⟩, ?_⟩
          by_cases hup : st = .up
          · simp only [if_pos hup, call_outcome, call_catchAndLog]
            rfl
          · simp only [if_neg hup, call_pure, call_catchAndLog]
            rfl

theorem call_makeSnapshot (statefulServices : List StatefulService) (managed : Option (List String)) :
    (PassesBackup env ∧ call (makeSnapshot env utilityImage statefulServices) (fresh managed) =
      (.ok (), exec (dockerMakeSnapshot env utilityImage statefulServices) (fresh managed))) ∨
    (¬ PassesBackup env ∧ ∃ e t,
      call (makeSnapshot env utilityImage statefulServices) (fresh managed) = (.error e, t) ∧
        t.removed = []) := by
  obtain ⟨tars, images, hsnap, -⟩ := exec_dockerMakeSnapshot env utilityImage statefulServices managed
  rw [makeSnapshot, stop_eq, up_eq, call_bind, call_outcome]
  cases hasked : env.currentState .beforeSnapshot with
  | error e =>
      refine Or.inr ⟨fun h => ?_, e, fresh managed, rfl, rfl⟩
      obtain ⟨st, hst⟩ := h.asked
      exact absurd (hasked.symm.trans hst) (error_ne_ok _ _)
  | ok st =>
      simp only [call_bind, call_outcome, call_catchAndLog]
      cases hstop : stopOutcome env with
      | error e =>
          exact Or.inr ⟨fun h => absurd (hstop.symm.trans h.stopped) (error_ne_ok _ _), e, fresh managed, rfl, rfl⟩
      | ok u =>
          by_cases hst : st = .up
          · subst hst
            cases hup : upOutcome env .upAfterSnapshot with
            | error e =>
                refine Or.inr ⟨fun h => ?_, e, _, rfl, by rw [hsnap]⟩
                exact absurd (hup.symm.trans (h.restarted hasked)) (error_ne_ok _ _)
            | ok v => exact Or.inl ⟨⟨⟨.up, hasked⟩, hstop, fun _ => hup⟩, rfl⟩
          · rw [if_neg hst]
            have hnot : env.currentState .beforeSnapshot = .ok .up → upOutcome env .upAfterSnapshot = .ok () :=
              fun h => absurd (Except.ok.inj (hasked.symm.trans h)) hst
            exact Or.inl ⟨⟨⟨st, hasked⟩, hstop, hnot⟩, rfl⟩

theorem tars_makeSnapshot (statefulServices : List StatefulService) (managed : Option (List String))
    {st : StackState} (hasked : env.currentState .beforeSnapshot = .ok st) (hstop : stopOutcome env = .ok ()) :
    (exec (makeSnapshot env utilityImage statefulServices) (fresh managed)).tars =
      (exec (dockerMakeSnapshot env utilityImage statefulServices) (fresh managed)).tars := by
  rw [exec, makeSnapshot, stop_eq, up_eq, call_bind, call_outcome, hasked]
  simp only [call_bind, call_outcome, hstop, call_catchAndLog]
  by_cases hst : st = .up
  · rw [if_pos hst, call_outcome]
  · rw [if_neg hst, call_pure]

theorem exec_rebuildService (statefulServices services : List StatefulService)
    (managed : Option (List String)) :
    (ReachesRemoval env ∧ exec (rebuildService env utilityImage statefulServices services true) (fresh managed) =
      exec (catchAndLog (removeServiceVolumes env services))
        (exec (dockerMakeSnapshot env utilityImage statefulServices) (fresh managed))) ∨
    (¬ ReachesRemoval env ∧
      (exec (rebuildService env utilityImage statefulServices services true) (fresh managed)).removed = []) := by
  have hsplit : rebuildService env utilityImage statefulServices services true =
      makeSnapshot env utilityImage statefulServices >>= fun _ => removeAndRestart env services := rfl
  obtain ⟨tars, images, hsnap, -⟩ := exec_dockerMakeSnapshot env utilityImage statefulServices managed
  rw [exec, hsplit, call_bind]
  rcases call_makeSnapshot env utilityImage statefulServices managed with ⟨hbefore, hcall⟩ | ⟨hnot, e, t, hcall, ht⟩
  · rw [hcall]
    rcases exec_removeAndRestart env services
      (exec (dockerMakeSnapshot env utilityImage statefulServices) (fresh managed)) with ⟨hdown, hrest⟩ | ⟨hnot, hrest⟩
    · exact Or.inl ⟨⟨hbefore, hdown⟩, hrest⟩
    · refine Or.inr ⟨fun h => hnot h.down, ?_⟩
      exact (congrArg World.removed hrest).trans (by rw [hsnap])
  · rw [hcall]
    exact Or.inr ⟨fun h => hnot h.backup, ht⟩

/-- The volumes that a call would remove have their tars exactly when it comes to remove
none, or no step of the snapshot fails and it covers them. -/
theorem backed_up_iff (statefulServices services : List StatefulService) (managed : Option (List String)) :
    BackedUp statefulServices
        (exec (rebuildService env utilityImage statefulServices services true) (fresh managed)) ↔
      (ReachesRemoval env → removedBy env.removeVolume 0 (volumesOf services) ≠ [] →
        SnapshotSucceeds env utilityImage statefulServices ∧
          ∀ volume ∈ removedBy env.removeVolume 0 (volumesOf services),
            volume ∈ volumesOf statefulServices) := by
  obtain ⟨tars, images, hsnap, hmade, htars⟩ :=
    exec_dockerMakeSnapshot env utilityImage statefulServices managed
  have hcomplete := tarsBy_complete_iff env.run 0 (volumesOf statefulServices)
  simp only [Nat.zero_add] at hcomplete
  rcases exec_rebuildService env utilityImage statefulServices services managed with
    ⟨hreach, hexec⟩ | ⟨hnot, hremoved⟩
  · rw [hexec, exec_removeServiceVolumes, hsnap, BackedUp]
    simp only [List.nil_append, List.length_nil]
    constructor
    · intro h _ hne
      obtain ⟨hall, hcovered⟩ := h hne
      have hmem : ∀ volume ∈ removedBy env.removeVolume 0 (volumesOf services),
          volume ∈ volumesOf statefulServices := by
        intro volume hv
        have hv' := hcovered volume hv
        rw [hall] at hv'
        obtain ⟨w, hw, heq⟩ := List.mem_map.mp hv'
        exact (Prod.mk.inj heq).1 ▸ hw
      have hnonempty : tars ≠ [] := by
        obtain ⟨volume, hv⟩ := List.exists_mem_of_ne_nil _ hne
        exact List.ne_nil_of_mem (hcovered volume hv)
      obtain ⟨hdir, himage, htars⟩ := htars hnonempty
      exact ⟨⟨hdir, himage, hcomplete.mp (htars ▸ hall)⟩, hmem⟩
    · intro h hne
      obtain ⟨hsuccess, hmem⟩ := h hreach hne
      have hall : tars = (volumesOf statefulServices).map fun volume => (volume, 0) := by
        rw [hmade hsuccess.directory hsuccess.image]
        exact hcomplete.mpr hsuccess.tarred
      exact ⟨hall, fun volume hv => hall ▸ List.mem_map_of_mem (hmem volume hv)⟩
  · constructor
    · intro _ hreach
      exact absurd hreach hnot
    · intro _ hne
      exact absurd hremoved hne

def postgresService (projectName : String) : StatefulService :=
  { name := "postgres"
    dataPath := "/var/lib/postgresql/data"
    volumes := [projectName ++ "_postgres-data"] }

def fullDisk : Externals :=
  { currentState := fun _ => .ok .up
    upAll := fun _ => .ok ()
    stopAll := .ok ()
    downAll := .ok ()
    initSnapshot := .error "ENOSPC: no space left on device"
    listImages := .ok [⟨"sha256:a2", some ["alpine:3.12.0"]⟩]
    pull := .ok ()
    listImagesAfterPull := .ok []
    setManagedImages := .ok ()
    run := fun _ => .ok 0
    removeVolume := fun _ => .ok () }

theorem fullDisk_removed_unsaved :
    exec (rebuildService fullDisk "alpine:3.12.0" [postgresService "cg"] [postgresService "cg"] true)
        (fresh none) = { tars := [], removed := ["cg_postgres-data"], managedImages := none } ∧
      ¬ BackedUp [postgresService "cg"] (exec (rebuildService fullDisk "alpine:3.12.0"
        [postgresService "cg"] [postgresService "cg"] true) (fresh none)) := by
  have hexec : exec (rebuildService fullDisk "alpine:3.12.0" [postgresService "cg"] [postgresService "cg"] true)
      (fresh none) = { tars := [], removed := ["cg_postgres-data"], managedImages := none } := by
    decide +kernel
  refine ⟨hexec, fun h => ?_⟩
  rw [hexec] at h
  obtain ⟨-, hcovered⟩ := h (by simp)
  exact absurd (hcovered _ List.mem_cons_self) List.not_mem_nil

end CardanoGraphql.DockerStack
