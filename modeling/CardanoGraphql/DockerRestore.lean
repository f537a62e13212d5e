import Mathlib.Data.List.Sort
import CardanoGraphql.DockerStack

namespace CardanoGraphql.DockerRestore

open Fallible DockerStack

/-- Files by name, with their content. -/
abbrev Files := String → Option String

abbrev Volumes := String → Option Files

/-- An entry of the snapshots directory, with the tars that lie in it. -/
structure Snapshot where
  name : String
  time : Nat
  isDirectory : Bool
  tars : Volumes

/-- What the steps of one `restoreSnapshot` meet outside the program; its steps on the
stack and the image are those of `rebuildService`. -/
structure RestoreExternals where
  stack : Externals
  readdir : Except String Unit
  createVolume : Nat → Except String Unit
  run : Nat → Except String Unit

structure RestoreWorld where
  docker : World
  volumes : Volumes
  created : List String
  restored : List String

def noFiles : Files := fun _ => none

/-- Files of the same name are overwritten, the others kept. -/
def extract (tar files : Files) : Files := fun name => (tar name).or (files name)

section Selection

variable (entries : List Snapshot)

def snapshotsList : List String :=
  (entries.insertionSort fun a b => b.time ≤ a.time).map Snapshot.name

def entryNamed (name : String) : Option Snapshot := entries.find? fun entry => decide (entry.name = name)

def chosenName (snapshotName : Option String) : Option String :=
  snapshotName.or (snapshotsList entries).head?

def selected (snapshotName : Option String) : Option Snapshot :=
  (chosenName entries snapshotName).bind (entryNamed entries)

def validateSnapshot : Option String → Except String Unit
  | none => .error "The \"path\" argument must be of type string. Received undefined"
  | some name =>
      match entryNamed entries name with
      | none => .error ("ENOENT: no such file or directory, stat '" ++ name ++ "'")
      | some fileStat => if fileStat.isDirectory then .ok () else .error "Invalid snapshot"

def tarOf (snapshot : Option String) (volume : String) : Option Files :=
  (snapshot.bind (entryNamed entries)).bind fun entry => entry.tars volume

end Selection

section Steps

variable (env : RestoreExternals)

def onStack {α : Type} (h : Program World α) : Program RestoreWorld α :=
  onPart RestoreWorld.docker (fun docker s => { s with docker := docker }) h

def removeVolume (name : String) : Program RestoreWorld Unit := do
  let s ← get
  if (s.volumes name).isNone then
    throw ("get " ++ name ++ ": no such volume")
  onStack (DockerStack.removeVolume env.stack name)
  modify fun s => { s with volumes := Function.update s.volumes name none }

def markCreated (name : String) (s : RestoreWorld) : RestoreWorld :=
  { s with
    created := s.created ++ [name]
    volumes := Function.update s.volumes name (some ((s.volumes name).getD noFiles)) }

def createVolume (name : String) : Program RestoreWorld Unit :=
  counted (fun s => s.created.length) env.createVolume (markCreated name)

/-- The run extracts the whole tar; a missing one is no error, as the status of the run is not
looked at. -/
def markRestored (tar : Option Files) (name : String) (s : RestoreWorld) : RestoreWorld :=
  { s with
    restored := s.restored ++ [name]
    volumes := Function.update s.volumes name
      (some (extract (tar.getD noFiles) ((s.volumes name).getD noFiles))) }

def restoreVolume (entries : List Snapshot) (snapshot : Option String) (name : String) :
    Program RestoreWorld Unit :=
  counted (fun s => s.restored.length) env.run (markRestored (tarOf entries snapshot name) name)

def removeServiceVolumes (services : List StatefulService) : Program RestoreWorld Unit :=
  catchAndLog (forM services fun service => forM service.volumes (removeVolume env))

def createServiceVolumes (services : List StatefulService) : Program RestoreWorld Unit :=
  forM services fun service => forM service.volumes (createVolume env)

end Steps

section Restore

variable (env : RestoreExternals) (utilityImage : String) (entries : List Snapshot)

def canRestore (snapshot : Option String) : Program RestoreWorld Unit :=
  outcome (validateSnapshot entries snapshot)

def dockerRestoreSnapshot (snapshot : Option String) (services : List StatefulService) :
    Program RestoreWorld Unit := do
  canRestore entries snapshot
  onStack (ensureUtilityImageAvailable env.stack utilityImage)
  forM services fun service => forM service.volumes (restoreVolume env entries snapshot)

def listed (snapshotName : Option String) : Except String Unit :=
  if snapshotName.isNone then env.readdir else .ok ()

def restoreContents (services : List StatefulService) (snapshot : Option String) (beforeState : StackState) :
    Program RestoreWorld Unit := do
  createServiceVolumes env services
  dockerRestoreSnapshot env utilityImage entries snapshot services
  if beforeState = .up then
    onStack (up env.stack .upAfterRebuild)

def restoreSnapshot (services : List StatefulService) (snapshotName : Option String) :
    Program RestoreWorld Unit := do
  outcome (listed env snapshotName)
  let snapshot := chosenName entries snapshotName
  canRestore entries snapshot
  let beforeState ← outcome (env.stack.currentState .beforeRebuild)
  onStack (down env.stack)
  removeServiceVolumes env services
  restoreContents env utilityImage entries services snapshot beforeState

end Restore

def found (volumes : Volumes) (managedImages : Option (List String)) : RestoreWorld :=
  { docker := fresh managedImages, volumes := volumes, created := [], restored := [] }

def removedVolumes (remove : Nat → Except String Unit) : Nat → Volumes → List String → List String
  | _, _, [] => []
  | n, volumes, name :: names =>
      match volumes name, remove n with
      | some _, .ok _ => name :: removedVolumes remove (n + 1) (Function.update volumes name none) names
      | _, _ => []

structure ReachesVolumes (env : RestoreExternals) (entries : List Snapshot) (snapshotName : Option String) :
    Prop where
  listed : listed env snapshotName = .ok ()
  valid : ∃ entry, selected entries snapshotName = some entry ∧ entry.isDirectory = true
  asked : ∃ st, env.stack.currentState .beforeRebuild = .ok st
  takenDown : downOutcome env.stack = .ok ()

section Spec

variable (env : RestoreExternals) (utilityImage : String) (entries : List Snapshot)

theorem validateSnapshot_ok_iff (snapshotName : Option String) :
    validateSnapshot entries (chosenName entries snapshotName) = .ok () ↔
      ∃ entry, selected entries snapshotName = some entry ∧ entry.isDirectory = true := by
  rw [selected]
  cases chosenName entries snapshotName with
  | none => exact iff_of_false (error_ne_ok _ _) (by simp)
  | some name =>
      rw [validateSnapshot, Option.bind_some]
      cases entryNamed entries name with
      | none => exact iff_of_false (error_ne_ok _ _) (by simp)
      | some entry =>
          cases hdir : entry.isDirectory with
          | true => exact iff_of_true (by simp [hdir]) ⟨entry, rfl, hdir⟩
          | false => exact iff_of_false (by simp [hdir]) (by simp [hdir])

theorem exec_removeVolumes (names : List String) (s : RestoreWorld) :
    exec (forM names (removeVolume env)) s =
      { s with
        docker := { s.docker with
          removed := s.docker.removed ++
            removedVolumes env.stack.removeVolume s.docker.removed.length s.volumes names }
        volumes := fun name =>
          if name ∈ removedVolumes env.stack.removeVolume s.docker.removed.length s.volumes names then none
          else s.volumes name } := by
  induction names generalizing s with
  | nil => simp [exec, removedVolumes]
  | cons name names ih =>
      rw [exec, call_forM_cons, removedVolumes]
      simp only [removeVolume, call_bind, call_get]
      cases hvolume : s.volumes name with
      | none => simp
      | some files =>
          simp only [Option.isNone_some, Bool.false_eq_true, if_false, onStack, call_onPart,
            DockerStack.removeVolume, call_bind, call_get, call_outcome]
          cases hremove : env.stack.removeVolume s.docker.removed.length with
          | error e => simp
          | ok u =>
              have hrest := ih { s with
                docker := { s.docker with removed := s.docker.removed ++ [name] }
                volumes := Function.update s.volumes name none }
              rw [exec] at hrest
              simp only [call_modify]
              refine hrest.trans ?_
              simp only [List.length_append, List.length_singleton, List.append_assoc, List.singleton_append]
              congr 1
              funext other
              by_cases hother : other = name <;> simp [hother]

theorem exec_removeServiceVolumes (services : List StatefulService) (s : RestoreWorld) :
    exec (removeServiceVolumes env services) s = exec (forM (volumesOf services) (removeVolume env)) s := by
  rw [← forM_volumesOf]
  rfl

theorem restoreContents_keeps (services : List StatefulService) (snapshot : Option String)
    (beforeState : StackState) :
    Keeps (fun s : RestoreWorld => s.docker.removed)
      (restoreContents env utilityImage entries services snapshot beforeState) := by
  have hcreate : Keeps (fun s : RestoreWorld => s.docker.removed) (createServiceVolumes env services) := by
    apply Keeps.forM
    intro service
    apply Keeps.forM
    intro name
    apply Keeps.counted
    exact fun s => rfl
  have hrestore : Keeps (fun s : RestoreWorld => s.docker.removed)
      (forM services fun service => forM service.volumes (restoreVolume env entries snapshot)) := by
    apply Keeps.forM
    intro service
    apply Keeps.forM
    intro name
    apply Keeps.counted
    exact fun s => rfl
  have himage : Keeps (fun s : RestoreWorld => s.docker.removed)
      (onStack (ensureUtilityImageAvailable env.stack utilityImage)) := by
    intro s
    obtain ⟨r, images, hcall, -⟩ := call_ensureUtilityImageAvailable env.stack utilityImage s.docker
    rw [onStack, call_onPart, hcall]
  have hup : Keeps (fun s : RestoreWorld => s.docker.removed) (onStack (up env.stack .upAfterRebuild)) := by
    intro s
    rw [onStack, call_onPart, up_eq, call_outcome]
  exact hcreate.bind fun _ => ((Keeps.outcome _).bind fun _ => himage.bind fun _ => hrestore).bind
    fun _ => Keeps.ite hup

theorem call_restoreSnapshot (services : List StatefulService) (snapshotName : Option String)
    (volumes : Volumes) (managed : Option (List String)) :
    (ReachesVolumes env entries snapshotName ∧ ∃ st, env.stack.currentState .beforeRebuild = .ok st ∧
      call (restoreSnapshot env utilityImage entries services snapshotName) (found volumes managed) =
        call (restoreContents env utilityImage entries services (chosenName entries snapshotName) st)
          (exec (forM (volumesOf services) (removeVolume env)) (found volumes managed))) ∨
    (¬ ReachesVolumes env entries snapshotName ∧ ∃ e,
      call (restoreSnapshot env utilityImage entries services snapshotName) (found volumes managed) =
        (.error e, found volumes managed)) := by
  have hvalid := validateSnapshot_ok_iff entries snapshotName
  rw [restoreSnapshot, call_bind, call_outcome]
  cases hlisted : listed env snapshotName with
  | error e =>
      refine Or.inr ⟨fun h => ?_, e, rfl⟩
      exact absurd (hlisted.symm.trans h.listed) (error_ne_ok _ _)
  | ok u =>
      simp only [call_bind, canRestore, call_outcome]
      cases hdir : validateSnapshot entries (chosenName entries snapshotName) with
      | error e =>
          refine Or.inr ⟨fun h => ?_, e, rfl⟩
          exact absurd (hdir.symm.trans (hvalid.mpr h.valid)) (error_ne_ok _ _)
      | ok v =>
          cases hasked : env.stack.currentState .beforeRebuild with
          | error e =>
              refine Or.inr ⟨fun h => ?_, e, rfl⟩
              obtain ⟨st, hst⟩ := h.asked
              exact absurd (hasked.symm.trans hst) (error_ne_ok _ _)
          | ok st =>
              simp only [onStack, call_onPart, down_eq, call_outcome]
              cases hdown : downOutcome env.stack with
              | error e =>
                  refine Or.inr ⟨fun h => ?_, e, rfl⟩
                  exact absurd (hdown.symm.trans h.takenDown) (error_ne_ok _ _)
              | ok w =>
                  refine Or.inl ⟨⟨hlisted, hvalid.mp hdir, ⟨st, hasked⟩, hdown⟩, st, rfl, ?_⟩
                  rw [← exec_removeServiceVolumes]
                  rfl

theorem removed_restoreSnapshot (services : List StatefulService) (snapshotName : Option String)
    (volumes : Volumes) (managed : Option (List String)) :
    (ReachesVolumes env entries snapshotName ∧
      (exec (restoreSnapshot env utilityImage entries services snapshotName)
        (found volumes managed)).docker.removed =
        removedVolumes env.stack.removeVolume 0 volumes (volumesOf services)) ∨
    (¬ ReachesVolumes env entries snapshotName ∧
      (exec (restoreSnapshot env utilityImage entries services snapshotName)
        (found volumes managed)).docker.removed = []) := by
  rcases call_restoreSnapshot env utilityImage entries services snapshotName volumes managed with
    ⟨hreaches, st, -, hcall⟩ | ⟨hnot, e, hcall⟩
  · refine Or.inl ⟨hreaches, ?_⟩
    rw [exec, hcall]
    refine (restoreContents_keeps env utilityImage entries services _ st _).trans ?_
    rw [exec_removeVolumes]
    rfl
  · refine Or.inr ⟨hnot, ?_⟩
    rw [exec, hcall]
    rfl

end Spec

end CardanoGraphql.DockerRestore
