import CardanoGraphql.SnapshotHistory

namespace CardanoGraphql.RestoredVolumes

open Fallible DockerStack DockerRestore SnapshotHistory

section Files

theorem extract_idem (tar files : Files) : extract tar (extract tar files) = extract tar files := by
  funext name
  rw [extract, extract]
  cases tar name <;> rfl

theorem extract_eq_iff (tar files : Files) :
    extract tar files = tar ↔ ∀ name, (files name).isSome = true → (tar name).isSome = true := by
  rw [funext_iff]
  apply forall_congr'
  intro name
  rw [extract]
  cases tar name <;> cases files name <;> simp

theorem foldl_markCreated (names : List String) (s : RestoreWorld) :
    names.foldl (fun t name => markCreated name t) s =
      { s with
        created := s.created ++ names
        volumes := fun volume =>
          if volume ∈ names then some ((s.volumes volume).getD noFiles) else s.volumes volume } := by
  induction names generalizing s with
  | nil => simp
  | cons name names ih =>
      rw [List.foldl_cons, ih, markCreated]
      simp only [List.append_assoc, List.singleton_append]
      congr 1
      funext volume
      by_cases hvolume : volume = name
      · simp [hvolume]
      · simp [hvolume]

theorem foldl_markRestored (tar : String → Option Files) (names : List String) (s : RestoreWorld) :
    names.foldl (fun t name => markRestored (tar name) name t) s =
      { s with
        restored := s.restored ++ names
        volumes := fun volume =>
          if volume ∈ names then
            some (extract ((tar volume).getD noFiles) ((s.volumes volume).getD noFiles))
          else s.volumes volume } := by
  induction names generalizing s with
  | nil => simp
  | cons name names ih =>
      rw [List.foldl_cons, ih, markRestored]
      simp only [List.append_assoc, List.singleton_append]
      congr 1
      funext volume
      by_cases hvolume : volume = name
      · simp [hvolume, extract_idem]
      · simp [hvolume]

end Files

section Contents

variable (env : RestoreExternals) (utilityImage : String) (entries : List Snapshot)
  (services : List StatefulService)

structure ContentsSucceed (beforeState : StackState) : Prop where
  created : ∀ i < (volumesOf services).length, env.createVolume i = .ok ()
  image : ImageAvailable env.stack utilityImage
  run : ∀ i < (volumesOf services).length, env.run i = .ok ()
  restarted : beforeState = .up → upOutcome env.stack .upAfterRebuild = .ok ()

def contents (snapshot : Option String) (volumes : Volumes) : Volumes := fun volume =>
  if volume ∈ volumesOf services then
    some (extract ((tarOf entries snapshot volume).getD noFiles) ((volumes volume).getD noFiles))
  else volumes volume

theorem call_createServiceVolumes {s : RestoreWorld} (hcreated : s.created = []) :
    ((call (createServiceVolumes env services) s).1 = .ok () ↔
      ∀ i < (volumesOf services).length, env.createVolume i = .ok ()) ∧
    ((call (createServiceVolumes env services) s).1 = .ok () →
      (call (createServiceVolumes env services) s).2 =
        (volumesOf services).foldl (fun t name => markCreated name t) s) := by
  have hloop := @call_forM_counted RestoreWorld String (fun t => t.created.length) env.createVolume markCreated
    (fun name t => by rw [markCreated, List.length_append]; rfl) (volumesOf services) s
  simp only [hcreated, List.length_nil, Nat.zero_add] at hloop
  rw [createServiceVolumes, forM_volumesOf]
  exact hloop

theorem call_restoreVolumes (snapshot : Option String) {s : RestoreWorld} (hrestored : s.restored = []) :
    ((call (forM services fun service => forM service.volumes (restoreVolume env entries snapshot)) s).1 =
        .ok () ↔ ∀ i < (volumesOf services).length, env.run i = .ok ()) ∧
    ((call (forM services fun service => forM service.volumes (restoreVolume env entries snapshot)) s).1 =
        .ok () →
      (call (forM services fun service => forM service.volumes (restoreVolume env entries snapshot)) s).2.volumes =
        contents entries services snapshot s.volumes) := by
  have hloop := @call_forM_counted RestoreWorld String (fun t => t.restored.length) env.run
    (fun name => markRestored (tarOf entries snapshot name) name)
    (fun name t => by rw [markRestored, List.length_append]; rfl) (volumesOf services) s
  simp only [hrestored, List.length_nil, Nat.zero_add, foldl_markRestored] at hloop
  rw [forM_volumesOf]
  exact ⟨hloop.1, fun h => congrArg RestoreWorld.volumes (hloop.2 h)⟩

theorem call_dockerRestoreSnapshot {snapshot : Option String} {s : RestoreWorld}
    (hvalid : validateSnapshot entries snapshot = .ok ()) (hrestored : s.restored = []) :
    ((call (dockerRestoreSnapshot env utilityImage entries snapshot services) s).1 = .ok () ↔
      ImageAvailable env.stack utilityImage ∧ ∀ i < (volumesOf services).length, env.run i = .ok ()) ∧
    ((call (dockerRestoreSnapshot env utilityImage entries snapshot services) s).1 = .ok () →
      (call (dockerRestoreSnapshot env utilityImage entries snapshot services) s).2.volumes =
        contents entries services snapshot s.volumes) := by
  obtain ⟨r, images, hcall, hr⟩ := call_ensureUtilityImageAvailable env.stack utilityImage s.docker
  rw [dockerRestoreSnapshot, call_bind, canRestore, call_outcome, hvalid]
  simp only [call_bind, onStack, call_onPart, hcall]
  cases r with
  | error e =>
      refine ⟨iff_of_false (error_ne_ok _ _) fun h => ?_, fun h => absurd h (error_ne_ok _ _)⟩
      exact absurd (hr.mpr h.1) (error_ne_ok _ _)
  | ok u =>
      obtain ⟨hok, hfinal⟩ := @call_restoreVolumes env entries services snapshot
        { s with docker := { s.docker with managedImages := images } } hrestored
      exact ⟨hok.trans ⟨fun h => ⟨hr.mp rfl, h⟩, fun h => h.2⟩, hfinal⟩

theorem call_up (beforeState : StackState) (s : RestoreWorld) :
    ((call (if beforeState = .up then onStack (up env.stack .upAfterRebuild) else pure ()) s).1 = .ok () ↔
      (beforeState = .up → upOutcome env.stack .upAfterRebuild = .ok ())) ∧
    (call (if beforeState = .up then onStack (up env.stack .upAfterRebuild) else pure ()) s).2.volumes =
      s.volumes := by
  by_cases hup : beforeState = .up
  · rw [if_pos hup, up_eq, onStack, call_onPart, call_outcome]
    exact ⟨⟨fun h _ => h, fun h => h hup⟩, rfl⟩
  · rw [if_neg hup, call_pure]
    exact ⟨iff_of_true rfl fun h => absurd h hup, rfl⟩

theorem contents_created (snapshot : Option String) (volumes : Volumes) :
    contents entries services snapshot (fun volume =>
      if volume ∈ volumesOf services then some ((volumes volume).getD noFiles) else volumes volume) =
      contents entries services snapshot volumes := by
  funext volume
  by_cases hvolume : volume ∈ volumesOf services
  · simp [contents, hvolume]
  · simp [contents, hvolume]

theorem call_restoreContents {snapshot : Option String} {s : RestoreWorld} (beforeState : StackState)
    (hvalid : validateSnapshot entries snapshot = .ok ()) (hcreated : s.created = [])
    (hrestored : s.restored = []) :
    ((call (restoreContents env utilityImage entries services snapshot beforeState) s).1 = .ok () ↔
      ContentsSucceed env utilityImage services beforeState) ∧
    ((call (restoreContents env utilityImage entries services snapshot beforeState) s).1 = .ok () →
      (call (restoreContents env utilityImage entries services snapshot beforeState) s).2.volumes =
        contents entries services snapshot s.volumes) := by
  obtain ⟨hcreate, hmade⟩ := call_createServiceVolumes env services hcreated
  rw [restoreContents, call_bind]
  rcases hc : call (createServiceVolumes env services) s with ⟨r, t⟩
  rw [hc] at hcreate hmade
  cases r with
  | error e =>
      refine ⟨iff_of_false (error_ne_ok _ _) fun h => ?_, fun h => absurd h (error_ne_ok _ _)⟩
      exact absurd (hcreate.mpr h.created) (error_ne_ok _ _)
  | ok u =>
      have ht : t = { s with
          created := s.created ++ volumesOf services
          volumes := fun volume => if volume ∈ volumesOf services then some ((s.volumes volume).getD noFiles)
            else s.volumes volume } := (hmade rfl).trans (foldl_markCreated _ s)
      have hkept : t.restored = [] := by rw [ht, hrestored]
      have hvolumes : contents entries services snapshot t.volumes =
          contents entries services snapshot s.volumes := by
        rw [ht]
        exact contents_created entries services snapshot s.volumes
      obtain ⟨hrun, hfiles⟩ := call_dockerRestoreSnapshot env utilityImage entries services hvalid hkept
      simp only [call_bind]
      rcases hd : call (dockerRestoreSnapshot env utilityImage entries snapshot services) t with ⟨r, w⟩
      rw [hd] at hrun hfiles
      cases r with
      | error e =>
          refine ⟨iff_of_false (error_ne_ok _ _) fun h => ?_, fun h => absurd h (error_ne_ok _ _)⟩
          exact absurd (hrun.mpr ⟨h.image, h.run⟩) (error_ne_ok _ _)
      | ok v =>
          obtain ⟨hup, hsame⟩ := call_up env beforeState w
          obtain ⟨himage, hruns⟩ := hrun.mp rfl
          refine ⟨hup.trans ⟨fun h => ⟨hcreate.mp rfl, himage, hruns, h⟩, fun h => h.restarted⟩, fun _ => ?_⟩
          exact hsame.trans ((hfiles rfl).trans hvolumes)

end Contents

section Restored

variable (env : RestoreExternals) (utilityImage : String) (entries : List Snapshot)
  (services : List StatefulService) (snapshotName : Option String)

/-- Every volume holds the files of its tar and no others. -/
def Reproduces (entry : Snapshot) (volumes : Volumes) : Prop :=
  ∀ volume ∈ volumesOf services, volumes volume = entry.tars volume

structure RestoreSucceeds : Prop where
  reaches : ReachesVolumes env entries snapshotName
  contents : ∀ st, env.stack.currentState .beforeRebuild = .ok st →
    ContentsSucceed env utilityImage services st

/-- A volume that is not removed has only files that its tar has as well. -/
def LeftoverCovered (entry : Snapshot) (volumes : Volumes) : Prop :=
  ∀ volume ∈ volumesOf services,
    volume ∉ removedVolumes env.stack.removeVolume 0 volumes (volumesOf services) →
    ∀ files, volumes volume = some files → ∀ tar, entry.tars volume = some tar →
      ∀ name, (files name).isSome = true → (tar name).isSome = true

theorem call_restoreSnapshot_ok (volumes : Volumes) (managedImages : Option (List String)) :
    ((call (restoreSnapshot env utilityImage entries services snapshotName) (found volumes managedImages)).1 =
        .ok () ↔ RestoreSucceeds env utilityImage entries services snapshotName) ∧
    ((call (restoreSnapshot env utilityImage entries services snapshotName) (found volumes managedImages)).1 =
        .ok () →
      (call (restoreSnapshot env utilityImage entries services snapshotName)
        (found volumes managedImages)).2.volumes =
        contents entries services (chosenName entries snapshotName) fun volume =>
          if volume ∈ removedVolumes env.stack.removeVolume 0 volumes (volumesOf services) then none
          else volumes volume) := by
  rcases call_restoreSnapshot env utilityImage entries services snapshotName volumes managedImages with
    ⟨hreaches, st, hst, hcall⟩ | ⟨hnot, e, hcall⟩
  · have hvalid := (validateSnapshot_ok_iff entries snapshotName).mpr hreaches.valid
    have hremoved := exec_removeVolumes env (volumesOf services) (found volumes managedImages)
    rw [hcall]
    obtain ⟨hok, hfinal⟩ := @call_restoreContents env utilityImage entries services
      (chosenName entries snapshotName)
      (exec (forM (volumesOf services) (removeVolume env)) (found volumes managedImages)) st hvalid
      (by rw [hremoved]; rfl) (by rw [hremoved]; rfl)
    refine ⟨hok.trans ⟨fun h => ⟨hreaches, fun other hother => ?_⟩, fun h => h.contents st hst⟩, fun h => ?_⟩
    · obtain rfl : st = other := Except.ok.inj (hst.symm.trans hother)
      exact h
    · refine (hfinal h).trans ?_
      rw [hremoved]
      rfl
  · rw [hcall]
    exact ⟨iff_of_false (error_ne_ok _ _) fun h => hnot h.reaches, fun h => absurd h (error_ne_ok _ _)⟩

/-- A restore that ends normally reproduces a complete snapshot exactly where the volumes
from the first failing removal on held nothing that their tars do not overwrite. -/
theorem reproduces_iff {entry : Snapshot} (hselected : selected entries snapshotName = some entry)
    (hcomplete : Complete services entry) (volumes : Volumes) (managedImages : Option (List String)) :
    ((call (restoreSnapshot env utilityImage entries services snapshotName) (found volumes managedImages)).1 =
        .ok () →
      Reproduces services entry (call (restoreSnapshot env utilityImage entries services snapshotName)
        (found volumes managedImages)).2.volumes) ↔
      (RestoreSucceeds env utilityImage entries services snapshotName →
        LeftoverCovered env services entry volumes) := by
  obtain ⟨hok, hfinal⟩ := call_restoreSnapshot_ok env utilityImage entries services snapshotName volumes
    managedImages
  have htar : ∀ volume, tarOf entries (chosenName entries snapshotName) volume = entry.tars volume := by
    intro volume
    rw [tarOf]
    exact congrArg (fun found => found.bind fun entry => entry.tars volume) hselected
  rw [hok]
  apply imp_congr_right
  intro hsucceeds
  rw [hfinal (hok.mpr hsucceeds), Reproduces, LeftoverCovered]
  apply forall₂_congr
  intro volume hvolume
  obtain ⟨tar, htars⟩ := Option.isSome_iff_exists.mp (hcomplete.tars volume hvolume)
  rw [contents, if_pos hvolume, htar, htars, Option.getD_some, Option.some_inj]
  by_cases hremoved : volume ∈ removedVolumes env.stack.removeVolume 0 volumes (volumesOf services)
  · rw [if_pos hremoved, Option.getD_none, extract_eq_iff]
    exact iff_of_true (fun name h => by cases h) fun hnot => absurd hremoved hnot
  · rw [if_neg hremoved, extract_eq_iff]
    cases hvolume' : volumes volume with
    | none => exact iff_of_true (fun name h => by cases h) fun _ files h => by cases h
    | some files =>
        constructor
        · intro h _ other hother tar' htar'
          cases hother
          cases htar'
          exact h
        · exact fun h => h hremoved files rfl tar rfl

end Restored

def cardanoDbSyncService (projectName : String) : StatefulService :=
  { name := "cardano-db-sync"
    dataPath := "/data"
    volumes := [projectName ++ "_db-sync-data"] }

def twoServices : List StatefulService := [cardanoDbSyncService "cg", postgresService "cg"]

def savedFiles : Volumes := fun volume =>
  if volume = "cg_db-sync-data" then some noFiles
  else if volume = "cg_postgres-data" then some databaseFiles
  else none

def saved : Snapshot := ⟨"1700000000000", 1700000000000, true, savedFiles⟩

def grownVolume : Volumes := fun volume =>
  if volume = "cg_postgres-data" then
    some fun name => if name = "base/16384" then some "rows" else databaseFiles name
  else none

theorem saved_selected : selected [saved] none = some saved := rfl

theorem saved_complete : Complete twoServices saved where
  directory := rfl
  tars := by decide

theorem grown_file_kept :
    (call (restoreSnapshot succeeding "alpine:3.12.0" [saved] twoServices none) (found grownVolume none)).1 =
        .ok () ∧
      ((call (restoreSnapshot succeeding "alpine:3.12.0" [saved] twoServices none)
        (found grownVolume none)).2.volumes "cg_postgres-data").bind (fun files => files "base/16384") =
        some "rows" ∧
      ¬ ((call (restoreSnapshot succeeding "alpine:3.12.0" [saved] twoServices none)
          (found grownVolume none)).1 = .ok () →
        Reproduces twoServices saved (call (restoreSnapshot succeeding "alpine:3.12.0" [saved] twoServices none)
          (found grownVolume none)).2.volumes) := by
  have hok : (call (restoreSnapshot succeeding "alpine:3.12.0" [saved] twoServices none)
      (found grownVolume none)).1 = .ok () := by
    decide +kernel
  have hkept : ((call (restoreSnapshot succeeding "alpine:3.12.0" [saved] twoServices none)
      (found grownVolume none)).2.volumes "cg_postgres-data").bind (fun files => files "base/16384") =
      some "rows" := by
    decide +kernel
  refine ⟨hok, hkept, fun h => ?_⟩
  rw [h hok "cg_postgres-data" (by decide)] at hkept
  exact absurd hkept (by decide)

def bothVolumes : Volumes := fun volume =>
  if volume = "cg_db-sync-data" then some noFiles else grownVolume volume

theorem both_reproduced :
    (call (restoreSnapshot succeeding "alpine:3.12.0" [saved] twoServices none) (found bothVolumes none)).1 =
        .ok () ∧
      Reproduces twoServices saved (call (restoreSnapshot succeeding "alpine:3.12.0" [saved] twoServices none)
        (found bothVolumes none)).2.volumes := by
  have hok : (call (restoreSnapshot succeeding "alpine:3.12.0" [saved] twoServices none)
      (found bothVolumes none)).1 = .ok () := by
    decide +kernel
  have hremoved : removedVolumes succeeding.stack.removeVolume 0 bothVolumes (volumesOf twoServices) =
      volumesOf twoServices := by
    decide +kernel
  refine ⟨hok, (reproduces_iff succeeding "alpine:3.12.0" [saved] twoServices none saved_selected
    saved_complete bothVolumes none).mpr (fun _ volume hvolume hnot => ?_) hok⟩
  rw [hremoved] at hnot
  exact absurd hvolume hnot

end CardanoGraphql.RestoredVolumes
