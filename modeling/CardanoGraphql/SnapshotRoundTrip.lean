import CardanoGraphql.RestoredVolumes

namespace CardanoGraphql.SnapshotRoundTrip

open Fallible DockerStack DockerRestore SnapshotHistory RestoredVolumes

section Newest

variable {entries earlier : List Snapshot} {newest : Snapshot}

theorem selected_newest (hentries : entries.Perm (earlier ++ [newest]))
    (hlatest : ∀ entry ∈ earlier, entry.time < newest.time) (hnew : newest.name ∉ earlier.map Snapshot.name) :
    selected entries none = some newest := by
  have hmem : ∀ entry, entry ∈ entries ↔ entry ∈ earlier ∨ entry = newest := by
    intro entry
    rw [hentries.mem_iff, List.mem_append, List.mem_singleton]
  have hperm := List.perm_insertionSort (fun a b : Snapshot => b.time ≤ a.time) entries
  have htotal : Std.Total fun a b : Snapshot => b.time ≤ a.time := ⟨fun a b => Nat.le_total b.time a.time⟩
  have htrans : IsTrans Snapshot fun a b => b.time ≤ a.time := ⟨fun a b c hab hbc => hbc.trans hab⟩
  have hsorted := List.pairwise_insertionSort (fun a b : Snapshot => b.time ≤ a.time) entries
  have hin : newest ∈ entries.insertionSort fun a b => b.time ≤ a.time :=
    hperm.mem_iff.mpr ((hmem newest).mpr (Or.inr rfl))
  have hchosen : chosenName entries none = some newest.name := by
    rw [chosenName, Option.none_or, snapshotsList]
    cases hsort : entries.insertionSort fun a b => b.time ≤ a.time with
    | nil =>
        rw [hsort] at hin
        cases hin
    | cons first rest =>
        rw [hsort] at hin hsorted hperm
        rcases List.mem_cons.mp hin with rfl | hin
        · rfl
        · have hle := (List.pairwise_cons.mp hsorted).1 newest hin
          rcases (hmem first).mp (hperm.mem_iff.mp List.mem_cons_self) with hfirst | rfl
          · have := hlatest first hfirst
            omega
          · rfl
  have hfind : entryNamed entries newest.name = some newest := by
    cases hfound : entryNamed entries newest.name with
    | none =>
        have hno := List.find?_eq_none.mp hfound newest ((hmem newest).mpr (Or.inr rfl))
        exact absurd (decide_eq_true rfl) hno
    | some entry =>
        have hname : entry.name = newest.name := by simpa using List.find?_some hfound
        rcases (hmem entry).mp (List.mem_of_find?_eq_some hfound) with hearlier | rfl
        · exact absurd (hname ▸ List.mem_map_of_mem hearlier) hnew
        · rfl
  rw [selected, hchosen, Option.bind_some, hfind]

end Newest

theorem removedVolumes_subset (remove : Nat → Except String Unit) (n : Nat) (volumes : Volumes)
    (names : List String) : ∀ name ∈ removedVolumes remove n volumes names, name ∈ names := by
  induction names generalizing n volumes with
  | nil => exact fun name h => absurd h List.not_mem_nil
  | cons first names ih =>
      intro name hname
      rw [removedVolumes] at hname
      split at hname
      next =>
        rcases List.mem_cons.mp hname with rfl | hname
        · exact List.mem_cons_self
        · exact List.mem_cons_of_mem first (ih _ _ name hname)
      next => cases hname

section RoundTrip

variable {utilityImage : String} {services : List StatefulService}

theorem entry_of_backup (history : List Backup) : ∀ entry ∈ snapshotsAfter utilityImage services history,
    ∃ c ∈ history, c.makesDirectory = true ∧ c.directory = entry.name ∧ c.modified = entry.time := by
  induction history using List.reverseRecOn with
  | nil => exact fun entry h => absurd h List.not_mem_nil
  | append_singleton history c ih =>
      intro entry hentry
      have hold : ∀ old ∈ snapshotsAfter utilityImage services history,
          ∃ c' ∈ history ++ [c], c'.makesDirectory = true ∧ c'.directory = old.name ∧ c'.modified = old.time := by
        intro old ho
        obtain ⟨c', hc', h⟩ := ih old ho
        exact ⟨c', List.mem_append_left _ hc', h⟩
      have hlast : c ∈ history ++ [c] := List.mem_append_right _ List.mem_cons_self
      rw [snapshotsAfter, List.foldl_append, List.foldl_cons, List.foldl_nil, afterBackup, ← snapshotsAfter] at hentry
      split at hentry
      next hmade =>
        split at hentry
        next =>
          obtain ⟨old, ho, rfl⟩ := List.mem_map.mp hentry
          by_cases hname : old.name = c.directory
          · rw [if_pos hname]
            exact ⟨c, hlast, hmade, hname.symm, rfl⟩
          · rw [if_neg hname]
            exact hold old ho
        next =>
          rcases List.mem_append.mp hentry with ho | hnew
          · exact hold entry ho
          · rw [List.mem_singleton.mp hnew]
            exact ⟨c, hlast, hmade, rfl, rfl⟩
      next => exact hold entry hentry

/-- The last call of a history has made a directory of its own, after all the others. -/
structure Newest (history : List Backup) (b : Backup) : Prop where
  made : b.makesDirectory = true
  named : ∀ c ∈ history, c.makesDirectory = true → c.directory ≠ b.directory
  latest : ∀ c ∈ history, c.makesDirectory = true → c.modified < b.modified

theorem selected_last {history : List Backup} {b : Backup} (h : Newest history b) {entries : List Snapshot}
    (hentries : entries.Perm (snapshotsAfter utilityImage services (history ++ [b]))) :
    selected entries none =
      some ⟨b.directory, b.modified, true, addTars utilityImage services b fun _ => none⟩ := by
  have hnew : b.directory ∉ (snapshotsAfter utilityImage services history).map Snapshot.name := by
    intro hin
    obtain ⟨entry, hentry, hname⟩ := List.mem_map.mp hin
    obtain ⟨c, hc, hmade, hdirectory, -⟩ := entry_of_backup history entry hentry
    exact h.named c hc hmade (hdirectory.trans hname)
  rw [snapshotsAfter, List.foldl_append, List.foldl_cons, List.foldl_nil, ← snapshotsAfter, afterBackup,
    if_pos h.made, if_neg hnew] at hentries
  refine selected_newest hentries (fun entry hentry => ?_) hnew
  obtain ⟨c, hc, hmade, -, htime⟩ := entry_of_backup history entry hentry
  rw [← htime]
  exact h.latest c hc hmade

/-- The status of a `tar xvf` is not looked at: what is extracted is there where the volume's
runs all exit with 0, and anything may be there otherwise. -/
def left (services : List StatefulService) (exits : Nat → Nat) (damaged extracted : Volumes) : Volumes :=
  fun volume =>
    if ∀ i < (volumesOf services).length, (volumesOf services)[i]? = some volume → exits i = 0 then
      extracted volume
    else damaged volume

/-- A snapshot and a restore, with anything in between, leave the volumes as they were. -/
theorem snapshot_restored {history : List Backup} {b : Backup} (h : Newest history b) {before : Volumes}
    (hsaved : ∀ volume ∈ volumesOf services, b.Exits utilityImage services volume 0 ∧
      before volume = some (b.tarFiles volume))
    {entries : List Snapshot} (hentries : entries.Perm (snapshotsAfter utilityImage services (history ++ [b])))
    {env : RestoreExternals} {volumes : Volumes} {managedImages : Option (List String)}
    (hok : (call (restoreSnapshot env utilityImage entries services none) (found volumes managedImages)).1 = .ok ())
    (hremoved : ∀ volume ∈ volumesOf services,
      volume ∈ removedVolumes env.stack.removeVolume 0 volumes (volumesOf services))
    {exits : Nat → Nat} (hexits : ∀ i < (volumesOf services).length, exits i = 0) (damaged : Volumes)
    (volume : String) :
    left services exits damaged
        (call (restoreSnapshot env utilityImage entries services none) (found volumes managedImages)).2.volumes
        volume =
      if volume ∈ volumesOf services then before volume else volumes volume := by
  rw [left, if_pos fun i hi _ => hexits i hi]
  have hfinal := (call_restoreSnapshot_ok env utilityImage entries services none volumes managedImages).2 hok
  have hselected := selected_last h hentries
  rw [hfinal, contents]
  by_cases hvolume : volume ∈ volumesOf services
  · obtain ⟨hsaves, hbefore⟩ := hsaved volume hvolume
    have htar : tarOf entries (chosenName entries none) volume = some (b.tarFiles volume) := by
      have hfound : tarOf entries (chosenName entries none) volume =
          (selected entries none).bind fun entry => entry.tars volume := rfl
      rw [hfound, hselected, Option.bind_some]
      have hexit := (Backup.lastExit_runs_iff utilityImage services h.made volume 0).mpr hsaves
      simp only [addTars, hexit, if_pos]
    rw [if_pos hvolume, if_pos hvolume, if_pos (hremoved volume hvolume), htar, hbefore, Option.getD_some,
      Option.getD_none, Option.some_inj, extract_eq_iff]
    intro name hname
    cases hname
  · have hnot : volume ∉ removedVolumes env.stack.removeVolume 0 volumes (volumesOf services) := by
      intro hin
      exact hvolume (removedVolumes_subset _ _ _ _ volume hin)
    rw [if_neg hvolume, if_neg hvolume, if_neg hnot]

end RoundTrip

def finishedLater : Backup :=
  { finished with
    now := 1700000060000
    modified := 1700000060000 }

theorem finishedLater_newest : Newest [interrupted] finishedLater where
  made := by decide +kernel
  named := by decide +kernel
  latest := by decide +kernel

def changedVolume : Volumes := fun volume =>
  if volume = "cg_postgres-data" then some fun name => if name = "base/16384" then some "rows" else none
  else none

theorem finishedLater_restored :
    left [postgresService "cg"] (fun _ => 0) changedVolume
        (call (restoreSnapshot succeeding "alpine:3.12.0"
          (snapshotsAfter "alpine:3.12.0" [postgresService "cg"] ([interrupted] ++ [finishedLater]))
          [postgresService "cg"] none) (found changedVolume none)).2.volumes "cg_postgres-data" =
      if "cg_postgres-data" ∈ volumesOf [postgresService "cg"] then databaseVolume "cg_postgres-data"
      else changedVolume "cg_postgres-data" := by
  refine snapshot_restored finishedLater_newest (fun volume hvolume => ?_) (List.Perm.refl _) (by decide +kernel)
    (by decide +kernel) (fun i _ => rfl) changedVolume "cg_postgres-data"
  obtain rfl : volume = "cg_postgres-data" := List.mem_singleton.mp hvolume
  refine ⟨⟨⟨_, rfl, Or.inl (by decide)⟩, 0, rfl, rfl, fun j _ => ⟨0, rfl⟩, fun k hk hname => ?_⟩, rfl⟩
  rw [List.getElem?_eq_none (Nat.succ_le_of_lt hk)] at hname
  cases hname

end CardanoGraphql.SnapshotRoundTrip
