import Mathlib.Data.List.Induction
import CardanoGraphql.DockerRestore

namespace CardanoGraphql.SnapshotHistory

open Fallible DockerStack DockerRestore

/-- A call of `makeSnapshot`: the clock when it names its directory, the time that the
directory is left with, and what a tar of each volume holds when it ends with 0. -/
structure Backup where
  env : Externals
  managedImages : Option (List String)
  now : Nat
  modified : Nat
  tarFiles : String → Files

def Backup.directory (b : Backup) : String := toString b.now

def Backup.makesDirectory (b : Backup) : Bool :=
  match b.env.currentState .beforeSnapshot, stopOutcome b.env, b.env.initSnapshot with
  | .ok _, .ok _, .ok _ => true
  | _, _, _ => false

/-- The exit status of the last run for a volume. -/
def lastExit : List (String × Nat) → String → Option Nat
  | [], _ => none
  | run :: runs, volume => (lastExit runs volume).or (if run.1 = volume then some run.2 else none)

/-- The last run for the volume, of those before the first that does not start, exits with
the status. -/
def ExitsWith (run : Nat → Except String Nat) (n : Nat) (volumes : List String) (volume : String)
    (status : Nat) : Prop :=
  ∃ i, volumes[i]? = some volume ∧ run (n + i) = .ok status ∧ (∀ j < i, ∃ exit, run (n + j) = .ok exit) ∧
    ∀ k > i, volumes[k]? = some volume → ∃ j ≤ k, ∃ e, run (n + j) = .error e

theorem lastExit_eq_none_iff (runs : List (String × Nat)) (volume : String) :
    lastExit runs volume = none ↔ volume ∉ runs.map Prod.fst := by
  induction runs with
  | nil => simp [lastExit]
  | cons run runs ih =>
      rw [lastExit, Option.or_eq_none_iff, ih, List.map_cons, List.mem_cons, not_or]
      by_cases hrun : run.1 = volume
      · simp [hrun]
      · simp [hrun, Ne.symm hrun]

/-- No run for the volume comes before the first that does not start. -/
def Unreached (run : Nat → Except String Nat) (n : Nat) (volumes : List String) (volume : String) : Prop :=
  ∀ k, volumes[k]? = some volume → ∃ j ≤ k, ∃ e, run (n + j) = .error e

theorem lastExit_tarsBy_eq_none_iff (run : Nat → Except String Nat) (n : Nat) (volumes : List String)
    (volume : String) :
    lastExit (tarsBy run n volumes) volume = none ↔ Unreached run n volumes volume := by
  rw [lastExit_eq_none_iff, mem_tarsBy]
  have hstarts : ∀ i, (∃ exit, run i = .ok exit) ↔ ¬ ∃ e, run i = .error e := by
    intro i
    cases run i with
    | error e => simp
    | ok exit => simp
  simp only [hstarts]
  push Not
  rfl

theorem not_exitsWith {run : Nat → Except String Nat} {n : Nat} {e : String} (hr : run n = .error e)
    (volumes : List String) (volume : String) (status : Nat) : ¬ ExitsWith run n volumes volume status := by
  rintro ⟨i, -, hrun, hearlier, -⟩
  cases i with
  | zero =>
      rw [Nat.add_zero, hr] at hrun
      cases hrun
  | succ i =>
      obtain ⟨exit, hfirst⟩ := hearlier 0 (Nat.succ_pos i)
      rw [Nat.add_zero, hr] at hfirst
      cases hfirst

theorem unreached_later {run : Nat → Except String Nat} {n exit : Nat} (hr : run n = .ok exit) (first : String)
    {volumes : List String} {volume : String} {i : Nat}
    (h : ∀ k > i, (first :: volumes)[k]? = some volume → ∃ j ≤ k, ∃ e, run (n + j) = .error e)
    {k : Nat} (hk : i < k + 1) (hvolume : volumes[k]? = some volume) :
    ∃ j ≤ k, ∃ e, run (n + 1 + j) = .error e := by
  obtain ⟨j, hj, e, he⟩ := h (k + 1) hk hvolume
  cases j with
  | zero =>
      rw [Nat.add_zero, hr] at he
      cases he
  | succ j => exact ⟨j, by omega, e, (congrArg run (by omega)).trans he⟩

/-- The last run for a volume is a later one, or the first where none comes after it. -/
theorem exitsWith_cons_iff {run : Nat → Except String Nat} {n exit : Nat} (hr : run n = .ok exit) (first : String)
    (volumes : List String) (volume : String) (status : Nat) :
    ExitsWith run n (first :: volumes) volume status ↔
      ExitsWith run (n + 1) volumes volume status ∨
        Unreached run (n + 1) volumes volume ∧ first = volume ∧ exit = status := by
  have hshift : ∀ j, n + (j + 1) = n + 1 + j := fun j => by omega
  constructor
  · rintro ⟨i, hi, hrun, hearlier, hlast⟩
    cases i with
    | zero =>
        right
        rw [Nat.add_zero, hr] at hrun
        exact ⟨fun k hvolume => unreached_later hr first hlast (Nat.succ_pos k) hvolume, Option.some.inj hi,
          Except.ok.inj hrun⟩
    | succ i =>
        left
        refine ⟨i, hi, by rw [← hshift]; exact hrun, fun j hj => ?_, fun k hk => ?_⟩
        · rw [← hshift]
          exact hearlier (j + 1) (by omega)
        · exact unreached_later hr first hlast (by omega)
  · rintro (⟨i, hi, hrun, hearlier, hlast⟩ | ⟨hlast, rfl, rfl⟩)
    · refine ⟨i + 1, hi, by rw [hshift]; exact hrun, fun j hj => ?_, fun k hk hvolume => ?_⟩
      · cases j with
        | zero => exact ⟨exit, hr⟩
        | succ j =>
            rw [hshift]
            exact hearlier j (by omega)
      · obtain ⟨k, rfl⟩ : ∃ k', k = k' + 1 := ⟨k - 1, by omega⟩
        obtain ⟨j, hj, e, he⟩ := hlast k (by omega) hvolume
        exact ⟨j + 1, by omega, e, by rw [hshift]; exact he⟩
    · refine ⟨0, rfl, hr, fun j hj => absurd hj (Nat.not_lt_zero j), fun k hk hvolume => ?_⟩
      obtain ⟨k, rfl⟩ : ∃ k', k = k' + 1 := ⟨k - 1, by omega⟩
      obtain ⟨j, hj, e, he⟩ := hlast k hvolume
      exact ⟨j + 1, by omega, e, by rw [hshift]; exact he⟩

theorem lastExit_tarsBy_iff (run : Nat → Except String Nat) (n : Nat) (volumes : List String)
    (volume : String) (status : Nat) :
    lastExit (tarsBy run n volumes) volume = some status ↔ ExitsWith run n volumes volume status := by
  induction volumes generalizing n with
  | nil => simp [tarsBy, lastExit, ExitsWith]
  | cons first volumes ih =>
      rw [tarsBy]
      cases hr : run n with
      | error e => exact iff_of_false (by simp [lastExit]) (not_exitsWith hr _ volume status)
      | ok exit =>
          rw [exitsWith_cons_iff hr, lastExit, Option.or_eq_some_iff, ih, lastExit_tarsBy_eq_none_iff,
            Option.ite_none_right_eq_some, Option.some_inj]

section History

variable (utilityImage : String) (services : List StatefulService)

/-- The runs of `tar` that the call has made when it ends, in whatever way. -/
def Backup.runs (b : Backup) : List (String × Nat) :=
  (exec (makeSnapshot b.env utilityImage services) (fresh b.managedImages)).tars

/-- `tar cvf` opens the archive anew, so that a run which does not exit with 0 leaves no
complete tar of its volume, though there was one before. -/
def addTars (b : Backup) (tars : Volumes) : Volumes := fun volume =>
  match lastExit (b.runs utilityImage services) volume with
  | none => tars volume
  | some status => if status = 0 then some (b.tarFiles volume) else none

/-- The snapshots directory after a call; a directory that is there is written to again. -/
def afterBackup (entries : List Snapshot) (b : Backup) : List Snapshot :=
  if b.makesDirectory then
    if b.directory ∈ entries.map Snapshot.name then
      entries.map fun entry =>
        if entry.name = b.directory then
          { entry with time := b.modified, tars := addTars utilityImage services b entry.tars }
        else entry
    else
      entries ++ [⟨b.directory, b.modified, true, addTars utilityImage services b fun _ => none⟩]
  else entries

def snapshotsAfter (history : List Backup) : List Snapshot :=
  history.foldl (afterBackup utilityImage services) []

structure Backup.Exits (b : Backup) (volume : String) (status : Nat) : Prop where
  image : ImageAvailable b.env utilityImage
  run : ExitsWith b.env.run 0 (volumesOf services) volume status

/-- A call that wrote to the directory has made the tar, and none since has failed over it. -/
def MakesTar (history : List Backup) (name volume : String) : Prop :=
  ∃ earlier b later, history = earlier ++ b :: later ∧ b.makesDirectory = true ∧ b.directory = name ∧
    b.Exits utilityImage services volume 0 ∧
    ∀ c ∈ later, c.makesDirectory = true → c.directory = name → ∀ status,
      c.Exits utilityImage services volume status → status = 0

theorem Backup.lastExit_runs_iff {b : Backup} (h : b.makesDirectory = true) (volume : String) (status : Nat) :
    lastExit (b.runs utilityImage services) volume = some status ↔ b.Exits utilityImage services volume status := by
  obtain ⟨st, hasked, hstop, path, hinit⟩ : ∃ st, b.env.currentState .beforeSnapshot = .ok st ∧
      stopOutcome b.env = .ok () ∧ ∃ path, b.env.initSnapshot = .ok path := by
    rw [Backup.makesDirectory] at h
    split at h
    · next st _ path hasked hstop hinit => exact ⟨st, hasked, hstop, path, hinit⟩
    · cases h
  obtain ⟨tars, images, hexec, hmade, htars⟩ :=
    exec_dockerMakeSnapshot b.env utilityImage services b.managedImages
  rw [Backup.runs, tars_makeSnapshot b.env utilityImage services b.managedImages hasked hstop, hexec]
  constructor
  · intro hexit
    have hsome : tars ≠ [] := by
      rintro rfl
      cases hexit
    obtain ⟨-, himage, rfl⟩ := htars hsome
    exact ⟨himage, (lastExit_tarsBy_iff _ 0 _ volume status).mp hexit⟩
  · intro hexits
    rw [hmade ⟨path, hinit⟩ hexits.image]
    exact (lastExit_tarsBy_iff _ 0 _ volume status).mpr hexits.run

open Classical in
theorem makesTar_append (history : List Backup) (b : Backup) (name volume : String) :
    MakesTar utilityImage services (history ++ [b]) name volume ↔
      if b.makesDirectory = true ∧ b.directory = name ∧
          ∃ status, b.Exits utilityImage services volume status then
        b.Exits utilityImage services volume 0
      else MakesTar utilityImage services history name volume := by
  constructor
  · rintro ⟨earlier, c, later, hhistory, hcmade, hcname, hexits, hlater⟩
    rcases List.eq_nil_or_concat later with rfl | ⟨later, d, rfl⟩
    · obtain ⟨rfl, hlast⟩ := List.append_inj' hhistory rfl
      obtain rfl := List.head_eq_of_cons_eq hlast
      rw [if_pos ⟨hcmade, hcname, 0, hexits⟩]
      exact hexits
    · rw [List.concat_eq_append, ← List.cons_append, ← List.append_assoc] at hhistory
      obtain ⟨rfl, hlast⟩ := List.append_inj' hhistory rfl
      obtain rfl := List.head_eq_of_cons_eq hlast
      rw [List.concat_eq_append] at hlater
      split
      next hwrites =>
        obtain ⟨hmade, hname, status, hstatus⟩ := hwrites
        have hzero := hlater b (List.mem_append_right _ List.mem_cons_self) hmade hname status hstatus
        exact hzero ▸ hstatus
      next =>
        exact ⟨earlier, c, later, rfl, hcmade, hcname, hexits,
          fun d hd => hlater d (List.mem_append_left _ hd)⟩
  · intro h
    split at h
    next hwrites =>
      exact ⟨history, b, [], rfl, hwrites.1, hwrites.2.1, h, fun d hd => absurd hd List.not_mem_nil⟩
    next hnot =>
      obtain ⟨earlier, c, later, rfl, hcmade, hcname, hexits, hlater⟩ := h
      have hsplit : earlier ++ c :: later ++ [b] = earlier ++ c :: (later ++ [b]) := List.append_assoc _ _ _
      refine ⟨earlier, c, later ++ [b], hsplit, hcmade, hcname, hexits, ?_⟩
      intro d hd hdmade hdname status hstatus
      rcases List.mem_append.mp hd with hd | hd
      · exact hlater d hd hdmade hdname status hstatus
      · obtain rfl := List.mem_singleton.mp hd
        exact absurd ⟨hdmade, hdname, status, hstatus⟩ hnot

structure Records (history : List Backup) (entries : List Snapshot) : Prop where
  directories : ∀ entry ∈ entries, entry.isDirectory = true
  tars : ∀ entry ∈ entries, ∀ volume,
    (entry.tars volume).isSome = true ↔ MakesTar utilityImage services history entry.name volume
  named : ∀ b ∈ history, b.makesDirectory = true → b.directory ∈ entries.map Snapshot.name

open Classical in
theorem addTars_isSome_iff {b : Backup} (hmade : b.makesDirectory = true) (tars : Volumes) (volume : String) :
    (addTars utilityImage services b tars volume).isSome = true ↔
      if ∃ status, b.Exits utilityImage services volume status then b.Exits utilityImage services volume 0
      else (tars volume).isSome = true := by
  have hexits := Backup.lastExit_runs_iff utilityImage services hmade volume
  simp only [← hexits]
  rw [addTars]
  cases hlast : lastExit (b.runs utilityImage services) volume with
  | none => simp
  | some status =>
      rw [if_pos ⟨status, rfl⟩, Option.some_inj]
      split <;> simp_all

theorem records_writtenAgain {history : List Backup} {entries : List Snapshot}
    (h : Records utilityImage services history entries) {b : Backup} (hmade : b.makesDirectory = true)
    (hknown : b.directory ∈ entries.map Snapshot.name) :
    Records utilityImage services (history ++ [b]) (entries.map fun entry =>
      if entry.name = b.directory then
        { entry with time := b.modified, tars := addTars utilityImage services b entry.tars }
      else entry) := by
  refine ⟨?_, ?_, ?_⟩
  · rw [List.forall_mem_map]
    intro entry hentry
    split <;> exact h.directories entry hentry
  · rw [List.forall_mem_map]
    intro entry hentry volume
    by_cases hname : entry.name = b.directory
    · rw [if_pos hname, makesTar_append, addTars_isSome_iff utilityImage services hmade, h.tars entry hentry]
      by_cases hexits : ∃ status, b.Exits utilityImage services volume status
      · rw [if_pos hexits, if_pos ⟨hmade, hname.symm, hexits⟩]
      · rw [if_neg hexits, if_neg fun h => hexits h.2.2]
    · rw [if_neg hname, makesTar_append, h.tars entry hentry]
      simp [Ne.symm hname]
  · intro c hc hcmade
    have hnames : (entries.map fun entry =>
        if entry.name = b.directory then
          { entry with time := b.modified, tars := addTars utilityImage services b entry.tars }
        else entry).map Snapshot.name = entries.map Snapshot.name := by
      rw [List.map_map]
      apply List.map_congr_left
      intro entry _
      by_cases hname : entry.name = b.directory <;> simp [hname]
    rw [hnames]
    rcases List.mem_append.mp hc with hc | hc
    · exact h.named c hc hcmade
    · rw [List.mem_singleton.mp hc]
      exact hknown

theorem records_added {history : List Backup} {entries : List Snapshot}
    (h : Records utilityImage services history entries) {b : Backup} (hmade : b.makesDirectory = true)
    (hnew : b.directory ∉ entries.map Snapshot.name) :
    Records utilityImage services (history ++ [b])
      (entries ++ [⟨b.directory, b.modified, true, addTars utilityImage services b fun _ => none⟩]) := by
  refine ⟨?_, ?_, ?_⟩
  · intro entry hentry
    rcases List.mem_append.mp hentry with hentry | hentry
    · exact h.directories entry hentry
    · rw [List.mem_singleton.mp hentry]
  · intro entry hentry volume
    rw [makesTar_append]
    rcases List.mem_append.mp hentry with hentry | hentry
    · have hother : b.directory ≠ entry.name := by
        intro hname
        exact hnew (hname ▸ List.mem_map_of_mem hentry)
      rw [h.tars entry hentry]
      simp [hother]
    · have hfresh : ¬ MakesTar utilityImage services history b.directory volume := by
        rintro ⟨earlier, c, later, rfl, hcmade, hcname, -⟩
        exact hnew (hcname ▸ h.named c (List.mem_append_right _ List.mem_cons_self) hcmade)
      rw [List.mem_singleton.mp hentry, addTars_isSome_iff utilityImage services hmade]
      simp [hmade, hfresh]
  · intro c hc hcmade
    rw [List.map_append]
    rcases List.mem_append.mp hc with hc | hc
    · exact List.mem_append_left _ (h.named c hc hcmade)
    · rw [List.mem_singleton.mp hc]
      exact List.mem_append_right _ List.mem_cons_self

theorem records_afterBackup {history : List Backup} {entries : List Snapshot}
    (h : Records utilityImage services history entries) (b : Backup) :
    Records utilityImage services (history ++ [b]) (afterBackup utilityImage services entries b) := by
  rw [afterBackup]
  split
  next hmade =>
    split
    next hknown => exact records_writtenAgain utilityImage services h hmade hknown
    next hnew => exact records_added utilityImage services h hmade hnew
  next hnot =>
    refine ⟨h.directories, ?_, ?_⟩
    · intro entry hentry volume
      rw [makesTar_append, h.tars entry hentry]
      simp [hnot]
    · intro c hc hcmade
      rcases List.mem_append.mp hc with hc | hc
      · exact h.named c hc hcmade
      · rw [List.mem_singleton.mp hc] at hcmade
        exact absurd hcmade hnot

theorem records_snapshotsAfter (history : List Backup) :
    Records utilityImage services history (snapshotsAfter utilityImage services history) := by
  induction history using List.reverseRecOn with
  | nil =>
      refine ⟨?_, ?_, ?_⟩
      · exact fun entry h => absurd h List.not_mem_nil
      · exact fun entry h => absurd h List.not_mem_nil
      · exact fun b h => absurd h List.not_mem_nil
  | append_singleton history b ih =>
      rw [snapshotsAfter, List.foldl_append]
      exact records_afterBackup utilityImage services ih b

end History

structure Complete (services : List StatefulService) (entry : Snapshot) : Prop where
  directory : entry.isDirectory = true
  tars : ∀ volume ∈ volumesOf services, (entry.tars volume).isSome = true

section Restore

variable (env : RestoreExternals) (utilityImage : String) (services : List StatefulService)
  (entries : List Snapshot) (snapshotName : Option String) (volumes : Volumes)

def RefusesIncomplete (managedImages : Option (List String)) : Prop :=
  (exec (restoreSnapshot env utilityImage entries services snapshotName)
      (found volumes managedImages)).docker.removed ≠ [] →
    ∃ entry, selected entries snapshotName = some entry ∧ Complete services entry

structure RemovesVolume : Prop where
  reaches : ReachesVolumes env entries snapshotName
  first : ∃ name, (volumesOf services).head? = some name ∧ (volumes name).isSome = true ∧
    env.stack.removeVolume 0 = .ok ()

theorem removedVolumes_ne_nil_iff (remove : Nat → Except String Unit) (names : List String) :
    removedVolumes remove 0 volumes names ≠ [] ↔
      ∃ name, names.head? = some name ∧ (volumes name).isSome = true ∧ remove 0 = .ok () := by
  cases names with
  | nil => simp [removedVolumes]
  | cons name names =>
      rw [removedVolumes]
      cases hvolume : volumes name with
      | none => simp [hvolume]
      | some files =>
          cases hremove : remove 0 with
          | error e => simp
          | ok u => simp [hvolume]

theorem removes_iff (managedImages : Option (List String)) :
    (exec (restoreSnapshot env utilityImage entries services snapshotName)
        (found volumes managedImages)).docker.removed ≠ [] ↔
      RemovesVolume env services entries snapshotName volumes := by
  rcases removed_restoreSnapshot env utilityImage entries services snapshotName volumes managedImages with
    ⟨hreaches, hremoved⟩ | ⟨hnot, hremoved⟩
  · rw [hremoved, removedVolumes_ne_nil_iff]
    exact ⟨fun h => ⟨hreaches, h⟩, fun h => h.first⟩
  · rw [hremoved]
    exact iff_of_false (fun h => h rfl) fun h => hnot h.reaches

theorem selected_spec {entry : Snapshot} (h : selected entries snapshotName = some entry) :
    entry ∈ entries ∧ chosenName entries snapshotName = some entry.name := by
  obtain ⟨name, hname, hentry⟩ := Option.bind_eq_some_iff.mp h
  rw [entryNamed] at hentry
  have hfound : entry.name = name := by simpa using List.find?_some hentry
  exact ⟨List.mem_of_find?_eq_some hentry, hname.trans (congrArg some hfound.symm)⟩

/-- A restore that comes to remove a volume has a tar of each only where the calls that
wrote to the selected directory have made them all. -/
theorem refuses_incomplete_iff {history : List Backup}
    (hentries : entries.Perm (snapshotsAfter utilityImage services history))
    (managedImages : Option (List String)) :
    RefusesIncomplete env utilityImage services entries snapshotName volumes managedImages ↔
      (RemovesVolume env services entries snapshotName volumes →
        ∀ name, chosenName entries snapshotName = some name → ∀ volume ∈ volumesOf services,
          MakesTar utilityImage services history name volume) := by
  have hrecords := records_snapshotsAfter utilityImage services history
  rw [RefusesIncomplete, removes_iff]
  constructor
  · intro h hremoves name hname volume hvolume
    obtain ⟨entry, hselected, hcomplete⟩ := h hremoves
    obtain ⟨hmem, hchosen⟩ := selected_spec entries snapshotName hselected
    obtain rfl : name = entry.name := Option.some.inj (hname.symm.trans hchosen)
    exact (hrecords.tars entry (hentries.mem_iff.mp hmem) volume).mp (hcomplete.tars volume hvolume)
  · intro h hremoves
    obtain ⟨entry, hselected, hdirectory⟩ := hremoves.reaches.valid
    obtain ⟨hmem, hchosen⟩ := selected_spec entries snapshotName hselected
    refine ⟨entry, hselected, hdirectory, fun volume hvolume => ?_⟩
    exact (hrecords.tars entry (hentries.mem_iff.mp hmem) volume).mpr
      (h hremoves entry.name hchosen volume hvolume)

end Restore

def succeeding : RestoreExternals :=
  { stack := fullDisk
    readdir := .ok ()
    createVolume := fun _ => .ok ()
    run := fun _ => .ok () }

def databaseFiles : Files := fun name => if name = "PG_VERSION" then some "11" else none

def databaseVolume : Volumes := fun volume => if volume = "cg_postgres-data" then some databaseFiles else none

def interrupted : Backup :=
  { env := { fullDisk with
      initSnapshot := .ok "snapshots/1700000000000"
      listImages := .error "connect ECONNREFUSED /var/run/docker.sock" }
    managedImages := none
    now := 1700000000000
    modified := 1700000000000
    tarFiles := fun _ => databaseFiles }

def finished : Backup :=
  { interrupted with env := { fullDisk with initSnapshot := .ok "snapshots/1700000000000" } }

theorem interrupted_restored :
    (exec (restoreSnapshot succeeding "alpine:3.12.0"
        (snapshotsAfter "alpine:3.12.0" [postgresService "cg"] [interrupted]) [postgresService "cg"] none)
        (found databaseVolume none)).docker.removed = ["cg_postgres-data"] ∧
      ¬ RefusesIncomplete succeeding "alpine:3.12.0" [postgresService "cg"]
        (snapshotsAfter "alpine:3.12.0" [postgresService "cg"] [interrupted]) none databaseVolume none := by
  have hremoved : (exec (restoreSnapshot succeeding "alpine:3.12.0"
      (snapshotsAfter "alpine:3.12.0" [postgresService "cg"] [interrupted]) [postgresService "cg"] none)
      (found databaseVolume none)).docker.removed = ["cg_postgres-data"] := by
    decide +kernel
  have htar : ((selected (snapshotsAfter "alpine:3.12.0" [postgresService "cg"] [interrupted]) none).bind
      fun entry => entry.tars "cg_postgres-data").isSome = false := by
    decide +kernel
  refine ⟨hremoved, fun h => ?_⟩
  obtain ⟨entry, hselected, hcomplete⟩ := h (by rw [hremoved]; decide)
  rw [hselected, Option.bind_some, hcomplete.tars _ (by decide)] at htar
  cases htar

theorem finished_restorable :
    RefusesIncomplete succeeding "alpine:3.12.0" [postgresService "cg"]
      (snapshotsAfter "alpine:3.12.0" [postgresService "cg"] [finished]) none databaseVolume none := by
  apply (refuses_incomplete_iff succeeding "alpine:3.12.0" [postgresService "cg"] _ none databaseVolume
    (List.Perm.refl (snapshotsAfter "alpine:3.12.0" [postgresService "cg"] [finished])) none).mpr
  intro _ name hname volume hvolume
  have hchosen : chosenName (snapshotsAfter "alpine:3.12.0" [postgresService "cg"] [finished]) none =
      some finished.directory := by
    decide +kernel
  obtain rfl : name = finished.directory := Option.some.inj (hname.symm.trans hchosen)
  obtain rfl : volume = "cg_postgres-data" := List.mem_singleton.mp hvolume
  have hexits : finished.Exits "alpine:3.12.0" [postgresService "cg"] "cg_postgres-data" 0 :=
    ⟨⟨_, rfl, Or.inl (by decide)⟩, 0, rfl, rfl, fun j _ => ⟨0, rfl⟩, fun k hk hvolume => by
      rw [List.getElem?_eq_none (Nat.succ_le_of_lt hk)] at hvolume
      cases hvolume⟩
  exact ⟨[], finished, [], rfl, by decide +kernel, rfl, hexits, fun c hc => absurd hc List.not_mem_nil⟩

end CardanoGraphql.SnapshotHistory
