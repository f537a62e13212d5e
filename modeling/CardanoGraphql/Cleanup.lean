import CardanoGraphql.CliHost
import CardanoGraphql.Tasks

namespace CardanoGraphql.Cleanup

open Runs Tasks ComposeFile DockerStack CliHost

structure Process where
  host : CliHost
  waiting : Nat
  exited : Bool
deriving DecidableEq, Repr

/-- Where `DockerStore.cleanup` and `DockerClient.cleanup` wait; the `finally` block is the
same whether something was thrown before it or not. -/
inductive Await
  | statSecrets (dir : Location)
  | removeLocalConfig (dir : Location)
  | statCompose (path : Location)
  | removeCompose (path : Location)
  | removeConfigDir (failed : Bool)
  | removeImage (imageId : String) (rest : List String)
deriving DecidableEq, Repr

inductive Variant
  | forced
  | confirmed
deriving DecidableEq, Repr

section Command

variable (cwd configDir : Location)

def localConfigDir (h : CliHost) : Option Location :=
  h.host.conf.workingDirectory.map fun wd => resolve cwd (join wd ["config"])

/-- `path.join` throws where there is no directory. -/
def storeCleanup (h : CliHost) : Await :=
  match secretsDir cwd h.host with
  | none => .removeConfigDir true
  | some dir => .statSecrets dir

def cleanupCompose (h : CliHost) : Await :=
  if h.host.conf.compose.isNone then .removeConfigDir false
  else
    match dockerComposeFilePath cwd h.host with
    | none => .removeConfigDir true
    | some path => .statCompose path

def onSecretsStat (h : CliHost) : Option Entry → Await
  | none => .removeConfigDir true
  | some .file => cleanupCompose cwd h
  | some .directory =>
      match localConfigDir cwd h with
      | none => .removeConfigDir true
      | some dir => .removeLocalConfig dir

def onComposeStat (path : Location) : Option Entry → Await
  | none => .removeConfigDir true
  | some .file => .removeCompose path
  | some .directory => .removeConfigDir false

def resolved (p : Process) : Process :=
  if p.waiting ≤ 1 then { p with waiting := 0, exited := true } else { p with waiting := p.waiting - 1 }

/-- What is rejected is caught where the program starts, and ends the process. -/
def rejected (p : Process) : Process := { p with exited := true }

def removeImages : List String → Option Await
  | [] => none
  | imageId :: rest => some (.removeImage imageId rest)

def afterImage (p : Process) (imageId : String) (rest : List String) : Process × Option Await :=
  if imageId ∈ p.host.images.map ImageInfo.id then
    let h := p.host
    let q := { p with host := { h with images := h.images.filter fun image => decide (image.id ≠ imageId) } }
    match removeImages rest with
    | none => (resolved q, none)
    | some k => (q, some k)
  else (rejected p, none)

def advance (p : Process) : Await → Process × Option Await
  | .statSecrets dir => (p, some (onSecretsStat cwd p.host (stat configDir p.host dir)))
  | .removeLocalConfig dir =>
      let h := remove configDir p.host dir
      ({ p with host := h }, some (cleanupCompose cwd h))
  | .statCompose path => (p, some (onComposeStat path (stat configDir p.host path)))
  | .removeCompose path => ({ p with host := remove configDir p.host path }, some (.removeConfigDir false))
  | .removeConfigDir failed =>
      let q := { p with host := remove configDir p.host configDir }
      (if failed then rejected q else resolved q, none)
  | .removeImage imageId rest => afterImage p imageId rest

def command : Machine Process Await Empty Unit where
  call i := i.elim
  resume k _ p := if p.exited then none else some (advance cwd configDir p k)

/-- Without the prompt the images stay; with it, both are cleaned up at once. -/
def started (h : CliHost) : Variant → World Process Await
  | .forced => ⟨⟨h, 1, false⟩, [storeCleanup cwd h]⟩
  | .confirmed =>
      match removeImages (h.managedImages.getD []) with
      | none => ⟨⟨h, 1, false⟩, [storeCleanup cwd h]⟩
      | some k => ⟨⟨h, 2, false⟩, [k, storeCleanup cwd h]⟩

def Ends (v : Variant) (h h' : CliHost) : Prop :=
  ∃ es w, run (step (command cwd configDir)) (started cwd h v) es = some w ∧
    w.shared.exited = true ∧ w.shared.host = h'

/-- Nothing is left of what the tool has created, stored and pulled, and all of the rest. -/
structure Clean (h h' : CliHost) : Prop where
  created : h'.host.files = []
  stored : stored h' = false
  images : ∀ imageId ∈ h.managedImages.getD [], imageId ∉ h'.images.map ImageInfo.id
  userFiles : ∀ file ∈ h.userFiles, file ∈ h'.userFiles

structure Cleaned (h : CliHost) : Prop where
  ends : ∀ v es w, run (step (command cwd configDir)) (started cwd h v) es = some w →
    ∃ es' w', run (step (command cwd configDir)) w es' = some w' ∧ w'.shared.exited = true
  clean : ∀ v h', Ends cwd configDir v h h' → Clean h h'
  same : ∀ h₁ h₂, Ends cwd configDir .forced h h₁ → Ends cwd configDir .confirmed h h₂ → h₁ = h₂

def configPath (place : Location) : Location := place ++ ["config"]

structure FindsCompose (h : CliHost) (place : Location) : Prop where
  secrets : stat configDir h (secretsPath place) ≠ none
  kept : stat configDir h (secretsPath place) = some .directory → ¬ configPath place <+: confPath configDir
  recorded : h.host.conf.compose.isSome = true
  file : stat configDir h (composePath place) = some .file

inductive Reached (h : CliHost) (path : Location) : Prop
  | stored (below : configDir <+: path)
  | localConfig {wd : PathText} (directory : h.host.conf.workingDirectory = some wd)
      (secrets : stat configDir h (secretsPath (resolve cwd wd)) = some .directory)
      (below : configPath (resolve cwd wd) <+: path)
  | compose {wd : PathText} (directory : h.host.conf.workingDirectory = some wd)
      (finds : FindsCompose configDir h (resolve cwd wd)) (below : composePath (resolve cwd wd) <+: path)

structure Tidy (h : CliHost) : Prop where
  images : h.managedImages.getD [] = []
  created : ∀ file ∈ h.host.files, Reached cwd configDir h file.1
  userFiles : ∀ file ∈ h.userFiles, ¬ Reached cwd configDir h file.1

section Sequential

def sweptConfigDir (h : CliHost) : CliHost := remove configDir h configDir

def sweptCompose (h : CliHost) (path : Location) : CliHost :=
  sweptConfigDir configDir (if stat configDir h path = some .file then remove configDir h path else h)

def sweptRecorded (h : CliHost) : CliHost :=
  if h.host.conf.compose.isNone then sweptConfigDir configDir h
  else
    match dockerComposeFilePath cwd h.host with
    | none => sweptConfigDir configDir h
    | some path => sweptCompose configDir h path

def sweptSecrets (h : CliHost) (dir : Location) : CliHost :=
  match stat configDir h dir with
  | none => sweptConfigDir configDir h
  | some .file => sweptRecorded cwd configDir h
  | some .directory =>
      match localConfigDir cwd h with
      | none => sweptConfigDir configDir h
      | some config => sweptRecorded cwd configDir (remove configDir h config)

def swept (h : CliHost) : CliHost :=
  match secretsDir cwd h.host with
  | none => sweptConfigDir configDir h
  | some dir => sweptSecrets cwd configDir h dir

def rest (h : CliHost) : Await → CliHost
  | .statSecrets dir => sweptSecrets cwd configDir h dir
  | .removeLocalConfig dir => sweptRecorded cwd configDir (remove configDir h dir)
  | .statCompose path => sweptCompose configDir h path
  | .removeCompose path => sweptConfigDir configDir (remove configDir h path)
  | .removeConfigDir _ => sweptConfigDir configDir h
  | .removeImage _ _ => h

def stepsLeft : Await → Nat
  | .statSecrets _ => 5
  | .removeLocalConfig _ => 4
  | .statCompose _ => 3
  | .removeCompose _ => 2
  | .removeConfigDir _ => 1
  | .removeImage _ _ => 0

variable (h : CliHost)

theorem rest_storeCleanup : rest cwd configDir h (storeCleanup cwd h) = swept cwd configDir h := by
  rw [storeCleanup, swept]
  cases secretsDir cwd h.host <;> rfl

theorem rest_cleanupCompose : rest cwd configDir h (cleanupCompose cwd h) = sweptRecorded cwd configDir h := by
  rw [cleanupCompose, sweptRecorded]
  cases h.host.conf.compose.isNone with
  | true => rfl
  | false => cases dockerComposeFilePath cwd h.host <;> rfl

theorem rest_onSecretsStat (dir : Location) :
    rest cwd configDir h (onSecretsStat cwd h (stat configDir h dir)) = sweptSecrets cwd configDir h dir := by
  rw [sweptSecrets]
  rcases stat configDir h dir with _ | (_ | _)
  · rfl
  · exact rest_cleanupCompose cwd configDir h
  · rw [onSecretsStat]
    cases localConfigDir cwd h <;> rfl

theorem rest_onComposeStat (path : Location) :
    rest cwd configDir h (onComposeStat path (stat configDir h path)) = sweptCompose configDir h path := by
  rw [sweptCompose]
  rcases stat configDir h path with _ | (_ | _) <;> rfl

theorem stepsLeft_cleanupCompose : 0 < stepsLeft (cleanupCompose cwd h) ∧ stepsLeft (cleanupCompose cwd h) < 4 := by
  rw [cleanupCompose]
  split
  · decide
  · split <;> simp [stepsLeft]

theorem stepsLeft_storeCleanup : 0 < stepsLeft (storeCleanup cwd h) := by
  rw [storeCleanup]
  split <;> simp [stepsLeft]

theorem stepsLeft_onSecretsStat (entry : Option Entry) :
    0 < stepsLeft (onSecretsStat cwd h entry) ∧ stepsLeft (onSecretsStat cwd h entry) < 5 := by
  rcases entry with _ | (_ | _)
  · simp [onSecretsStat, stepsLeft]
  · obtain ⟨hpos, hlt⟩ := stepsLeft_cleanupCompose cwd h
    exact ⟨hpos, hlt.trans (Nat.lt_succ_self 4)⟩
  · rw [onSecretsStat]
    split <;> simp [stepsLeft]

theorem stepsLeft_onComposeStat (path : Location) (entry : Option Entry) :
    0 < stepsLeft (onComposeStat path entry) ∧ stepsLeft (onComposeStat path entry) < 3 := by
  rcases entry with _ | (_ | _) <;> simp [onComposeStat, stepsLeft]

structure Going (target : CliHost) (p : Process) (k : Await) : Prop where
  alive : p.exited = false
  alone : p.waiting ≤ 1
  store : 0 < stepsLeft k
  ahead : rest cwd configDir p.host k = target

variable {target : CliHost} {p : Process} {k : Await}

theorem advance_going (hgoing : Going cwd configDir target p k) :
    (∃ k', (advance cwd configDir p k).2 = some k' ∧ Going cwd configDir target (advance cwd configDir p k).1 k' ∧
      stepsLeft k' < stepsLeft k) ∨
    ((advance cwd configDir p k).2 = none ∧ (advance cwd configDir p k).1.exited = true ∧
      (advance cwd configDir p k).1.host = target) := by
  obtain ⟨halive, halone, hstore, rfl⟩ := hgoing
  cases k with
  | statSecrets dir =>
      obtain ⟨hpos, hlt⟩ := stepsLeft_onSecretsStat cwd p.host (stat configDir p.host dir)
      exact Or.inl ⟨_, rfl, ⟨halive, halone, hpos, rest_onSecretsStat cwd configDir p.host dir⟩, hlt⟩
  | removeLocalConfig dir =>
      obtain ⟨hpos, hlt⟩ := stepsLeft_cleanupCompose cwd (remove configDir p.host dir)
      exact Or.inl ⟨_, rfl, ⟨halive, halone, hpos, rest_cleanupCompose cwd configDir _⟩, hlt⟩
  | statCompose path =>
      obtain ⟨hpos, hlt⟩ := stepsLeft_onComposeStat path (stat configDir p.host path)
      exact Or.inl ⟨_, rfl, ⟨halive, halone, hpos, rest_onComposeStat cwd configDir p.host path⟩, hlt⟩
  | removeCompose path => exact Or.inl ⟨_, rfl, ⟨halive, halone, Nat.zero_lt_one, rfl⟩, Nat.lt_succ_self 1⟩
  | removeConfigDir failed =>
      refine Or.inr ⟨rfl, ?_⟩
      cases failed with
      | true => exact ⟨rfl, rfl⟩
      | false =>
          rw [advance, if_neg Bool.false_ne_true, resolved, if_pos halone]
          exact ⟨rfl, rfl⟩
  | removeImage imageId others => exact absurd hstore (Nat.lt_irrefl 0)

def Sweeping (target : CliHost) (w : World Process Await) : Prop :=
  (∃ k, w.pending = [k] ∧ Going cwd configDir target w.shared k) ∨
    (w.shared.exited = true ∧ w.shared.host = target)

theorem sweeping_step {w w' : World Process Await} {e : Event Empty Unit}
    (h : step (command cwd configDir) w e = some w') (hw : Sweeping cwd configDir target w) :
    Sweeping cwd configDir target w' := by
  cases e with
  | call i => exact i.elim
  | settle n o =>
      rcases hw with ⟨k, hpending, hgoing⟩ | ⟨hexited, -⟩
      · obtain ⟨p, pending⟩ := w
        obtain rfl : pending = [k] := hpending
        obtain ⟨r, hr, rfl⟩ := step_settle_one h
        obtain ⟨-, hr⟩ := alive_of_some hr
        obtain rfl := Option.some.inj hr
        rcases advance_going cwd configDir hgoing with ⟨k', hk', hgoing', -⟩ | ⟨hnone, hend⟩
        · refine Or.inl ⟨k', ?_, hgoing'⟩
          rw [hk']
          rfl
        · exact Or.inr hend
      · obtain ⟨k, others, r, -, hr, -⟩ := step_settle h
        obtain ⟨halive, -⟩ := alive_of_some hr
        rw [hexited] at halive
        cases halive

theorem sweeping_run {es : List (Event Empty Unit)} {w w' : World Process Await}
    (h : run (step (command cwd configDir)) w es = some w') (hw : Sweeping cwd configDir target w) :
    Sweeping cwd configDir target w' :=
  throughout_of_step (fun _ _ _ hw hstep => sweeping_step cwd configDir hstep hw) hw es es List.prefix_rfl w' h

theorem sweeping_ends {w : World Process Await} (hw : Sweeping cwd configDir target w) :
    ∃ es w', run (step (command cwd configDir)) w es = some w' ∧
      w'.shared.exited = true ∧ w'.shared.host = target := by
  rcases hw with ⟨k, hpending, hgoing⟩ | hend
  · obtain ⟨es, w', -, hrun, hend⟩ := reaches (m := command cwd configDir)
      (Q := Going cwd configDir target) (R := fun p => p.exited = true ∧ p.host = target) stepsLeft () (by
        intro p k hp
        refine ⟨advance cwd configDir p k, if_neg (by rw [hp.alive]; exact Bool.false_ne_true), ?_⟩
        rcases advance_going cwd configDir hp with ⟨k', hk', hnext, hlt⟩ | ⟨-, hend⟩
        · exact Or.inr ⟨k', hk', hnext, hlt⟩
        · exact Or.inl hend)
      (hpending ▸ List.mem_cons_self) hgoing
    exact ⟨es, w', hrun, hend⟩
  · exact ⟨[], w, rfl, hend⟩

theorem sweeping_started {v : Variant} {h : CliHost}
    (hstarted : started cwd h v = ⟨⟨h, 1, false⟩, [storeCleanup cwd h]⟩) :
    Sweeping cwd configDir (swept cwd configDir h) (started cwd h v) := by
  rw [hstarted]
  exact Or.inl ⟨_, rfl, rfl, Nat.le_refl 1, stepsLeft_storeCleanup cwd h, rest_storeCleanup cwd configDir h⟩

theorem ends_alone {v : Variant} {h : CliHost}
    (hstarted : started cwd h v = ⟨⟨h, 1, false⟩, [storeCleanup cwd h]⟩) (h' : CliHost) :
    Ends cwd configDir v h h' ↔ h' = swept cwd configDir h := by
  have hsweeping := sweeping_started cwd configDir hstarted
  constructor
  · rintro ⟨es, w, hrun, hexited, rfl⟩
    rcases sweeping_run cwd configDir hrun hsweeping with ⟨k, -, hstill⟩ | ⟨-, hhost⟩
    · rw [hstill.alive] at hexited
      cases hexited
    · exact hhost
  · rintro rfl
    exact sweeping_ends cwd configDir hsweeping

end Sequential

section Removal

structure Removes (gone : Location → Prop) (h h' : CliHost) : Prop where
  files : ∀ file, file ∈ h'.host.files ↔ file ∈ h.host.files ∧ ¬ gone file.1
  userFiles : ∀ file, file ∈ h'.userFiles ↔ file ∈ h.userFiles ∧ ¬ gone file.1
  images : h'.images = h.images

variable {h h₁ h₂ : CliHost} {gone gone' : Location → Prop}

theorem Removes.congr (hgone : ∀ path, gone path ↔ gone' path) (hr : Removes gone h h₁) :
    Removes gone' h h₁ := by
  obtain rfl : gone = gone' := funext fun path => propext (hgone path)
  exact hr

theorem Removes.trans (hr : Removes gone h h₁) (hr' : Removes gone' h₁ h₂) :
    Removes (fun path => gone path ∨ gone' path) h h₂ := by
  constructor
  · intro file
    rw [hr'.files, hr.files, and_assoc, not_or]
  · intro file
    rw [hr'.userFiles, hr.userFiles, and_assoc, not_or]
  · rw [hr'.images, hr.images]

theorem removes_remove (h : CliHost) (root : Location) : Removes (root <+: ·) h (remove configDir h root) := by
  constructor
  · intro file
    rw [remove, List.mem_filter, decide_eq_true_eq]
  · intro file
    rw [remove, List.mem_filter, decide_eq_true_eq]
  · rfl

theorem stored_sweptConfigDir (h : CliHost) : stored (sweptConfigDir configDir h) = false := by
  have hbelow : configDir <+: confPath configDir := List.prefix_append configDir _
  rw [sweptConfigDir, stored_remove, decide_eq_false (not_not_intro hbelow), Bool.and_false]

theorem stored_sweptRecorded (h : CliHost) : stored (sweptRecorded cwd configDir h) = false := by
  rw [sweptRecorded]
  split
  · exact stored_sweptConfigDir configDir h
  · split
    · exact stored_sweptConfigDir configDir h
    · exact stored_sweptConfigDir configDir _

theorem stored_swept (h : CliHost) : stored (swept cwd configDir h) = false := by
  rw [swept]
  split
  · exact stored_sweptConfigDir configDir h
  · rw [sweptSecrets]
    split
    · exact stored_sweptConfigDir configDir h
    · exact stored_sweptRecorded cwd configDir h
    · split
      · exact stored_sweptConfigDir configDir h
      · exact stored_sweptRecorded cwd configDir _

def FromRecorded (h : CliHost) (place path : Location) : Prop :=
  configDir <+: path ∨ h.host.conf.compose.isSome = true ∧
    stat configDir h (composePath place) = some .file ∧ composePath place <+: path

theorem removes_sweptRecorded {wd : PathText} (hwd : h.host.conf.workingDirectory = some wd) :
    Removes (FromRecorded configDir h (resolve cwd wd)) h (sweptRecorded cwd configDir h) := by
  rw [sweptRecorded, dockerComposeFilePath_eq hwd cwd]
  cases hcompose : h.host.conf.compose with
  | none => exact (removes_remove configDir h configDir).congr fun path => by simp [FromRecorded, hcompose]
  | some createdAt =>
      rw [Option.isNone_some, if_neg Bool.false_ne_true]
      dsimp only [sweptCompose]
      by_cases hfile : stat configDir h (composePath (resolve cwd wd)) = some .file
      · rw [if_pos hfile]
        refine ((removes_remove configDir h _).trans (removes_remove configDir _ configDir)).congr fun path => ?_
        simp [FromRecorded, hcompose, hfile, or_comm]
      · rw [if_neg hfile]
        exact (removes_remove configDir h configDir).congr fun path => by simp [FromRecorded, hfile]

theorem reached_iff {wd : PathText} (hwd : h.host.conf.workingDirectory = some wd) (path : Location) :
    Reached cwd configDir h path ↔ configDir <+: path ∨
      stat configDir h (secretsPath (resolve cwd wd)) = some .directory ∧ configPath (resolve cwd wd) <+: path ∨
      FindsCompose configDir h (resolve cwd wd) ∧ composePath (resolve cwd wd) <+: path := by
  constructor
  · rintro (below | ⟨hwd', secrets, below⟩ | ⟨hwd', finds, below⟩)
    · exact Or.inl below
    · rw [hwd] at hwd'
      obtain rfl := Option.some.inj hwd'
      exact Or.inr (Or.inl ⟨secrets, below⟩)
    · rw [hwd] at hwd'
      obtain rfl := Option.some.inj hwd'
      exact Or.inr (Or.inr ⟨finds, below⟩)
  · rintro (below | ⟨secrets, below⟩ | ⟨finds, below⟩)
    · exact .stored below
    · exact .localConfig hwd secrets below
    · exact .compose hwd finds below

theorem localConfigDir_eq {wd : PathText} (hwd : h.host.conf.workingDirectory = some wd) :
    localConfigDir cwd h = some (configPath (resolve cwd wd)) := by
  rw [localConfigDir, hwd, Option.map_some, resolve_join]
  rfl

theorem composePath_apart (place : Location) :
    ¬ configPath place <+: composePath place ∧ ¬ composePath place <+: configPath place := by
  rw [configPath, composePath, List.prefix_append_right_inj, List.prefix_append_right_inj]
  decide

theorem findsCompose_iff {place : Location} {entry : Entry}
    (hsecrets : stat configDir h (secretsPath place) = some entry) :
    FindsCompose configDir h place ↔ (entry = .directory → ¬ configPath place <+: confPath configDir) ∧
      h.host.conf.compose.isSome = true ∧ stat configDir h (composePath place) = some .file := by
  constructor
  · rintro ⟨-, kept, recorded, file⟩
    refine ⟨fun hentry => kept ?_, recorded, file⟩
    rw [hsecrets, hentry]
  · rintro ⟨kept, recorded, file⟩
    refine ⟨?_, fun hdirectory => kept ?_, recorded, file⟩
    · rw [hsecrets]
      exact Option.some_ne_none entry
    · rw [hsecrets] at hdirectory
      exact Option.some.inj hdirectory

theorem removes_sweptLocalConfig {wd : PathText} (hwd : h.host.conf.workingDirectory = some wd)
    (hsecrets : stat configDir h (secretsPath (resolve cwd wd)) = some .directory) :
    Removes (Reached cwd configDir h) h
      (sweptRecorded cwd configDir (remove configDir h (configPath (resolve cwd wd)))) := by
  have hremoved := removes_remove configDir h (configPath (resolve cwd wd))
  have hfinds := findsCompose_iff configDir hsecrets
  by_cases hconf : configPath (resolve cwd wd) <+: confPath configDir
  · have hwiped : (remove configDir h (configPath (resolve cwd wd))).host.conf.compose.isNone = true := by
      rw [remove, if_pos hconf]
      rfl
    rw [sweptRecorded, if_pos hwiped]
    refine (hremoved.trans (removes_remove configDir _ configDir)).congr fun path => ?_
    rw [reached_iff cwd configDir hwd, hfinds]
    simp [hsecrets, hconf, or_comm]
  · have hkept : (remove configDir h (configPath (resolve cwd wd))).host.conf = h.host.conf := if_neg hconf
    obtain ⟨hcompose, hconfig⟩ := composePath_apart (resolve cwd wd)
    refine (hremoved.trans (removes_sweptRecorded cwd configDir (hkept ▸ hwd))).congr fun path => ?_
    rw [reached_iff cwd configDir hwd, hfinds, FromRecorded, hkept, stat_remove configDir h hcompose hconfig]
    simp [hsecrets, hconf, or_left_comm, and_assoc]

theorem removes_swept (h : CliHost) : Removes (Reached cwd configDir h) h (swept cwd configDir h) := by
  rw [swept]
  cases hwd : h.host.conf.workingDirectory with
  | none =>
      rw [secretsDir, hwd, Option.map_none]
      refine (removes_remove configDir h configDir).congr fun path => ⟨.stored, ?_⟩
      rintro (below | ⟨hwd', -, -⟩ | ⟨hwd', -, -⟩)
      · exact below
      · rw [hwd] at hwd'
        cases hwd'
      · rw [hwd] at hwd'
        cases hwd'
  | some wd =>
      rw [secretsDir_eq hwd]
      dsimp only
      rw [sweptSecrets]
      cases hsecrets : stat configDir h (secretsPath (resolve cwd wd)) with
      | none =>
          refine (removes_remove configDir h configDir).congr fun path => ?_
          rw [reached_iff cwd configDir hwd, hsecrets]
          have hnot : ¬ FindsCompose configDir h (resolve cwd wd) := fun hfinds => hfinds.secrets hsecrets
          simp [hnot]
      | some entry =>
          cases entry with
          | directory =>
              rw [localConfigDir_eq cwd hwd]
              exact removes_sweptLocalConfig cwd configDir hwd hsecrets
          | file =>
              refine (removes_sweptRecorded cwd configDir hwd).congr fun path => ?_
              rw [reached_iff cwd configDir hwd, findsCompose_iff configDir hsecrets, FromRecorded]
              simp [hsecrets, and_assoc]

end Removal

theorem clean_swept_iff (h : CliHost) : Clean h (swept cwd configDir h) ↔
    (∀ imageId ∈ h.managedImages.getD [], imageId ∉ h.images.map ImageInfo.id) ∧
      (∀ file ∈ h.host.files, Reached cwd configDir h file.1) ∧
      ∀ file ∈ h.userFiles, ¬ Reached cwd configDir h file.1 := by
  obtain ⟨hfiles, huserFiles, himages⟩ := removes_swept cwd configDir h
  constructor
  · rintro ⟨created, -, images, userFiles⟩
    refine ⟨himages ▸ images, fun file hfile => ?_, fun file hfile => ?_⟩
    · by_contra hreached
      have hleft := (hfiles file).mpr ⟨hfile, hreached⟩
      rw [created] at hleft
      exact List.not_mem_nil hleft
    · exact ((huserFiles file).mp (userFiles file hfile)).2
  · rintro ⟨images, created, userFiles⟩
    refine ⟨?_, stored_swept cwd configDir h, himages.symm ▸ images, fun file hfile => ?_⟩
    · rw [List.eq_nil_iff_forall_not_mem]
      intro file hleft
      obtain ⟨hfile, hreached⟩ := (hfiles file).mp hleft
      exact hreached (created file hfile)
    · exact (huserFiles file).mpr ⟨hfile, userFiles file hfile⟩

theorem ends_refused {h : CliHost} {imageId : String} {others : List String}
    (hids : h.managedImages.getD [] = imageId :: others) (himage : imageId ∉ h.images.map ImageInfo.id) :
    Ends cwd configDir .confirmed h h := by
  have hstarted : started cwd h .confirmed =
      ⟨⟨h, 2, false⟩, [.removeImage imageId others, storeCleanup cwd h]⟩ := by
    rw [started, hids]
    rfl
  have hrefused : step (command cwd configDir)
      ⟨⟨h, 2, false⟩, [.removeImage imageId others, storeCleanup cwd h]⟩ (.settle 0 ()) =
      some ⟨⟨h, 2, true⟩, [storeCleanup cwd h]⟩ := by
    have hadvance : advance cwd configDir ⟨h, 2, false⟩ (.removeImage imageId others) = (⟨h, 2, true⟩, none) :=
      if_neg himage
    simp only [step, command, List.getElem?_cons_zero, Bool.false_eq_true, if_false, hadvance]
    rfl
  refine ⟨[.settle 0 ()], ⟨⟨h, 2, true⟩, [storeCleanup cwd h]⟩, ?_, rfl, rfl⟩
  rw [hstarted, run_cons _ hrefused, run]

theorem Cleaned.clean_swept {h : CliHost} (hcleaned : Cleaned cwd configDir h) : Clean h (swept cwd configDir h) :=
  hcleaned.clean .forced _ ((ends_alone cwd configDir rfl _).mpr rfl)

theorem cleaned_iff (h : CliHost) : Cleaned cwd configDir h ↔ Tidy cwd configDir h := by
  constructor
  · intro hcleaned
    obtain ⟨himages, hcreated, huserFiles⟩ :=
      (clean_swept_iff cwd configDir h).mp hcleaned.clean_swept
    refine ⟨?_, hcreated, huserFiles⟩
    cases hids : h.managedImages.getD [] with
    | nil => rfl
    | cons imageId others =>
        rw [hids] at himages
        have hrefused := ends_refused cwd configDir hids (himages imageId List.mem_cons_self)
        have hstored := (hcleaned.clean .confirmed h hrefused).stored
        cases hmanaged : h.managedImages with
        | none =>
            rw [hmanaged] at hids
            cases hids
        | some ids =>
            rw [stored, hmanaged, Option.isSome_some, Bool.or_true] at hstored
            cases hstored
  · intro htidy
    have hstarted : ∀ v, started cwd h v = ⟨⟨h, 1, false⟩, [storeCleanup cwd h]⟩ := by
      rintro (_ | _)
      · rfl
      · rw [started, htidy.images]
        rfl
    have hends : ∀ v h', Ends cwd configDir v h h' ↔ h' = swept cwd configDir h := fun v =>
      ends_alone cwd configDir (hstarted v)
    have hclean : Clean h (swept cwd configDir h) := by
      refine (clean_swept_iff cwd configDir h).mpr ⟨?_, htidy.created, htidy.userFiles⟩
      rw [htidy.images]
      exact fun imageId himage => absurd himage List.not_mem_nil
    refine ⟨fun v es w hrun => ?_, fun v h' hend => ?_, fun h₁ h₂ hend₁ hend₂ => ?_⟩
    · have hsweeping := sweeping_run cwd configDir hrun (sweeping_started cwd configDir (hstarted v))
      obtain ⟨es', w', hrun', hexited, -⟩ := sweeping_ends cwd configDir hsweeping
      exact ⟨es', w', hrun', hexited⟩
    · rw [(hends v h').mp hend]
      exact hclean
    · rw [(hends .forced h₁).mp hend₁, (hends .confirmed h₂).mp hend₂]

end Command

section Runs

/-- What is run, and what users do; a run may be stopped after any of its operations. -/
inductive CliRun
  | init (r : InitRun) (operations : Nat)
  | ensureUtilityImageAvailable (c : ManagedImages.EnsureCall)
  | snapshot (name volume : String)
  | cleanup (cwd : Location) (v : Variant) (steps : List (Event Empty Unit))
  | others (images : List ImageInfo)
  | writeFile (path : Location) (content : String)
  | makeDir (path : Location)

variable (configDir : Location)

def afterRun (h : CliHost) : CliRun → CliHost
  | .init r operations =>
      let host := ComposeFile.after r.cwd h.host ((initCommand h.host r).take operations)
      { h with
        host := host
        userFiles := h.userFiles.filter fun file => !(host.files.map Prod.fst).contains file.1 }
  | .ensureUtilityImageAvailable c =>
      let s := Fallible.exec (ManagedImages.ensureUtilityImageAvailable c) ⟨h.images, h.managedImages, [], []⟩
      { h with
        images := s.images
        managedImages := s.managedImages }
  | .snapshot name volume =>
      let host := h.host
      let path := configDir ++ ["snapshots", name, volume ++ ".tar"]
      { h with
        host := { host with files := OrderedMap.set host.files path (.text "") }
        userFiles := h.userFiles.filter fun file => decide (file.1 ≠ path) }
  | .cleanup cwd v steps =>
      match run (step (command cwd configDir)) (started cwd h v) steps with
      | none => h
      | some w => w.shared.host
  | .others images => { h with images := images }
  | .writeFile path content =>
      let host := h.host
      { h with
        host := { host with files := host.files.filter fun file => decide (file.1 ≠ path) }
        userFiles := OrderedMap.set h.userFiles path content }
  | .makeDir path => { h with userDirs := h.userDirs ++ [path] }

def afterRuns (images : List ImageInfo) (runs : List CliRun) : CliHost :=
  runs.foldl (afterRun configDir) (CliHost.untouched images)

/-- In every state that runs lead to, what the cleanup comes to decides. -/
theorem cleaned_afterRuns_iff (images : List ImageInfo) (runs : List CliRun) (cwd : Location) :
    Cleaned cwd configDir (afterRuns configDir images runs) ↔ Tidy cwd configDir (afterRuns configDir images runs) :=
  cleaned_iff cwd configDir _

section Initialized

variable (r : InitRun)

def initHost : Host :=
  { conf :=
      { compose := some r.composeCreatedAt
        secrets := some r.secretsCreatedAt
        workingDirectory := some (chosenDirectory r) }
    files :=
      OrderedMap.set (OrderedMap.set (OrderedMap.set
        (OrderedMap.set [] (composePath (location r)) .dockerCompose)
        (secretsPath (location r) ++ ["postgres_db"]) (.text "cexplorer"))
        (secretsPath (location r) ++ ["postgres_password"]) (.text (credentials r).1))
        (secretsPath (location r) ++ ["postgres_user"]) (.text (credentials r).2)
    secretsDirs := [secretsPath (location r)] }

def afterInit (images : List ImageInfo) (r : InitRun) : CliHost := { CliHost.untouched images with host := initHost r }

theorem after_initCommand :
    ComposeFile.after r.cwd ComposeFile.fresh (initCommand ComposeFile.fresh r) = initHost r := by
  have hcompose : resolve r.cwd (join (chosenDirectory r) ["docker-compose.yml"]) = composePath (location r) :=
    resolve_join r.cwd (chosenDirectory r) ["docker-compose.yml"]
  have hsecrets : resolve r.cwd (join (chosenDirectory r) ["config", "secrets"]) = secretsPath (location r) := by
    rw [resolve_join]
    simp [descend, secretsPath, location]
  rw [initHost, ← hcompose, ← hsecrets]
  rfl

theorem mem_initHost_files {file : Location × FileContent} (h : file ∈ (initHost r).files) :
    file.1 = composePath (location r) ∨ secretsPath (location r) <+: file.1 := by
  have hbelow : ∀ name, secretsPath (location r) <+: secretsPath (location r) ++ [name] := fun name =>
    List.prefix_append _ _
  rcases OrderedMap.mem_set h with rfl | h
  · exact Or.inr (hbelow _)
  rcases OrderedMap.mem_set h with rfl | h
  · exact Or.inr (hbelow _)
  rcases OrderedMap.mem_set h with rfl | h
  · exact Or.inr (hbelow _)
  rcases OrderedMap.mem_set h with rfl | h
  · exact Or.inl rfl
  · exact absurd h List.not_mem_nil

theorem compose_mem_initHost : composePath (location r) ∈ (initHost r).files.map Prod.fst := by
  have hkey : ∀ (m : List (Location × FileContent)) (k : Location) (a : FileContent),
      composePath (location r) ∈ m.map Prod.fst →
        composePath (location r) ∈ (OrderedMap.set m k a).map Prod.fst := by
    intro m k a hm
    rw [OrderedMap.keys_set]
    split
    · exact hm
    · exact List.mem_append_left _ hm
  exact hkey _ _ _ (hkey _ _ _ (hkey _ _ _ List.mem_cons_self))

theorem stat_compose (images : List ImageInfo) (hcompose : ¬ composePath (location r) <+: confPath configDir) :
    stat configDir (afterInit images r) (composePath (location r)) = some .file := by
  have hapart : ¬ composePath (location r) <+: secretsPath (location r) ∧
      ¬ secretsPath (location r) <+: composePath (location r) := by
    rw [composePath, secretsPath, List.prefix_append_right_inj, List.prefix_append_right_inj]
    decide
  have hfile : (files configDir (afterInit images r)).contains (composePath (location r)) = true :=
    List.contains_iff_mem.mpr ((mem_files configDir _ _).mpr (Or.inl (compose_mem_initHost r)))
  have hnot : ¬ IsDirectory configDir (afterInit images r) (composePath (location r)) := by
    rintro (⟨dir, hdir, hbelow⟩ | ⟨file, hfile, hbelow, hne⟩)
    · rw [List.mem_singleton.mp hdir] at hbelow
      exact hapart.1 hbelow
    · rcases (mem_files configDir _ _).mp hfile with hcreated | huser | ⟨-, hconf⟩
      · obtain ⟨entry, hentry, rfl⟩ := List.mem_map.mp hcreated
        rcases mem_initHost_files r hentry with heq | hsecrets
        · exact hne heq.symm
        · exact (List.prefix_or_prefix_of_prefix hbelow hsecrets).elim hapart.1 hapart.2
      · exact List.not_mem_nil huser
      · exact hcompose (hconf ▸ hbelow)
  rw [stat, if_neg hnot, if_pos hfile]

/-- Apart from the directory of the configuration, both variants undo a complete `init`. -/
theorem init_cleaned (images : List ImageInfo) (hconfig : ¬ configPath (location r) <+: confPath configDir)
    (hcompose : ¬ composePath (location r) <+: confPath configDir) :
    Cleaned r.cwd configDir (afterRuns configDir images [.init r 8]) := by
  have hhost : afterRuns configDir images [.init r 8] = afterInit images r := by
    rw [afterInit, ← after_initCommand]
    rfl
  have hdirectory : stat configDir (afterInit images r) (secretsPath (location r)) =
      some .directory :=
    if_pos (Or.inl ⟨secretsPath (location r), List.mem_cons_self, List.prefix_rfl⟩)
  have hfinds : FindsCompose configDir (afterInit images r) (location r) := by
    refine ⟨?_, fun _ => hconfig, rfl, stat_compose configDir r images hcompose⟩
    rw [hdirectory]
    exact Option.some_ne_none _
  rw [hhost, cleaned_iff]
  refine ⟨rfl, fun file hfile => ?_, fun file hfile => absurd hfile List.not_mem_nil⟩
  rcases mem_initHost_files r hfile with hfile | hbelow
  · exact .compose rfl hfinds (hfile ▸ List.prefix_rfl)
  · have hsecrets : configPath (location r) <+: secretsPath (location r) :=
      (List.prefix_append_right_inj (location r)).mpr (by decide)
    exact .localConfig rfl hdirectory (hsecrets.trans hbelow)

end Initialized

def mainnet : Location := ["srv", "mainnet"]

def home : Location := ["home", "op", ".config", "cgql"]

def initialized : CliRun := .init (runIn mainnet) 8

theorem uncleaned :
    ¬ Cleaned mainnet home (afterRuns home [] [.init (runIn mainnet) 3]) ∧
    ¬ Cleaned mainnet home (afterRuns home []
      [initialized, .writeFile (mainnet ++ ["config", "topology.json"]) "Producers"]) ∧
    ¬ Cleaned mainnet home (afterRuns home []
      [initialized, .ensureUtilityImageAvailable (ManagedImages.pulling "alpine:3.12.0" "sha256:a24b")]) := by
  refine ⟨fun h => ?_, fun h => ?_, fun h => ?_⟩
  · have hcreated := h.clean_swept.created
    revert hcreated
    decide
  · have huserFiles := h.clean_swept.userFiles (mainnet ++ ["config", "topology.json"], "Producers") (by decide)
    revert huserFiles
    decide
  · have himages := h.clean_swept.images "sha256:a24b" (by decide)
    revert himages
    decide

end Runs

end CardanoGraphql.Cleanup
