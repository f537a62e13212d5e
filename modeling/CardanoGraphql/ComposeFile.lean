import Mathlib.Data.List.Chain
import CardanoGraphql.OrderedMap

namespace CardanoGraphql.ComposeFile

open OrderedMap

abbrev Location := List String

/-- A path as it is written, cut at its slashes. -/
structure PathText where
  absolute : Bool
  parts : List String
deriving DecidableEq, Repr

def descend (location : Location) (part : String) : Location :=
  if part = "" ∨ part = "." then location
  else if part = ".." then location.dropLast
  else location ++ [part]

def resolve (cwd : Location) (p : PathText) : Location :=
  p.parts.foldl descend (if p.absolute then [] else cwd)

def join (p : PathText) (names : List String) : PathText := { p with parts := p.parts ++ names }

inductive FileContent
  | dockerCompose
  | text (s : String)
deriving DecidableEq, Repr

/-- What the file of `Conf` holds; of `compose` and `secrets` the `createdAt`. -/
structure DockerState where
  compose : Option Nat
  secrets : Option Nat
  workingDirectory : Option PathText
deriving DecidableEq, Repr

/-- The stored configuration, and what the tool has created elsewhere. -/
structure Host where
  conf : DockerState
  files : List (Location × FileContent)
  secretsDirs : List Location
deriving DecidableEq, Repr

def fresh : Host :=
  { conf := { compose := none, secrets := none, workingDirectory := none }
    files := []
    secretsDirs := [] }

section Store

variable (cwd : Location) (h : Host)

def dockerComposeFilePath : Option Location :=
  h.conf.workingDirectory.map fun wd => resolve cwd (join wd ["docker-compose.yml"])

def secretsDir : Option Location :=
  h.conf.workingDirectory.map fun wd => resolve cwd (join wd ["config", "secrets"])

def setWorkingDirectory (wd : PathText) : Host :=
  { h with
    conf := { h.conf with workingDirectory := some wd } }

def setCompose (createdAt : Nat) : Host :=
  { h with
    conf := { h.conf with compose := some createdAt } }

def setSecrets (createdAt : Nat) : Host :=
  { h with
    conf := { h.conf with secrets := some createdAt } }

/-- `copyFile` of the boilerplate; without a directory there is no path. -/
def copyCompose : Host :=
  match dockerComposeFilePath cwd h with
  | none => h
  | some path => { h with files := set h.files path .dockerCompose }

def ensureSecretsDir : Host :=
  match secretsDir cwd h with
  | none => h
  | some dir => { h with secretsDirs := if dir ∈ h.secretsDirs then h.secretsDirs else h.secretsDirs ++ [dir] }

def writeSecret (name content : String) : Host :=
  match secretsDir cwd h with
  | none => h
  | some dir => { h with files := set h.files (dir ++ [name]) (.text content) }

end Store

/-- What a run of `init` does, one operation after the other. -/
inductive Operation
  | setWorkingDirectory (wd : PathText)
  | copyCompose
  | setCompose (createdAt : Nat)
  | ensureSecretsDir
  | writeSecret (name content : String)
  | setSecrets (createdAt : Nat)
deriving DecidableEq, Repr

def perform (cwd : Location) (h : Host) : Operation → Host
  | .setWorkingDirectory wd => setWorkingDirectory h wd
  | .copyCompose => copyCompose cwd h
  | .setCompose createdAt => setCompose h createdAt
  | .ensureSecretsDir => ensureSecretsDir cwd h
  | .writeSecret name content => writeSecret cwd h name content
  | .setSecrets createdAt => setSecrets h createdAt

structure InitRun where
  cwd : Location
  cwdOption : Option PathText
  passwordOption : Option String
  userOption : Option String
  directory : Option PathText
  user : String
  password : String
  composeCreatedAt : Nat
  secretsCreatedAt : Nat

def optionCredentials (r : InitRun) : Option (String × String) :=
  match r.passwordOption, r.userOption with
  | some password, some user => if password ≠ "" ∧ user ≠ "" then some (password, user) else none
  | _, _ => none

/-- The directory that `init` is called with: resolved from the option, as written from the
prompt. -/
def chosenDirectory (r : InitRun) : PathText :=
  match optionCredentials r with
  | some _ => ⟨true, resolve r.cwd (r.cwdOption.getD ⟨true, r.cwd⟩)⟩
  | none => r.directory.getD ⟨true, r.cwd⟩

def credentials (r : InitRun) : String × String := (optionCredentials r).getD (r.password, r.user)

def createSecrets (password user : String) (createdAt : Nat) : List Operation :=
  [.ensureSecretsDir, .writeSecret "postgres_db" "cexplorer", .writeSecret "postgres_password" password,
    .writeSecret "postgres_user" user, .setSecrets createdAt]

/-- `DockerComposeStack.init`; the branch is taken after the directory is recorded. -/
def init (h : Host) (workingDirectory : PathText) (createdAt : Nat) : List Operation :=
  .setWorkingDirectory workingDirectory ::
    if h.conf.compose.isSome then [] else [.copyCompose, .setCompose createdAt]

def initCommand (h : Host) (r : InitRun) : List Operation :=
  init h (chosenDirectory r) r.composeCreatedAt ++
    createSecrets (credentials r).1 (credentials r).2 r.secretsCreatedAt

def states (cwd : Location) (h : Host) : List Operation → List Host
  | [] => [h]
  | op :: ops => h :: states cwd (perform cwd h op) ops

def after (cwd : Location) (h : Host) (ops : List Operation) : Host := ops.foldl (perform cwd) h

def seen (h : Host) : List InitRun → List (Location × Host)
  | [] => []
  | r :: rs => (states r.cwd h (initCommand h r)).map (fun s => (r.cwd, s)) ++
      seen (after r.cwd h (initCommand h r)) rs

/-- What was created is where the stored directory leads. -/
structure Findable (cwd : Location) (h : Host) : Prop where
  recorded : h.conf.compose.isSome = true →
    ∃ path, dockerComposeFilePath cwd h = some path ∧ get? h.files path = some .dockerCompose
  composeFiles : ∀ path, get? h.files path = some .dockerCompose → dockerComposeFilePath cwd h = some path
  secretsDirs : ∀ dir ∈ h.secretsDirs, secretsDir cwd h = some dir

def location (r : InitRun) : Location := resolve r.cwd (chosenDirectory r)

def Steady (r r' : InitRun) : Prop :=
  resolve r'.cwd (chosenDirectory r) = location r ∧ location r' = location r

section Paths

def composePath (place : Location) : Location := place ++ ["docker-compose.yml"]

def secretsPath (place : Location) : Location := place ++ ["config", "secrets"]

theorem composePath_inj {place place' : Location} (h : composePath place = composePath place') : place = place' :=
  List.append_cancel_right h

theorem resolve_join (cwd : Location) (wd : PathText) (names : List String) :
    resolve cwd (join wd names) = names.foldl descend (resolve cwd wd) :=
  List.foldl_append

theorem dockerComposeFilePath_eq {h : Host} {wd : PathText} (hwd : h.conf.workingDirectory = some wd)
    (cwd : Location) : dockerComposeFilePath cwd h = some (composePath (resolve cwd wd)) := by
  rw [dockerComposeFilePath, hwd, Option.map_some, resolve_join]
  rfl

theorem secretsDir_eq {h : Host} {wd : PathText} (hwd : h.conf.workingDirectory = some wd) (cwd : Location) :
    secretsDir cwd h = some (secretsPath (resolve cwd wd)) := by
  have hpath : ["config", "secrets"].foldl descend (resolve cwd wd) = secretsPath (resolve cwd wd) := by
    simp [descend, secretsPath]
  rw [secretsDir, hwd, Option.map_some, resolve_join, hpath]

end Paths

section Runs

structure Placed (place : Location) (h : Host) : Prop where
  recorded : h.conf.compose.isSome = true → get? h.files (composePath place) = some .dockerCompose
  composeFiles : ∀ path, get? h.files path = some .dockerCompose → path = composePath place
  secretsDirs : ∀ dir ∈ h.secretsDirs, dir = secretsPath place

structure Kept (place : Location) (wd : PathText) (h : Host) : Prop where
  stored : h.conf.workingDirectory = some wd
  placed : Placed place h

theorem findable_iff_placed {h : Host} {wd : PathText} (hwd : h.conf.workingDirectory = some wd) (cwd : Location) :
    Findable cwd h ↔ Placed (resolve cwd wd) h := by
  have hcompose := dockerComposeFilePath_eq hwd cwd
  have hsecrets := secretsDir_eq hwd cwd
  constructor
  · intro hf
    constructor
    · intro hsome
      obtain ⟨path, hpath, hfile⟩ := hf.recorded hsome
      rw [hcompose] at hpath
      rw [Option.some.inj hpath]
      exact hfile
    · intro path hfile
      have hpath := hf.composeFiles path hfile
      rw [hcompose] at hpath
      exact (Option.some.inj hpath).symm
    · intro dir hdir
      have hpath := hf.secretsDirs dir hdir
      rw [hsecrets] at hpath
      exact (Option.some.inj hpath).symm
  · intro hp
    constructor
    · exact fun hsome => ⟨_, hcompose, hp.recorded hsome⟩
    · intro path hfile
      rw [hp.composeFiles path hfile, hcompose]
    · intro dir hdir
      rw [hp.secretsDirs dir hdir, hsecrets]

theorem findable_iff_resolve {place : Location} {wd : PathText} {h : Host} (hk : Kept place wd h)
    (hsome : h.conf.compose.isSome = true) (cwd : Location) : Findable cwd h ↔ resolve cwd wd = place := by
  rw [findable_iff_placed hk.stored]
  constructor
  · intro hp
    exact composePath_inj (hk.placed.composeFiles _ (hp.recorded hsome))
  · rintro rfl
    exact hk.placed

def createsSecrets : Operation → Bool
  | .ensureSecretsDir | .writeSecret _ _ | .setSecrets _ => true
  | _ => false

theorem perform_kept {place : Location} {wd : PathText} {cwd : Location} (hplace : resolve cwd wd = place)
    {h : Host} (hk : Kept place wd h) {op : Operation} (hop : createsSecrets op = true) :
    Kept place wd (perform cwd h op) ∧ (perform cwd h op).conf.compose = h.conf.compose := by
  obtain ⟨hstored, hp⟩ := hk
  have hsecrets := secretsDir_eq hstored cwd
  rw [hplace] at hsecrets
  cases op with
  | ensureSecretsDir =>
      rw [perform, ensureSecretsDir, hsecrets]
      refine ⟨⟨hstored, hp.recorded, hp.composeFiles, ?_⟩, rfl⟩
      intro dir hdir
      dsimp only at hdir
      split at hdir
      · exact hp.secretsDirs dir hdir
      · rcases List.mem_append.mp hdir with hdir | hdir
        · exact hp.secretsDirs dir hdir
        · exact List.mem_singleton.mp hdir
  | writeSecret name content =>
      have hne : ∀ path, path = secretsPath place ++ [name] → path ≠ composePath place := by
        rintro path rfl heq
        have := congrArg List.length heq
        simp [secretsPath, composePath] at this
      rw [perform, writeSecret, hsecrets]
      refine ⟨⟨hstored, ?_, ?_, hp.secretsDirs⟩, rfl⟩
      · intro hsome
        rw [get?_set, if_neg fun heq => hne _ heq rfl]
        exact hp.recorded hsome
      · intro path hfile
        rw [get?_set] at hfile
        split at hfile
        · cases hfile
        · exact hp.composeFiles path hfile
  | setSecrets createdAt => exact ⟨⟨hstored, hp.recorded, hp.composeFiles, hp.secretsDirs⟩, rfl⟩
  | setWorkingDirectory | copyCompose | setCompose => cases hop

theorem after_cons (cwd : Location) (h : Host) (op : Operation) (ops : List Operation) :
    after cwd h (op :: ops) = after cwd (perform cwd h op) ops := rfl

theorem states_kept {place : Location} {wd : PathText} {cwd : Location} (hplace : resolve cwd wd = place)
    {ops : List Operation} (hops : ∀ op ∈ ops, createsSecrets op = true) {h : Host} (hk : Kept place wd h) :
    (∀ s ∈ states cwd h ops, Kept place wd s) ∧ Kept place wd (after cwd h ops) ∧
      (after cwd h ops).conf.compose = h.conf.compose := by
  induction ops generalizing h with
  | nil => exact ⟨List.forall_mem_singleton.mpr hk, hk, rfl⟩
  | cons op ops ih =>
      obtain ⟨hop, hrest⟩ := List.forall_mem_cons.mp hops
      obtain ⟨hstep, hcompose⟩ := perform_kept hplace hk hop
      obtain ⟨hstates, hafter, hsame⟩ := ih hrest hstep
      exact ⟨List.forall_mem_cons.mpr ⟨hk, hstates⟩, hafter, hsame.trans hcompose⟩

theorem createSecrets_all (password user : String) (createdAt : Nat) :
    ∀ op ∈ createSecrets password user createdAt, createsSecrets op = true := by
  simp [createSecrets, createsSecrets]

theorem later_run {place : Location} {wd : PathText} {h : Host} (hk : Kept place wd h)
    (hsome : h.conf.compose.isSome = true) (r : InitRun) :
    ((∀ s ∈ states r.cwd h (initCommand h r), Findable r.cwd s) ↔
        resolve r.cwd wd = place ∧ location r = place) ∧
      (location r = place → Kept place (chosenDirectory r) (after r.cwd h (initCommand h r)) ∧
        (after r.cwd h (initCommand h r)).conf.compose.isSome = true) := by
  have hops : initCommand h r = .setWorkingDirectory (chosenDirectory r) ::
      createSecrets (credentials r).1 (credentials r).2 r.secretsCreatedAt := by
    rw [initCommand, init, if_pos hsome]
    rfl
  have hnext : Kept place (chosenDirectory r) (setWorkingDirectory h (chosenDirectory r)) :=
    ⟨rfl, hk.placed.recorded, hk.placed.composeFiles, hk.placed.secretsDirs⟩
  have hsecrets := createSecrets_all (credentials r).1 (credentials r).2 r.secretsCreatedAt
  rw [hops, states, List.forall_mem_cons, findable_iff_resolve hk hsome]
  constructor
  · refine and_congr_right fun _ => ?_
    constructor
    · intro hall
      have hfirst : setWorkingDirectory h (chosenDirectory r) ∈
          states r.cwd (setWorkingDirectory h (chosenDirectory r))
            (createSecrets (credentials r).1 (credentials r).2 r.secretsCreatedAt) := List.mem_cons_self
      exact (findable_iff_resolve hnext hsome r.cwd).mp (hall _ hfirst)
    · intro hplace s hs
      obtain ⟨hstored, hplaced⟩ := (states_kept hplace hsecrets hnext).1 s hs
      rw [findable_iff_placed hstored, show resolve r.cwd (chosenDirectory r) = place from hplace]
      exact hplaced
  · intro hplace
    obtain ⟨-, hafter, hcompose⟩ := states_kept hplace hsecrets hnext
    rw [after_cons]
    exact ⟨hafter, (congrArg Option.isSome hcompose).trans hsome⟩

theorem copyCompose_kept {place : Location} {wd : PathText} {cwd : Location} (hplace : resolve cwd wd = place)
    {h : Host} (hk : Kept place wd h) :
    Kept place wd (copyCompose cwd h) ∧ get? (copyCompose cwd h).files (composePath place) = some .dockerCompose := by
  have hpath := dockerComposeFilePath_eq hk.stored cwd
  rw [hplace] at hpath
  rw [copyCompose, hpath]
  have hfile : get? (set h.files (composePath place) .dockerCompose) (composePath place) = some .dockerCompose := by
    rw [get?_set, if_pos rfl]
  refine ⟨⟨hk.stored, fun _ => hfile, ?_, hk.placed.secretsDirs⟩, hfile⟩
  intro path h
  rw [get?_set] at h
  split at h
  next heq => exact heq
  next => exact hk.placed.composeFiles path h

theorem first_run (r : InitRun) :
    (∀ s ∈ states r.cwd fresh (initCommand fresh r), Findable r.cwd s) ∧
      Kept (location r) (chosenDirectory r) (after r.cwd fresh (initCommand fresh r)) ∧
      (after r.cwd fresh (initCommand fresh r)).conf.compose.isSome = true := by
  have hfresh : Findable r.cwd fresh := by
    constructor
    · intro hsome
      cases hsome
    · intro path hfile
      cases hfile
    · intro dir hdir
      cases hdir
  have hdirectory : Kept (location r) (chosenDirectory r) (setWorkingDirectory fresh (chosenDirectory r)) := by
    refine ⟨rfl, ?_, ?_, ?_⟩
    · intro hsome
      cases hsome
    · intro path hfile
      cases hfile
    · intro dir hdir
      cases hdir
  obtain ⟨hcopied, hfile⟩ := copyCompose_kept rfl hdirectory
  have hrecorded : Kept (location r) (chosenDirectory r)
      (setCompose (copyCompose r.cwd (setWorkingDirectory fresh (chosenDirectory r))) r.composeCreatedAt) :=
    ⟨hcopied.stored, fun _ => hfile, hcopied.placed.composeFiles, hcopied.placed.secretsDirs⟩
  obtain ⟨hstates, hafter, hcompose⟩ := states_kept rfl
    (createSecrets_all (credentials r).1 (credentials r).2 r.secretsCreatedAt) hrecorded
  have hfound : ∀ s, Kept (location r) (chosenDirectory r) s → Findable r.cwd s := fun s hs =>
    (findable_iff_placed hs.stored r.cwd).mpr hs.placed
  have hops : initCommand fresh r = .setWorkingDirectory (chosenDirectory r) :: .copyCompose ::
      .setCompose r.composeCreatedAt :: createSecrets (credentials r).1 (credentials r).2 r.secretsCreatedAt := rfl
  rw [hops, after_cons, after_cons, after_cons]
  refine ⟨?_, hafter, congrArg Option.isSome hcompose⟩
  apply List.forall_mem_cons.mpr ⟨hfresh, ?_⟩
  apply List.forall_mem_cons.mpr ⟨hfound _ hdirectory, ?_⟩
  apply List.forall_mem_cons.mpr ⟨hfound _ hcopied, ?_⟩
  exact fun s hs => hfound s (hstates s hs)

theorem forall_seen_cons (h : Host) (r : InitRun) (rs : List InitRun) :
    (∀ s ∈ seen h (r :: rs), Findable s.1 s.2) ↔
      (∀ s ∈ states r.cwd h (initCommand h r), Findable r.cwd s) ∧
        ∀ s ∈ seen (after r.cwd h (initCommand h r)) rs, Findable s.1 s.2 := by
  rw [seen, List.forall_mem_append, List.forall_mem_map]

theorem seen_later (runs : List InitRun) {place : Location} {wd : PathText} {h : Host} (hk : Kept place wd h)
    (hsome : h.conf.compose.isSome = true) :
    (∀ s ∈ seen h runs, Findable s.1 s.2) ↔
      (∀ r ∈ runs.head?, resolve r.cwd wd = place ∧ location r = place) ∧ List.IsChain Steady runs := by
  induction runs generalizing wd h with
  | nil => simp [seen]
  | cons r rs ih =>
      obtain ⟨hstates, hnext⟩ := later_run hk hsome r
      rw [forall_seen_cons, hstates, List.head?_cons, List.isChain_cons]
      constructor
      · rintro ⟨hplace, hrest⟩
        obtain ⟨hkept, hsome'⟩ := hnext hplace.2
        obtain ⟨hhead, hchain⟩ := (ih hkept hsome').mp hrest
        refine ⟨fun r' hr' => Option.some.inj hr' ▸ hplace, fun r' hr' => ?_, hchain⟩
        rw [Steady, hplace.2]
        exact hhead r' hr'
      · rintro ⟨hhead, hsteady, hchain⟩
        have hplace := hhead r rfl
        obtain ⟨hkept, hsome'⟩ := hnext hplace.2
        refine ⟨hplace, (ih hkept hsome').mpr ⟨fun r' hr' => ?_, hchain⟩⟩
        rw [← hplace.2]
        exact hsteady r' hr'

/-- Every run but the first only records its directory and creates its secrets; the compose
file stays where the first one put it. -/
theorem findable_iff (runs : List InitRun) :
    (∀ s ∈ seen fresh runs, Findable s.1 s.2) ↔ List.IsChain Steady runs := by
  cases runs with
  | nil => simp [seen]
  | cons r rs =>
      obtain ⟨hstates, hkept, hsome⟩ := first_run r
      rw [forall_seen_cons, seen_later rs hkept hsome, List.isChain_cons]
      exact and_iff_right hstates

def runIn (directory : Location) : InitRun :=
  { cwd := directory
    cwdOption := none
    passwordOption := some "hunter2"
    userOption := some "postgres"
    directory := none
    user := ""
    password := ""
    composeCreatedAt := 0
    secretsCreatedAt := 1 }

theorem secondDirectory_lost :
    ¬ ∀ s ∈ seen fresh [runIn ["srv", "mainnet"], runIn ["srv", "preprod"]], Findable s.1 s.2 := by
  intro h
  have hlast := h (["srv", "preprod"], after ["srv", "preprod"]
    (after ["srv", "mainnet"] fresh (initCommand fresh (runIn ["srv", "mainnet"])))
    [.setWorkingDirectory ⟨true, ["srv", "preprod"]⟩]) (by decide)
  obtain ⟨path, hpath, hfile⟩ := hlast.recorded (by decide)
  have hpreprod : path = ["srv", "preprod", "docker-compose.yml"] := by
    have hget : some ["srv", "preprod", "docker-compose.yml"] = some path := hpath
    exact (Option.some.inj hget).symm
  rw [hpreprod] at hfile
  revert hfile
  decide

end Runs

end CardanoGraphql.ComposeFile
