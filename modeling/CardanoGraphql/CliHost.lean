import CardanoGraphql.ComposeFile
import CardanoGraphql.ManagedImages

namespace CardanoGraphql

open ComposeFile DockerStack

/-- What the tool has stored and created, the images of the host, and what its users have
put there. -/
structure CliHost where
  host : Host
  managedImages : Option (List String)
  images : List ImageInfo
  userFiles : List (Location × String)
  userDirs : List Location
deriving DecidableEq, Repr

namespace CliHost

inductive Entry
  | file
  | directory
deriving DecidableEq, Repr

def untouched (images : List ImageInfo) : CliHost :=
  { host := ComposeFile.fresh
    managedImages := none
    images := images
    userFiles := []
    userDirs := [] }

section Files

variable (configDir : Location) (h : CliHost)

def confPath : Location := configDir ++ ["docker.json"]

/-- `Conf` writes its file with the first value that is set. -/
def stored : Bool := decide (h.host.conf ≠ ComposeFile.fresh.conf) || h.managedImages.isSome

def files : List Location :=
  h.host.files.map Prod.fst ++ h.userFiles.map Prod.fst ++ if stored h then [confPath configDir] else []

def dirs : List Location := h.host.secretsDirs ++ h.userDirs

def IsDirectory (location : Location) : Prop :=
  (∃ dir ∈ dirs h, location <+: dir) ∨ ∃ file ∈ files configDir h, location <+: file ∧ location ≠ file

instance (location : Location) : Decidable (IsDirectory configDir h location) :=
  inferInstanceAs (Decidable (_ ∨ _))

def stat (location : Location) : Option Entry :=
  if IsDirectory configDir h location then some .directory
  else if (files configDir h).contains location then some .file
  else none

def remove (root : Location) : CliHost :=
  { host :=
      { conf := if root <+: confPath configDir then ComposeFile.fresh.conf else h.host.conf
        files := h.host.files.filter fun file => decide (¬ root <+: file.1)
        secretsDirs := h.host.secretsDirs.filter fun dir => decide (¬ root <+: dir) }
    managedImages := if root <+: confPath configDir then none else h.managedImages
    images := h.images
    userFiles := h.userFiles.filter fun file => decide (¬ root <+: file.1)
    userDirs := h.userDirs.filter fun dir => decide (¬ root <+: dir) }

theorem mem_dirs_remove (root dir : Location) :
    dir ∈ dirs (remove configDir h root) ↔ dir ∈ dirs h ∧ ¬ root <+: dir := by
  simp only [dirs, remove, List.mem_append, List.mem_filter, decide_eq_true_eq, or_and_right]

theorem stored_remove (root : Location) :
    stored (remove configDir h root) = (stored h && decide (¬ root <+: confPath configDir)) := by
  by_cases hroot : root <+: confPath configDir
  · simp [stored, remove, hroot]
  · simp [stored, remove, hroot]

theorem mem_files (file : Location) :
    file ∈ files configDir h ↔ file ∈ h.host.files.map Prod.fst ∨ file ∈ h.userFiles.map Prod.fst ∨
      stored h = true ∧ file = confPath configDir := by
  rw [files, List.mem_append, List.mem_append, or_assoc]
  cases stored h <;> simp

theorem mem_files_remove (root file : Location) :
    file ∈ files configDir (remove configDir h root) ↔ file ∈ files configDir h ∧ ¬ root <+: file := by
  have hkeys : ∀ {α : Type} (entries : List (Location × α)),
      file ∈ (entries.filter fun entry => decide (¬ root <+: entry.1)).map Prod.fst ↔
        file ∈ entries.map Prod.fst ∧ ¬ root <+: file := by
    intro α entries
    simp only [List.mem_map, List.mem_filter, decide_eq_true_eq]
    constructor
    · rintro ⟨entry, ⟨hentry, hroot⟩, rfl⟩
      exact ⟨⟨entry, hentry, rfl⟩, hroot⟩
    · rintro ⟨⟨entry, hentry, rfl⟩, hroot⟩
      exact ⟨entry, ⟨hentry, hroot⟩, rfl⟩
  have hconf : (stored (remove configDir h root) = true ∧ file = confPath configDir) ↔
      (stored h = true ∧ file = confPath configDir) ∧ ¬ root <+: file := by
    rw [stored_remove, Bool.and_eq_true, decide_eq_true_eq]
    constructor
    · rintro ⟨⟨hstored, hroot⟩, rfl⟩
      exact ⟨⟨hstored, rfl⟩, hroot⟩
    · rintro ⟨⟨hstored, rfl⟩, hroot⟩
      exact ⟨⟨hstored, hroot⟩, rfl⟩
  rw [mem_files, mem_files, or_and_right, or_and_right, ← hconf]
  exact or_congr (hkeys h.host.files) (or_congr (hkeys h.userFiles) Iff.rfl)

theorem stat_remove {root location : Location} (hroot : ¬ root <+: location) (hlocation : ¬ location <+: root) :
    stat configDir (remove configDir h root) location = stat configDir h location := by
  have hbelow : ∀ path, location <+: path → ¬ root <+: path := by
    intro path hpath hrootPath
    exact (List.prefix_or_prefix_of_prefix hrootPath hpath).elim hroot hlocation
  have hdirectory : IsDirectory configDir (remove configDir h root) location ↔ IsDirectory configDir h location := by
    apply or_congr
    · apply exists_congr
      intro dir
      rw [mem_dirs_remove, and_assoc]
      exact and_congr_right fun _ => and_iff_right_of_imp (hbelow dir)
    · apply exists_congr
      intro file
      rw [mem_files_remove, and_assoc]
      exact and_congr_right fun _ => and_iff_right_of_imp fun hfile => hbelow file hfile.1
  have hfile : (files configDir (remove configDir h root)).contains location =
      (files configDir h).contains location := by
    rw [Bool.eq_iff_iff, List.contains_iff_mem, List.contains_iff_mem, mem_files_remove]
    exact and_iff_left hroot
  simp only [stat, hdirectory, hfile]

end Files

end CliHost

end CardanoGraphql
