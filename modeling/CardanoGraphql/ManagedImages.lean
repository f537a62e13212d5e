import CardanoGraphql.DockerStack
import CardanoGraphql.Runs

namespace CardanoGraphql.ManagedImages

open Fallible DockerStack Runs

structure ImageHost where
  images : List ImageInfo
  managedImages : Option (List String)
  pulled : List String
  attempted : List String
deriving DecidableEq, Repr

/-- What one call meets; a pull that succeeds leaves its image on the host. -/
structure EnsureCall where
  utilityImage : String
  listImages : Except String Unit
  pull : Except String ImageInfo
  listImagesAfterPull : Except String Unit
  setManagedImages : Except String Unit

/-- After a cleanup nothing is stored, or what was before where it has failed. -/
def start (images : List ImageInfo) (stored : Option String) : ImageHost :=
  { images := images
    managedImages := stored.map fun id => [id]
    pulled := []
    attempted := [] }

def putImage (images : List ImageInfo) (image : ImageInfo) : List ImageInfo :=
  images.filter (fun other => decide (other.id ≠ image.id)) ++ [image]

def pullImage (h : ImageHost) (image : ImageInfo) : ImageHost :=
  { h with
    images := putImage h.images image
    pulled := h.pulled ++ [image.id] }

/-- `concat` gives a new list, and nothing takes it. -/
def ensureUtilityImageAvailable (c : EnsureCall) : Program ImageHost Unit := do
  outcome c.listImages
  if (getImage (← get).images c.utilityImage).isNone then
    let image ← outcome c.pull
    modify fun h => pullImage h image
    outcome c.listImagesAfterPull
    match getImage (← get).images c.utilityImage with
    | none => throw "Cannot read properties of undefined (reading 'Id')"
    | some image =>
      let managedImages := (← get).managedImages
      let newValue := [image.id]
      let _ := managedImages.map fun ids => newValue ++ ids
      outcome c.setManagedImages
      modify fun h => { h with managedImages := some newValue }

def removeImage (remove : String → Except String Unit) (imageId : String) : Program ImageHost Unit := do
  modify fun h => { h with attempted := h.attempted ++ [imageId] }
  outcome (remove imageId)
  modify fun h => { h with images := h.images.filter fun image => decide (image.id ≠ imageId) }

def cleanup (remove : String → Except String Unit) : Program ImageHost Unit := do
  match (← get).managedImages with
  | none => pure ()
  | some managedImageIds => forM managedImageIds (removeImage remove)

inductive Event
  | ensure (c : EnsureCall)
  | others (images : List ImageInfo)

def step (h : ImageHost) : Event → Option ImageHost
  | .ensure c => some (exec (ensureUtilityImageAvailable c) h)
  | .others images => some { h with images := images }

/-- Each id that was pulled is stored, and `cleanup` comes to it whatever fails. -/
def Remembered (h : ImageHost) : Prop :=
  ∀ id ∈ h.pulled, id ∈ h.managedImages.getD [] ∧
    ∀ remove, id ∈ (exec (cleanup remove) h).attempted

def pulls (c : EnsureCall) (h : ImageHost) : Option ImageInfo :=
  match c.listImages, getImage h.images c.utilityImage, c.pull with
  | .ok _, none, .ok image => some image
  | _, _, _ => none

def records (c : EnsureCall) (image : ImageInfo) : Bool :=
  match c.listImagesAfterPull, c.setManagedImages with
  | .ok _, .ok _ => decide (c.utilityImage ∈ image.repoTags.getD [])
  | _, _ => false

def Kept (h : ImageHost) : Event → Prop
  | .ensure c => ∀ image, pulls c h = some image →
      records c image = true ∧ (∀ id ∈ h.pulled, id = image.id) ∨ image.id ∈ h.managedImages.getD []
  | .others _ => True

section Calls

variable (c : EnsureCall) (h : ImageHost)

theorem getImage_putImage {images : List ImageInfo} {name : String} (hnone : getImage images name = none)
    (image : ImageInfo) : getImage (putImage images image) name =
      if name ∈ image.repoTags.getD [] then some image else none := by
  have hothers : getImage (images.filter fun other => decide (other.id ≠ image.id)) name = none := by
    rw [getImage, List.find?_eq_none] at hnone ⊢
    exact fun other hother => hnone other (List.mem_filter.mp hother).1
  rw [getImage] at hothers
  rw [getImage, putImage, List.find?_append, hothers, Option.none_or, List.find?_singleton]
  simp only [decide_eq_true_eq]

theorem exec_ensure : exec (ensureUtilityImageAvailable c) h =
    match pulls c h with
    | none => h
    | some image =>
        if records c image then { pullImage h image with managedImages := some [image.id] }
        else pullImage h image := by
  obtain ⟨name, list, pull, listAgain, setting⟩ := c
  rw [exec, ensureUtilityImageAvailable, pulls]
  cases list with
  | error e => rfl
  | ok u =>
      cases hhas : getImage h.images name with
      | some image => simp [hhas]
      | none =>
          cases pull with
          | error e => simp [hhas]
          | ok image =>
              have hgot := getImage_putImage hhas image
              cases listAgain with
              | error e => simp [hhas, records]
              | ok u =>
                  by_cases hname : name ∈ image.repoTags.getD []
                  · rw [if_pos hname] at hgot
                    cases setting <;> simp [hhas, pullImage, hgot, records, hname]
                  · rw [if_neg hname] at hgot
                    cases setting <;> simp [hhas, pullImage, hgot, records, hname]

end Calls

section Invariant

structure Single (h : ImageHost) : Prop where
  stored : (h.managedImages.getD []).length ≤ 1
  before : h.attempted = []

variable {h t : ImageHost} {e : Event}

theorem exec_removeImage (remove : String → Except String Unit) (id : String) (h : ImageHost) :
    (exec (removeImage remove id) h).attempted = h.attempted ++ [id] := by
  rw [exec, removeImage]
  cases remove id <;> simp

theorem call_removeImage (remove : String → Except String Unit) (id : String) (h : ImageHost) :
    (call (removeImage remove id) h).1 = remove id := by
  rw [removeImage]
  cases remove id <;> simp

theorem attempted_removeImages (remove : String → Except String Unit) (ids : List String) (h : ImageHost) :
    (ids.foldl (fun t id => exec (removeImage remove id) t) h).attempted = h.attempted ++ ids := by
  induction ids generalizing h with
  | nil => exact (List.append_nil _).symm
  | cons id ids ih => rw [List.foldl_cons, ih, exec_removeImage, List.append_assoc, List.singleton_append]

theorem attempted_cleanup (remove : String → Except String Unit) (h : ImageHost) :
    (exec (cleanup remove) h).attempted = h.attempted ++ upToFailure remove (h.managedImages.getD []) := by
  rw [exec, cleanup, call_bind, call_get]
  cases hids : h.managedImages with
  | none => simp [hids, upToFailure]
  | some ids =>
      simp only [hids, Option.getD_some]
      have hloop := exec_forM (call_removeImage remove) ids h
      rw [exec] at hloop
      rw [hloop, attempted_removeImages]

theorem remembered_iff (hsingle : Single h) :
    Remembered h ↔ ∀ id ∈ h.pulled, id ∈ h.managedImages.getD [] := by
  refine forall₂_congr fun id _ => and_iff_left_of_imp fun hid remove => ?_
  rw [attempted_cleanup, hsingle.before, List.nil_append]
  obtain ⟨other, hids⟩ := List.length_eq_one_iff.mp (Nat.le_antisymm hsingle.stored (List.length_pos_of_mem hid))
  rw [hids, List.mem_singleton] at hid
  rw [hids, upToFailure, hid]
  cases remove other <;> exact List.mem_cons_self

theorem single_step (hsingle : Single h) (hstep : step h e = some t) : Single t := by
  cases e with
  | others images =>
      obtain rfl := Option.some.inj hstep
      exact ⟨hsingle.stored, hsingle.before⟩
  | ensure c =>
      rw [← Option.some.inj hstep, exec_ensure]
      cases pulls c h with
      | none => exact hsingle
      | some image =>
          dsimp only
          split
          · exact ⟨Nat.le_refl 1, hsingle.before⟩
          · exact ⟨hsingle.stored, hsingle.before⟩

theorem remembered_step_iff (hsingle : Single h) (hremembered : Remembered h) (hstep : step h e = some t) :
    Remembered t ↔ Kept h e := by
  rw [remembered_iff (single_step hsingle hstep)]
  rw [remembered_iff hsingle] at hremembered
  cases e with
  | others images =>
      obtain rfl := Option.some.inj hstep
      exact iff_of_true hremembered trivial
  | ensure c =>
      rw [← Option.some.inj hstep, exec_ensure, Kept]
      cases pulls c h with
      | none => exact iff_of_true hremembered fun image himage => by cases himage
      | some image =>
          have hforall : ∀ p : ImageInfo → Prop, (∀ other, some image = some other → p other) ↔ p image := by
            intro p
            exact ⟨fun hp => hp image rfl, fun hp other hother => Option.some.inj hother ▸ hp⟩
          rw [hforall]
          dsimp only
          cases hrecords : records c image with
          | true =>
              rw [if_pos rfl]
              dsimp only [pullImage]
              rw [Option.getD_some, List.forall_mem_append, List.forall_mem_singleton]
              simp only [List.mem_singleton, and_true, true_and]
              refine ⟨Or.inl, fun h => h.elim id fun himage other hother => ?_⟩
              obtain ⟨x, hids⟩ := List.length_eq_one_iff.mp
                (Nat.le_antisymm hsingle.stored (List.length_pos_of_mem himage))
              have hotherMem := hremembered other hother
              rw [hids, List.mem_singleton] at himage hotherMem
              rw [himage, hotherMem]
          | false =>
              rw [if_neg Bool.false_ne_true]
              dsimp only [pullImage]
              rw [List.forall_mem_append, List.forall_mem_singleton]
              simp only [Bool.false_eq_true, false_and, false_or]
              exact and_iff_right hremembered

theorem single_start (images : List ImageInfo) (stored : Option String) : Single (start images stored) := by
  refine ⟨?_, rfl⟩
  cases stored with
  | none => exact Nat.zero_le 1
  | some id => exact Nat.le_refl 1

theorem run_isSome (h : ImageHost) (es : List Event) : ∃ t, run step h es = some t := by
  induction es generalizing h with
  | nil => exact ⟨h, rfl⟩
  | cons e es ih =>
      obtain ⟨t, ht⟩ : ∃ t, step h e = some t := by cases e <;> exact ⟨_, rfl⟩
      rw [run_cons step ht]
      exact ih t

end Invariant

/-- No image is forgotten exactly where all that is pulled is one image. -/
theorem remembered_throughout_iff (images : List ImageInfo) (stored : Option String) (es : List Event) :
    Throughout step Remembered (start images stored) es ↔ EachStep step Kept (start images stored) es := by
  obtain ⟨t, ht⟩ := run_isSome (start images stored) es
  apply throughout_iff (fun _ _ _ hsingle _ hstep => single_step hsingle hstep)
    (fun _ _ _ hsingle hremembered hstep => remembered_step_iff hsingle hremembered hstep)
    (single_start images stored) ?_ ht
  exact fun id hid => absurd hid List.not_mem_nil

def pulling (name id : String) : EnsureCall :=
  { utilityImage := name
    listImages := .ok ()
    pull := .ok ⟨id, some [name]⟩
    listImagesAfterPull := .ok ()
    setManagedImages := .ok () }

theorem secondImage_replaces : ¬ Throughout step Remembered (start [] none)
    [.ensure (pulling "alpine:3.12.0" "sha256:a24b"), .ensure (pulling "alpine:3.13.0" "sha256:7731")] := by
  intro h
  have hlast := (h _ List.prefix_rfl _ rfl "sha256:a24b" (by decide)).1
  revert hlast
  decide

end CardanoGraphql.ManagedImages
