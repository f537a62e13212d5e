import Mathlib.Data.List.Basic

namespace CardanoGraphql.Fallible

/-- A program that may throw and keeps the state it has reached when it does. -/
abbrev Program (σ α : Type) := ExceptT String (StateM σ) α

variable {σ α β : Type}

def call (h : Program σ α) (s : σ) : Except String α × σ := h.run s

def exec (h : Program σ α) (s : σ) : σ := (call h s).2

def outcome (r : Except String α) : Program σ α := fun s => (r, s)

def catchAndLog (h : Program σ Unit) : Program σ Unit := fun s => (.ok (), exec h s)

@[simp] theorem call_bind (h : Program σ α) (f : α → Program σ β) (s : σ) :
    call (h >>= f) s = match call h s with
      | (.ok a, t) => call (f a) t
      | (.error e, t) => (.error e, t) := by
  have hb : call (h >>= f) s = ExceptT.bindCont f (call h s).1 (call h s).2 := rfl
  rw [hb]
  rcases call h s with ⟨r, t⟩
  cases r <;> rfl

@[simp] theorem call_pure (a : α) (s : σ) : call (pure a : Program σ α) s = (.ok a, s) := rfl

@[simp] theorem call_throw (e : String) (s : σ) : call (throw e : Program σ α) s = (.error e, s) := rfl

@[simp] theorem call_get (s : σ) : call (get : Program σ σ) s = (.ok s, s) := rfl

@[simp] theorem call_modify (f : σ → σ) (s : σ) :
    call (modify f : Program σ PUnit) s = (.ok (), f s) := rfl

@[simp] theorem call_set (t s : σ) : call (set t : Program σ PUnit) s = (.ok (), t) := rfl

@[simp] theorem call_outcome (r : Except String α) (s : σ) : call (outcome r) s = (r, s) := rfl

@[simp] theorem call_catchAndLog (h : Program σ Unit) (s : σ) :
    call (catchAndLog h) s = (.ok (), exec h s) := rfl

theorem outcome_bind (r : Except String α) (f : α → Except String β) :
    (outcome r >>= fun a => outcome (f a)) = (outcome (r >>= f) : Program σ β) := by
  funext s
  cases r <;> rfl

theorem error_ne_ok (e : String) (a : α) : (Except.error e : Except String α) ≠ .ok a := by
  intro h
  cases h

theorem bind_ok_iff {r : Except String α} {f : α → Except String β} {b : β} :
    (r >>= f) = .ok b ↔ ∃ a, r = .ok a ∧ f a = .ok b := by
  cases r with
  | error e => exact ⟨nofun, nofun⟩
  | ok a =>
      constructor
      · exact fun h => ⟨a, rfl, h⟩
      · rintro ⟨c, hc, h⟩
        exact Except.ok.inj hc ▸ h

theorem outcome_ite (p : Prop) [Decidable p] (r : Except String Unit) :
    (if p then outcome r else pure ()) = (outcome (if p then r else .ok ()) : Program σ Unit) := by
  by_cases h : p
  · rw [if_pos h, if_pos h]
  · rw [if_neg h, if_neg h]
    rfl

theorem call_forM_cons (x : β) (xs : List β) (f : β → Program σ PUnit) (s : σ) :
    call (forM (x :: xs) f) s = match call (f x) s with
      | (.ok _, t) => call (forM xs f) t
      | (.error e, t) => (.error e, t) := by
  rw [List.forM_cons, call_bind]
  rcases call (f x) s with ⟨r, t⟩
  cases r <;> rfl

def upToFailure (result : β → Except String PUnit) : List β → List β
  | [] => []
  | x :: xs =>
      match result x with
      | .ok _ => x :: upToFailure result xs
      | .error _ => [x]

theorem exec_forM {f : β → Program σ PUnit} {result : β → Except String PUnit}
    (hresult : ∀ x s, (call (f x) s).1 = result x) (xs : List β) (s : σ) :
    exec (forM xs f) s = (upToFailure result xs).foldl (fun t x => exec (f x) t) s := by
  induction xs generalizing s with
  | nil => rfl
  | cons x xs ih =>
      have hx := hresult x s
      rw [exec, call_forM_cons, upToFailure]
      cases hcall : call (f x) s with
      | mk r t =>
          have ht : exec (f x) s = t := by rw [exec, hcall]
          rw [hcall] at hx
          cases r with
          | error e => rw [← hx, List.foldl_cons, ht, List.foldl_nil]
          | ok u =>
              rw [← hx, List.foldl_cons, ht]
              exact ih t

theorem call_forM_ok {f : β → Program σ PUnit} {xs : List β} (h : ∀ x ∈ xs, ∀ s, (call (f x) s).1 = .ok ())
    (s : σ) : (call (forM xs f) s).1 = .ok () := by
  induction xs generalizing s with
  | nil => rfl
  | cons x xs ih =>
      obtain ⟨hx, hrest⟩ := List.forall_mem_cons.mp h
      rw [call_forM_cons]
      cases hcall : call (f x) s with
      | mk r t =>
          have hr := hx s
          rw [hcall] at hr
          obtain rfl : r = .ok () := hr
          exact ih hrest t

theorem upToFailure_of_ok {result : β → Except String PUnit} {xs : List β}
    (h : ∀ x ∈ xs, result x = .ok ()) : upToFailure result xs = xs := by
  induction xs with
  | nil => rfl
  | cons x xs ih =>
      obtain ⟨hx, hrest⟩ := List.forall_mem_cons.mp h
      rw [upToFailure, hx, ih hrest]

theorem upToFailure_congr {result result' : β → Except String PUnit} {xs : List β}
    (h : ∀ x ∈ xs, result x = result' x) : upToFailure result xs = upToFailure result' xs := by
  induction xs with
  | nil => rfl
  | cons x xs ih =>
      obtain ⟨hx, hrest⟩ := List.forall_mem_cons.mp h
      rw [upToFailure, upToFailure, hx, ih hrest]

theorem mem_of_mem_upToFailure {result : β → Except String PUnit} {xs : List β} {x : β}
    (h : x ∈ upToFailure result xs) : x ∈ xs := by
  induction xs with
  | nil => exact h
  | cons y xs ih =>
      rw [upToFailure] at h
      cases hy : result y with
      | error e =>
          rw [hy, List.mem_singleton] at h
          exact h ▸ List.mem_cons_self
      | ok u =>
          rw [hy, List.mem_cons] at h
          exact List.mem_cons.mpr (h.imp_right ih)

theorem forM_flatMap {γ : Type} (xs : List β) (f : β → List γ) (g : γ → Program σ PUnit) :
    forM (xs.flatMap f) g = forM xs fun x => forM (f x) g := by
  induction xs with
  | nil => rfl
  | cons x xs ih => rw [List.flatMap_cons, List.forM_append, List.forM_cons, ih]

theorem forM_map {γ : Type} (xs : List β) (f : β → γ) (g : γ → Program σ PUnit) :
    forM (xs.map f) g = forM xs fun x => g (f x) := by
  induction xs with
  | nil => rfl
  | cons x xs ih => rw [List.map_cons, List.forM_cons, List.forM_cons, ih]

section Frame

def Keeps {γ : Type} (part : σ → γ) (h : Program σ α) : Prop := ∀ s, part (call h s).2 = part s

variable {γ : Type} {part : σ → γ}

theorem Keeps.outcome (r : Except String α) : Keeps part (outcome r : Program σ α) := fun _ => rfl

theorem Keeps.get : Keeps part (get : Program σ σ) := fun _ => rfl

theorem Keeps.modify {f : σ → σ} (hf : ∀ s, part (f s) = part s) :
    Keeps part (modify f : Program σ PUnit) := hf

theorem Keeps.bind {h : Program σ α} {f : α → Program σ β} (hh : Keeps part h)
    (hf : ∀ a, Keeps part (f a)) : Keeps part (h >>= f) := by
  intro s
  have hs := hh s
  rw [call_bind]
  rcases hcall : call h s with ⟨r, t⟩
  rw [hcall] at hs
  cases r with
  | error e => exact hs
  | ok a => exact (hf a t).trans hs

theorem Keeps.ite {p : Prop} [Decidable p] {h : Program σ PUnit} (hh : Keeps part h) :
    Keeps part (if p then h else Pure.pure ()) := by
  split
  · exact hh
  · exact fun _ => rfl

theorem Keeps.forM {f : β → Program σ PUnit} (hf : ∀ x, Keeps part (f x)) (xs : List β) :
    Keeps part (forM xs f) := by
  induction xs with
  | nil => exact fun _ => rfl
  | cons x xs ih =>
      rw [List.forM_cons]
      exact (hf x).bind fun _ => ih

end Frame

section Triples

/-- From a state with `P` the program ends with `Q`, or it throws and leaves `E`. -/
structure Triple (P : σ → Prop) (h : Program σ α) (Q : α → σ → Prop) (E : σ → Prop) : Prop where
  ends : ∀ s, P s → ∀ a t, call h s = (.ok a, t) → Q a t
  throws : ∀ s, P s → ∀ e t, call h s = (.error e, t) → E t

variable {P E : σ → Prop}

theorem Triple.of_call {h : Program σ α} {Q : α → σ → Prop}
    (hcall : ∀ s, P s → (∃ a t, call h s = (.ok a, t) ∧ Q a t) ∨ ∃ e t, call h s = (.error e, t) ∧ E t) :
    Triple P h Q E := by
  refine ⟨fun s hs a t ht => ?_, fun s hs e t ht => ?_⟩
  · rcases hcall s hs with ⟨b, u, hu, hq⟩ | ⟨e, u, hu, -⟩
    · cases hu.symm.trans ht
      exact hq
    · cases hu.symm.trans ht
  · rcases hcall s hs with ⟨b, u, hu, -⟩ | ⟨e', u, hu, he⟩
    · cases hu.symm.trans ht
    · cases hu.symm.trans ht
      exact he

theorem Triple.bind {h : Program σ α} {f : α → Program σ β} {R : α → σ → Prop} {Q : β → σ → Prop}
    (hh : Triple P h R E) (hf : ∀ a, Triple (R a) (f a) Q E) : Triple P (h >>= f) Q E := by
  apply Triple.of_call
  intro s hs
  rw [call_bind]
  rcases hcall : call h s with ⟨r, t⟩
  cases r with
  | error e => exact Or.inr ⟨e, t, rfl, hh.throws s hs e t hcall⟩
  | ok a =>
      have ht := hh.ends s hs a t hcall
      rcases hrest : call (f a) t with ⟨r, u⟩
      cases r with
      | error e => exact Or.inr ⟨e, u, hrest, (hf a).throws t ht e u hrest⟩
      | ok b => exact Or.inl ⟨b, u, hrest, (hf a).ends t ht b u hrest⟩

theorem Triple.consequence {h : Program σ α} {P' E' : σ → Prop} {Q Q' : α → σ → Prop} (hh : Triple P h Q E)
    (hp : ∀ s, P' s → P s) (hq : ∀ a s, Q a s → Q' a s) (he : ∀ s, E s → E' s) : Triple P' h Q' E' :=
  ⟨fun s hs a t ht => hq a t (hh.ends s (hp s hs) a t ht), fun s hs e t ht => he t (hh.throws s (hp s hs) e t ht)⟩

theorem Triple.of_fact {p : Prop} {h : Program σ α} {Q : α → σ → Prop} (hh : p → Triple P h Q E) :
    Triple (fun s => P s ∧ p) h Q E :=
  ⟨fun s hs => (hh hs.2).ends s hs.1, fun s hs => (hh hs.2).throws s hs.1⟩

theorem Triple.pure {a : α} {Q : α → σ → Prop} (hq : ∀ s, P s → Q a s) : Triple P (Pure.pure a) Q E := by
  apply Triple.of_call
  intro s hs
  exact Or.inl ⟨a, s, rfl, hq s hs⟩

theorem Triple.outcome (r : Except String α) (hp : ∀ s, P s → E s) :
    Triple P (outcome r) (fun _ => P) E := by
  apply Triple.of_call
  intro s hs
  cases r with
  | error e => exact Or.inr ⟨e, s, rfl, hp s hs⟩
  | ok a => exact Or.inl ⟨a, s, rfl, hs⟩

theorem Triple.exec {h : Program σ α} {Q : σ → Prop} (hh : Triple P h (fun _ => Q) Q) {s : σ} (hs : P s) :
    Q (exec h s) := by
  rw [Fallible.exec]
  rcases hcall : call h s with ⟨r, t⟩
  cases r with
  | error e => exact hh.throws s hs e t hcall
  | ok a => exact hh.ends s hs a t hcall

theorem Triple.catchAndLog {h : Program σ Unit} {Q : σ → Prop} (hh : Triple P h (fun _ => Q) Q) :
    Triple P (catchAndLog h) (fun _ => Q) E := by
  apply Triple.of_call
  intro s hs
  exact Or.inl ⟨(), Fallible.exec h s, rfl, hh.exec hs⟩

theorem Triple.ite {p : Prop} [Decidable p] {h k : Program σ α} {Q : α → σ → Prop} (hh : p → Triple P h Q E)
    (hk : ¬ p → Triple P k Q E) : Triple P (if p then h else k) Q E := by
  by_cases hp : p
  · rw [if_pos hp]
    exact hh hp
  · rw [if_neg hp]
    exact hk hp

end Triples

section Lens

variable {τ : Type}

def onPart (read : σ → τ) (write : τ → σ → σ) (h : Program τ α) : Program σ α := fun s =>
  ((call h (read s)).1, write (call h (read s)).2 s)

@[simp] theorem call_onPart (read : σ → τ) (write : τ → σ → σ) (h : Program τ α) (s : σ) :
    call (onPart read write h) s = ((call h (read s)).1, write (call h (read s)).2 s) := rfl

/-- A program does to a part of the state what another does to it alone. -/
def Refines (part : σ → τ) (h : Program σ α) (g : Program τ α) (s : σ) : Prop :=
  call g (part s) = ((call h s).1, part (call h s).2)

variable {part : σ → τ}

theorem Refines.bind {h : Program σ α} {f : α → Program σ β} {g : Program τ α} {k : α → Program τ β} {s : σ}
    (hh : Refines part h g s) (hf : ∀ a t, call h s = (.ok a, t) → Refines part (f a) (k a) t) :
    Refines part (h >>= f) (g >>= k) s := by
  rw [Refines] at hh
  rw [Refines, call_bind, call_bind, hh]
  rcases hcall : call h s with ⟨r, t⟩
  cases r with
  | error e => rfl
  | ok a => exact hf a t hcall

theorem Refines.outcome (r : Except String α) (s : σ) : Refines part (outcome r) (outcome r) s := rfl

theorem Refines.catchAndLog {h : Program σ Unit} {g : Program τ Unit} {s : σ} (hh : Refines part h g s) :
    Refines part (catchAndLog h) (catchAndLog g) s := by
  rw [Refines] at hh
  rw [Refines, call_catchAndLog, call_catchAndLog, exec, exec, hh]

end Lens

section Counted

def counted (count : σ → Nat) (r : Nat → Except String Unit) (f : σ → σ) : Program σ PUnit := do
  let s ← get
  outcome (r (count s))
  modify f

theorem call_counted (count : σ → Nat) (r : Nat → Except String Unit) (f : σ → σ) (s : σ) :
    call (counted count r f) s = (r (count s), match r (count s) with
      | .ok _ => f s
      | .error _ => s) := by
  rw [counted]
  simp only [call_bind, call_get, call_outcome]
  cases r (count s) <;> rfl

theorem Keeps.counted {γ : Type} {part : σ → γ} {count : σ → Nat} {r : Nat → Except String Unit} {f : σ → σ}
    (hf : ∀ s, part (f s) = part s) : Keeps part (counted count r f) :=
  Keeps.get.bind fun _ => (Keeps.outcome _).bind fun _ => Keeps.modify hf

theorem call_forM_counted {count : σ → Nat} {r : Nat → Except String Unit} {f : β → σ → σ}
    (hcount : ∀ x s, count (f x s) = count s + 1) (xs : List β) (s : σ) :
    ((call (forM xs fun x => counted count r (f x)) s).1 = .ok () ↔
      ∀ i < xs.length, r (count s + i) = .ok ()) ∧
    ((call (forM xs fun x => counted count r (f x)) s).1 = .ok () →
      (call (forM xs fun x => counted count r (f x)) s).2 = xs.foldl (fun t x => f x t) s) := by
  induction xs generalizing s with
  | nil => exact ⟨iff_of_true rfl fun i hi => absurd hi (Nat.not_lt_zero i), fun _ => rfl⟩
  | cons x xs ih =>
      rw [call_forM_cons, call_counted]
      cases hr : r (count s) with
      | error e =>
          refine ⟨iff_of_false (error_ne_ok _ _) fun h => ?_, fun h => absurd h (error_ne_ok _ _)⟩
          have hfirst := h 0 (Nat.succ_pos _)
          rw [Nat.add_zero, hr] at hfirst
          cases hfirst
      | ok u =>
          obtain ⟨hrest, hfinal⟩ := ih (f x s)
          rw [hcount] at hrest
          refine ⟨hrest.trans ?_, hfinal⟩
          constructor
          · intro h i hi
            cases i with
            | zero => exact hr
            | succ i =>
                have := h i (Nat.lt_of_succ_lt_succ hi)
                rwa [Nat.add_assoc, Nat.add_comm 1 i] at this
          · intro h i hi
            have := h (i + 1) (Nat.succ_lt_succ hi)
            rwa [Nat.add_assoc, Nat.add_comm 1 i]

end Counted

end CardanoGraphql.Fallible
