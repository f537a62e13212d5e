import Mathlib.Data.List.Basic
import Mathlib.Data.List.Perm.Basic
import CardanoGraphql.Runs

namespace CardanoGraphql.Tasks

open Runs

/-- What async functions share, and of each that is under way the `await` it stands at. -/
structure World (σ κ : Type) where
  shared : σ
  pending : List κ

/-- Async functions over a shared state: a call runs to its first `await`, and the outcome
of what is awaited takes it to the next one or to its end. What gives `none` cannot happen. -/
structure Machine (σ κ ι ω : Type) where
  call : ι → σ → Option (σ × Option κ)
  resume : κ → ω → σ → Option (σ × Option κ)

inductive Event (ι ω : Type)
  | call (i : ι)
  | settle (n : Nat) (o : ω)
deriving DecidableEq, Repr

variable {σ κ ι ω : Type} (m : Machine σ κ ι ω)

def step (w : World σ κ) : Event ι ω → Option (World σ κ)
  | .call i => (m.call i w.shared).map fun r => ⟨r.1, w.pending ++ r.2.toList⟩
  | .settle n o =>
      match w.pending[n]? with
      | none => none
      | some k => (m.resume k o w.shared).map fun r => ⟨r.1, w.pending.eraseIdx n ++ r.2.toList⟩

variable {m}

theorem alive_of_some {α : Type} {stopped : Bool} {x : Option α} {r : α}
    (h : (if stopped then none else x) = some r) : stopped = false ∧ x = some r := by
  cases stopped with
  | true => cases h
  | false => exact ⟨rfl, h⟩

theorem step_call {w w' : World σ κ} {i : ι} (h : step m w (.call i) = some w') :
    ∃ r, m.call i w.shared = some r ∧ w' = ⟨r.1, w.pending ++ r.2.toList⟩ := by
  obtain ⟨r, hr, hw⟩ := Option.map_eq_some_iff.mp h
  exact ⟨r, hr, hw.symm⟩

theorem step_settle {w w' : World σ κ} {n : Nat} {o : ω} (h : step m w (.settle n o) = some w') :
    ∃ k rest r, w.pending.Perm (k :: rest) ∧ m.resume k o w.shared = some r ∧
      w' = ⟨r.1, rest ++ r.2.toList⟩ := by
  cases hk : w.pending[n]? with
  | none => simp [step, hk] at h
  | some k =>
      simp only [step, hk] at h
      obtain ⟨r, hr, hw⟩ := Option.map_eq_some_iff.mp h
      obtain ⟨xs, ys, hsplit, hrest, -⟩ := split_at hk
      refine ⟨k, xs ++ ys, r, ?_, hr, ?_⟩
      · rw [hsplit]
        exact List.perm_middle
      · rw [← hrest, hw]

theorem collect_step {β : Type} {mark : κ → Option β} {I : σ → List β → Prop}
    (hperm : ∀ {s xs ys}, xs.Perm ys → I s xs → I s ys)
    (hcall : ∀ {i s r xs}, m.call i s = some r → I s xs → I r.1 (xs ++ (r.2.bind mark).toList))
    (hresume : ∀ {k o s r xs}, m.resume k o s = some r → I s ((mark k).toList ++ xs) →
      I r.1 (xs ++ (r.2.bind mark).toList))
    {w w' : World σ κ} {e : Event ι ω} (h : step m w e = some w') (hI : I w.shared (w.pending.filterMap mark)) :
    I w'.shared (w'.pending.filterMap mark) := by
  have hmarks : ∀ (pending : List κ) (r : Option κ),
      (pending ++ r.toList).filterMap mark = pending.filterMap mark ++ (r.bind mark).toList := by
    intro pending r
    rw [List.filterMap_append]
    cases r with
    | none => rfl
    | some k => cases hk : mark k <;> simp [hk]
  cases e with
  | call i =>
      obtain ⟨r, hr, rfl⟩ := step_call h
      rw [hmarks]
      exact hcall hr hI
  | settle n o =>
      obtain ⟨k, rest, r, hpending, hr, rfl⟩ := step_settle h
      rw [hmarks]
      apply hresume hr
      have hcons : (k :: rest).filterMap mark = (mark k).toList ++ rest.filterMap mark := by
        cases hk : mark k <;> simp [hk]
      rw [← hcons]
      exact hperm (hpending.filterMap mark) hI

theorem step_settle_one {s : σ} {k : κ} {w' : World σ κ} {n : Nat} {o : ω}
    (h : step m ⟨s, [k]⟩ (.settle n o) = some w') :
    ∃ r, m.resume k o s = some r ∧ w' = ⟨r.1, r.2.toList⟩ := by
  obtain ⟨k', rest, r, hperm, hr, hw⟩ := step_settle h
  obtain ⟨rfl, rfl⟩ := List.cons.inj (List.singleton_perm.mp hperm)
  exact ⟨r, hr, hw⟩

theorem countP_pending (p : κ → Bool) {pending rest : List κ} {k : κ} (h : pending.Perm (k :: rest)) :
    pending.countP p = rest.countP p + (p k).toNat := by
  rw [h.countP_eq p, List.countP_cons]
  cases p k <;> rfl

theorem countP_toList (p : κ → Bool) (r : Option κ) : r.toList.countP p = (r.any p).toNat := by
  cases r with
  | none => rfl
  | some k =>
      rw [Option.toList_some, List.countP_singleton, Option.any_some]
      cases p k <;> rfl

theorem countP_call (p : κ → Bool) (pending : List κ) (r : Option κ) :
    (pending ++ r.toList).countP p = pending.countP p + (r.any p).toNat := by
  rw [List.countP_append, countP_toList]

theorem any_call (p : κ → Bool) (pending : List κ) (r : Option κ) :
    (pending ++ r.toList).any p = (pending.any p || r.any p) := by
  rw [List.any_append]
  cases r with
  | none => rfl
  | some k => rw [Option.toList_some, List.any_cons, List.any_nil, Bool.or_false, Option.any_some]

theorem step_resume {w : World σ κ} {k : κ} {o : ω} {r : σ × Option κ} (hk : k ∈ w.pending)
    (hr : m.resume k o w.shared = some r) :
    ∃ n rest, w.pending.Perm (k :: rest) ∧ step m w (.settle n o) = some ⟨r.1, rest ++ r.2.toList⟩ := by
  obtain ⟨n, hn⟩ := List.mem_iff_getElem?.mp hk
  obtain ⟨xs, ys, hsplit, hrest, -⟩ := split_at hn
  refine ⟨n, xs ++ ys, ?_, ?_⟩
  · rw [hsplit]
    exact List.perm_middle
  · rw [← hrest]
    simp only [step, hn, hr, Option.map_some]

/-- The rule of progress: a function that each outcome takes nearer to `R`, until it is
there, reaches it with the others left where they are. -/
theorem reaches {Q : σ → κ → Prop} {R : σ → Prop} (rank : κ → Nat) (o : ω)
    (hstep : ∀ s k, Q s k → ∃ r, m.resume k o s = some r ∧
      (R r.1 ∨ ∃ k', r.2 = some k' ∧ Q r.1 k' ∧ rank k' < rank k))
    {w : World σ κ} {k : κ} (hk : k ∈ w.pending) (hq : Q w.shared k) :
    ∃ es v, (∀ e ∈ es, ∃ n, e = .settle n o) ∧ run (step m) w es = some v ∧ R v.shared := by
  induction hn : rank k using Nat.strong_induction_on generalizing w k with
  | h n ih =>
      obtain ⟨r, hr, hnext⟩ := hstep w.shared k hq
      obtain ⟨i, rest, -, hw⟩ := step_resume hk hr
      rcases hnext with hthere | ⟨k', hk', hq', hlt⟩
      · refine ⟨[.settle i o], ⟨r.1, rest ++ r.2.toList⟩, fun e he => ?_, ?_, hthere⟩
        · exact ⟨i, List.mem_singleton.mp he⟩
        · rw [run_cons (step m) hw, run]
      · have hmem : k' ∈ rest ++ r.2.toList := by
          rw [hk']
          exact List.mem_append_right rest List.mem_cons_self
        obtain ⟨es, v, hes, hrun, hv⟩ := ih (rank k') (hn ▸ hlt) (w := ⟨r.1, rest ++ r.2.toList⟩) hmem hq' rfl
        refine ⟨.settle i o :: es, v, fun e he => ?_, ?_, hv⟩
        · rcases List.mem_cons.mp he with rfl | he
          · exact ⟨i, rfl⟩
          · exact hes e he
        · rw [run_cons (step m) hw, hrun]

/-- Where something can always be settled, with less to settle after it, all functions end. -/
theorem drains {P : World σ κ → Prop} (size : World σ κ → Nat)
    (hstep : ∀ w, P w → w.pending ≠ [] →
      ∃ n o w', step m w (.settle n o) = some w' ∧ P w' ∧ size w' < size w)
    {w : World σ κ} (hw : P w) :
    ∃ es v, (∀ e ∈ es, ∃ n o, e = .settle n o) ∧ run (step m) w es = some v ∧ P v ∧ v.pending = [] := by
  induction hn : size w using Nat.strong_induction_on generalizing w with
  | h n ih =>
      by_cases hpending : w.pending = []
      · exact ⟨[], w, fun e he => absurd he List.not_mem_nil, rfl, hw, hpending⟩
      · obtain ⟨i, o, w', hw', hP, hlt⟩ := hstep w hw hpending
        obtain ⟨es, v, hes, hrun, hv⟩ := ih (size w') (hn ▸ hlt) hP rfl
        refine ⟨.settle i o :: es, v, fun e he => ?_, ?_, hv⟩
        · rcases List.mem_cons.mp he with rfl | he
          · exact ⟨i, o, rfl⟩
          · exact hes e he
        · rw [run_cons (step m) hw', hrun]

def complete (m : Machine σ κ ι ω) (o : ω) : Nat → World σ κ → World σ κ
  | 0, w => w
  | fuel + 1, w =>
      match step m w (.settle 0 o) with
      | none => w
      | some w' => complete m o fuel w'

theorem complete_idle (o : ω) (fuel : Nat) (s : σ) : complete m o fuel ⟨s, []⟩ = ⟨s, []⟩ := by
  cases fuel <;> rfl

theorem complete_one {s : σ} {k : κ} {o : ω} {r : σ × Option κ} (h : m.resume k o s = some r) (fuel : Nat) :
    complete m o (fuel + 1) ⟨s, [k]⟩ = complete m o fuel ⟨r.1, r.2.toList⟩ := by
  simp only [complete, step, List.getElem?_cons_zero, h, Option.map_some, List.eraseIdx_cons_zero,
    List.nil_append]

end CardanoGraphql.Tasks
