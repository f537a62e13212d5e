import Mathlib.Data.List.Induction
import Mathlib.Data.List.Infix

namespace CardanoGraphql.Runs

variable {σ ε : Type} (step : σ → ε → Option σ)

/-- A run of a partial step function; it is `none` as soon as an event is not
possible in the state it meets. -/
def run (s : σ) : List ε → Option σ
  | [] => some s
  | e :: es => (step s e).bind fun t => run t es

theorem run_cons {s t : σ} {e : ε} (h : step s e = some t) (es : List ε) :
    run step s (e :: es) = run step t es := by
  rw [run, h, Option.bind_some]

theorem run_append (s : σ) (es fs : List ε) :
    run step s (es ++ fs) = (run step s es).bind fun t => run step t fs := by
  induction es generalizing s with
  | nil => rfl
  | cons e es ih =>
      cases h : step s e with
      | none => simp [run, h]
      | some t => simp [run, h, ih]

theorem run_concat (s : σ) (es : List ε) (e : ε) :
    run step s (es ++ [e]) = (run step s es).bind fun t => step t e := by
  rw [run_append]
  congr 1
  funext t
  cases h : step t e <;> simp [run, h]

/-- `P` holds of the state after each event of the run, the first state included. -/
def Throughout (P : σ → Prop) (s : σ) (es : List ε) : Prop :=
  ∀ es', es' <+: es → ∀ t, run step s es' = some t → P t

def EachStep (G : σ → ε → Prop) (s : σ) (es : List ε) : Prop :=
  ∀ es' e, es' ++ [e] <+: es → ∀ t, run step s es' = some t → G t e

variable {step}

theorem EachStep.of_concat {G : σ → ε → Prop} {s : σ} {es : List ε} {e : ε}
    (h : EachStep step G s (es ++ [e])) : EachStep step G s es :=
  fun es' e' hp => h es' e' (hp.trans (List.prefix_append es [e]))

theorem EachStep.cons {G : σ → ε → Prop} {s : σ} {e : ε} {es : List ε} (he : G s e)
    (h : ∀ t, step s e = some t → EachStep step G t es) : EachStep step G s (e :: es) := by
  intro es' f hp t ht
  cases es' with
  | nil =>
      obtain ⟨rfl, -⟩ := List.cons_prefix_cons.mp hp
      exact Option.some.inj ht ▸ he
  | cons a es' =>
      obtain ⟨rfl, htail⟩ := List.cons_prefix_cons.mp hp
      obtain ⟨u, hu, hut⟩ := Option.bind_eq_some_iff.mp ht
      exact h u hu es' f htail t hut

theorem Throughout.of_concat {P : σ → Prop} {s : σ} {es : List ε} {e : ε}
    (h : Throughout step P s (es ++ [e])) : Throughout step P s es :=
  fun es' hp => h es' (hp.trans (List.prefix_append es [e]))

/-- The run rule: a guarded step keeps the invariant, so a run of guarded steps does. -/
theorem run_invariant {I : σ → Prop} {G : σ → ε → Prop}
    (hstep : ∀ s e t, I s → G s e → step s e = some t → I t)
    {s : σ} (hs : I s) {es : List ε} (hg : EachStep step G s es) : Throughout step I s es := by
  induction es using List.reverseRecOn with
  | nil =>
      intro es' hp t ht
      rw [List.prefix_nil] at hp
      subst hp
      exact Option.some.inj ht ▸ hs
  | append_singleton es e ih =>
      intro es' hp t ht
      rcases List.prefix_concat_iff.mp hp with rfl | hp
      · rw [run_concat] at ht
        obtain ⟨u, hu, hut⟩ := Option.bind_eq_some_iff.mp ht
        exact hstep u e t (ih hg.of_concat es List.prefix_rfl u hu) (hg es e List.prefix_rfl u hu) hut
      · exact ih hg.of_concat es' hp t ht

theorem throughout_of_step {I : σ → Prop} (hstep : ∀ s e t, I s → step s e = some t → I t)
    {s : σ} (hs : I s) (es : List ε) : Throughout step I s es := by
  apply run_invariant (G := fun _ _ => True) (fun s e t hI _ hst => hstep s e t hI hst) hs
  exact fun _ _ _ _ _ => trivial

theorem step_of_prefix {s t u : σ} {es es' : List ε} {e : ε} (hrun : run step s es = some u)
    (he : es' ++ [e] <+: es) (ht : run step s es' = some t) :
    ∃ v, step t e = some v ∧ run step s (es' ++ [e]) = some v := by
  obtain ⟨rest, rfl⟩ := he
  rw [run_append, run_concat, ht, Option.bind_some] at hrun
  obtain ⟨v, hv, -⟩ := Option.bind_eq_some_iff.mp hrun
  refine ⟨v, hv, ?_⟩
  rw [run_concat, ht, Option.bind_some, hv]

/-- Where a step keeps `P` exactly when it meets the guard, a run has `P` throughout
exactly when every step of it meets the guard. `I` is what the step lemma may use
besides: a step from a state with `P` keeps it, guarded or not. -/
theorem throughout_iff {I P : σ → Prop} {G : σ → ε → Prop}
    (hI : ∀ s e t, I s → P s → step s e = some t → I t)
    (hstep : ∀ s e t, I s → P s → step s e = some t → (P t ↔ G s e))
    {s : σ} (hs : I s) (hp : P s) {es : List ε} {u : σ} (hrun : run step s es = some u) :
    Throughout step P s es ↔ EachStep step G s es := by
  constructor
  · intro h
    have hboth : Throughout step I s es := by
      apply run_invariant (G := fun a _ => P a) (fun a e b ha hg hab => hI a e b ha hg hab) hs
      intro es' e he t ht
      exact h es' ((List.prefix_append es' [e]).trans he) t ht
    intro es' e he t ht
    have hpre := (List.prefix_append es' [e]).trans he
    obtain ⟨v, hv, hrun'⟩ := step_of_prefix hrun he ht
    exact (hstep t e v (hboth es' hpre t ht) (h es' hpre t ht) hv).mp (h (es' ++ [e]) he v hrun')
  · intro h
    have hkeep : ∀ a e b, I a ∧ P a → G a e → step a e = some b → I b ∧ P b := by
      intro a e b ha hg hab
      exact ⟨hI a e b ha.1 ha.2 hab, (hstep a e b ha.1 ha.2 hab).mpr hg⟩
    intro es' he t ht
    exact (run_invariant hkeep ⟨hs, hp⟩ h es' he t ht).2

theorem split_at {α : Type} {parties : List α} {n : Nat} {a : α} (h : parties[n]? = some a) :
    ∃ xs ys, parties = xs ++ a :: ys ∧ parties.eraseIdx n = xs ++ ys ∧
      ∀ b, parties.set n b = xs ++ b :: ys := by
  obtain ⟨hn, rfl⟩ := List.getElem?_eq_some_iff.mp h
  refine ⟨parties.take n, parties.drop (n + 1), ?_, List.eraseIdx_eq_take_drop_succ _ _, fun b => ?_⟩
  · rw [List.cons_getElem_drop_succ, List.take_append_drop]
  · rw [List.set_eq_take_append_cons_drop, if_pos hn]

end CardanoGraphql.Runs
