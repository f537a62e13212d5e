import CardanoGraphql.Runs

namespace CardanoGraphql.Unwinding

open Runs

variable {σ ε ω : Type} {step : σ → ε → Option σ} {hidden : ε → Bool} {view : σ → ω}

/-- A hidden event changes nothing of what is seen; any other event is possible wherever the
same is seen, and does the same to it. -/
structure Unwinds (step : σ → ε → Option σ) (hidden : ε → Bool) (view : σ → ω) : Prop where
  hides : ∀ s e t, hidden e = true → step s e = some t → view t = view s
  shows : ∀ s e t s', hidden e = false → step s e = some t → view s = view s' →
    ∃ t', step s' e = some t' ∧ view t = view t'

/-- What is seen after a run is what is seen after the run without its hidden events. -/
theorem Unwinds.run_shown (h : Unwinds step hidden view) {s s' t : σ} {es : List ε}
    (hrun : run step s es = some t) (hview : view s = view s') :
    ∃ t', run step s' (es.filter fun e => !hidden e) = some t' ∧ view t = view t' := by
  induction es generalizing s s' with
  | nil =>
      cases hrun
      exact ⟨s', rfl, hview⟩
  | cons e es ih =>
      obtain ⟨u, hu, hrest⟩ := Option.bind_eq_some_iff.mp hrun
      cases he : hidden e with
      | true =>
          rw [List.filter_cons_of_neg (by rw [he]; decide)]
          exact ih hrest ((h.hides s e u he hu).trans hview)
      | false =>
          obtain ⟨u', hu', hsame⟩ := h.shows s e u s' he hu hview
          obtain ⟨t', ht', hend⟩ := ih hrest hsame
          rw [List.filter_cons_of_pos (by rw [he]; decide)]
          exact ⟨t', (run_cons step hu' _).trans ht', hend⟩

end CardanoGraphql.Unwinding
