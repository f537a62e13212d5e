import CardanoGraphql.Polling

namespace CardanoGraphql.PollingShutdown

open Runs Tasks DataFetcher Polling

variable {V : Type}

def initializing : Await → Bool
  | .fetching _ | .fetched => true
  | .handling _ _ | .handled _ | .clearing _ _ => false

def NoInitialize (es : List (Event Trigger (Outcome V))) : Prop :=
  ∀ throws, .call (.callInitialize throws) ∉ es

/-- After a `shutdown` from `w` that waits at `k`: once it has resolved and every `initialize`
has finished, the fetch function is not called before the next `initialize`. -/
def Silences (w : World (Poller V) Await) : Prop :=
  ∀ k w₁ es w₂, step poller w (.call .callShutdown) = some w₁ → w₁.pending = w.pending ++ [k] →
    run (step poller) w₁ es = some w₂ → NoInitialize es →
    k ∉ w₂.pending → w₂.pending.any initializing = false →
    ∀ fs w₃, run (step poller) w₂ fs = some w₃ → NoInitialize fs →
      w₃.shared.calls.length = w₂.shared.calls.length

/-- No `initialize` is under way, and no timer but the latest is live. -/
def Alone (w : World (Poller V) Await) : Prop :=
  ∀ timer, w.shared.fetcher.pollingQueryTimer = some timer →
    w.pending.any initializing = false ∧ ∀ t ∈ w.shared.fetcher.live, t = timer

structure Silent (w : World (Poller V) Await) : Prop where
  finished : w.pending.any initializing = false
  cleared : w.shared.fetcher.live = []

section Silence

variable {w w' : World (Poller V) Await}

theorem any_resumed {rest : List Await} {k : Await} {r : Option Await} (hpending : w.pending.Perm (k :: rest))
    (hr : initializing k = false → r.any initializing = false) (hw : w.pending.any initializing = false) :
    initializing k = false ∧ (rest ++ r.toList).any initializing = false := by
  rw [hpending.any_eq, List.any_cons, Bool.or_eq_false_iff] at hw
  refine ⟨hw.1, ?_⟩
  rw [any_call, hw.2, Bool.false_or]
  exact hr hw.1

theorem resume_silent {k : Await} {o : Outcome V} {s : Poller V} {r : Poller V × Option Await}
    (h : resume k o s = some r) (hk : initializing k = false) :
    r.2.any initializing = false ∧ r.1.fetcher.live = s.fetcher.live ∧ r.1.calls.length = s.calls.length := by
  have hlive : ∀ o, (s.fetcher.endFetch o).live = s.fetcher.live := by
    rintro (v | _ | _) <;> rfl
  cases resumed h with
  | fetching call o ho | fetched => cases hk
  | handling timer call o ho => exact ⟨rfl, hlive o, List.length_set⟩
  | handled timer | clearing timer n hidle => exact ⟨rfl, rfl, rfl⟩

theorem receive_silent {i : Trigger} {s : Poller V} {r : Poller V × Option Await} (h : receive i s = some r)
    (hi : ∀ throws, i ≠ .callInitialize throws) (hs : s.fetcher.live = []) :
    r.2.any initializing = false ∧ r.1.fetcher.live = [] ∧ r.1.calls = s.calls := by
  cases received h with
  | initialized throws => exact absurd rfl (hi throws)
  | refused htimer => exact ⟨rfl, hs, rfl⟩
  | cleared timer htimer =>
      refine ⟨rfl, ?_, rfl⟩
      dsimp only [clearTimer]
      rw [hs, List.filter_nil]
  | ticked timer throws hlive hidle =>
      rw [hs] at hlive
      exact absurd hlive List.not_mem_nil

theorem silent_step {e : Event Trigger (Outcome V)} (h : step poller w e = some w')
    (he : ∀ throws, e ≠ .call (.callInitialize throws)) (hw : Silent w) :
    Silent w' ∧ w'.shared.calls.length = w.shared.calls.length := by
  obtain ⟨hfinished, hcleared⟩ := hw
  cases e with
  | call i =>
      obtain ⟨r, hr, rfl⟩ := step_call h
      obtain ⟨hnone, hlive, hcalls⟩ := receive_silent hr (fun throws hi => he throws (congrArg _ hi)) hcleared
      refine ⟨⟨?_, hlive⟩, congrArg List.length hcalls⟩
      rw [any_call, hfinished, Bool.false_or]
      exact hnone
  | settle n o =>
      obtain ⟨k, rest, r, hpending, hr, rfl⟩ := step_settle h
      obtain ⟨hk, hany⟩ := any_resumed hpending (fun hk => (resume_silent hr hk).1) hfinished
      obtain ⟨-, hlive, hcalls⟩ := resume_silent hr hk
      exact ⟨⟨hany, hlive.trans hcleared⟩, hcalls⟩

theorem silent_run {es : List (Event Trigger (Outcome V))} (hes : NoInitialize es) (hw : Silent w)
    (h : run (step poller) w es = some w') :
    Silent w' ∧ w'.shared.calls.length = w.shared.calls.length := by
  induction es generalizing w with
  | nil =>
      obtain rfl := Option.some.inj h
      exact ⟨hw, rfl⟩
  | cons e es ih =>
      obtain ⟨v, hv, hrun⟩ := Option.bind_eq_some_iff.mp h
      obtain ⟨hsilent, hcalls⟩ := silent_step hv (fun throws he => hes throws (he ▸ List.mem_cons_self)) hw
      obtain ⟨hsilent', hcalls'⟩ := ih (fun throws he => hes throws (List.mem_cons_of_mem e he)) hsilent hrun
      exact ⟨hsilent', hcalls'.trans hcalls⟩

theorem silences_of_alone (hw : Alone w) : Silences w := by
  intro k w₁ es w₂ hshutdown hk hrun hes _ _ fs w₃ hrun' hfs
  obtain ⟨r, hr, rfl⟩ := step_call hshutdown
  have hr : receive .callShutdown w.shared = some r := hr
  cases received hr with
  | refused htimer => simp at hk
  | cleared timer htimer =>
      obtain ⟨hfinished, hlive⟩ := hw timer htimer
      have hcleared : (w.shared.fetcher.clearTimer timer).live = [] := by
        dsimp only [clearTimer]
        rw [List.filter_eq_nil_iff]
        intro t ht
        simp [hlive t ht]
      refine (silent_run hfs (silent_run hes ⟨?_, hcleared⟩ hrun).1 hrun').2
      rw [any_call, hfinished]
      rfl

end Silence

def handlerOf : Await → Option Nat
  | .handling timer _ | .handled timer => some timer
  | .fetching _ | .fetched | .clearing _ _ => none

def Handlers (s : Poller V) (timers : List Nat) : Prop := s.fetcher.handling.Perm timers

def Restless (w : World (Poller V) Await) : Prop :=
  w.pending.any initializing = true ∨ w.shared.fetcher.live ≠ []

section Noise

variable {w w' : World (Poller V) Await}

theorem callFetch_handling (s : Poller V) (throws : Bool) :
    (callFetch s throws).1.fetcher.handling = s.fetcher.handling := by
  rw [callFetch]
  split
  · rfl
  · split <;> rfl

theorem endFetch_handling (f : DataFetcher V) (o : Fetch V) : (f.endFetch o).handling = f.handling := by
  cases o <;> rfl

theorem receive_handlers {i : Trigger} {s : Poller V} {r : Poller V × Option Await} {timers : List Nat}
    (h : receive i s = some r) (hs : Handlers s timers) :
    Handlers r.1 (timers ++ (r.2.bind handlerOf).toList) := by
  have hnone : timers ++ (none : Option Nat).toList = timers := List.append_nil timers
  cases received h with
  | initialized throws =>
      have hmark : ∀ call : Option Nat, handlerOf (call.elim .fetched .fetching) = none := by
        rintro (_ | call) <;> rfl
      rw [Handlers, Option.bind_some, hmark, hnone, callFetch_handling]
      exact hs
  | refused htimer =>
      rw [Option.bind_none, hnone]
      exact hs
  | cleared timer htimer =>
      rw [Option.bind_some, handlerOf, hnone]
      exact hs
  | ticked timer throws hlive hidle =>
      have hmark : ∀ call : Option Nat, handlerOf (call.elim (.handled timer) (.handling timer)) = some timer := by
        rintro (_ | call) <;> rfl
      rw [Handlers, Option.bind_some, hmark, callFetch_handling]
      exact (hs.cons timer).trans (List.perm_append_singleton timer timers).symm

theorem resume_handlers {k : Await} {o : Outcome V} {s : Poller V} {r : Poller V × Option Await}
    {timers : List Nat} (h : resume k o s = some r) (hs : Handlers s ((handlerOf k).toList ++ timers)) :
    Handlers r.1 (timers ++ (r.2.bind handlerOf).toList) := by
  have hnone : timers ++ (none : Option Nat).toList = timers := List.append_nil timers
  cases resumed h with
  | fetching call o ho =>
      rw [Option.bind_some, handlerOf, hnone, Handlers, endCall, endFetch_handling]
      exact hs
  | handling timer call o ho =>
      rw [Handlers, endCall, endFetch_handling]
      exact hs.trans (List.perm_append_singleton timer timers).symm
  | fetched | clearing timer n hidle =>
      rw [Option.bind_none, hnone]
      exact hs
  | handled timer =>
      rw [Option.bind_none, hnone]
      have herase := List.Perm.erase timer hs
      rwa [handlerOf, Option.toList_some, List.singleton_append, List.erase_cons_head] at herase

theorem handlers_step {e : Event Trigger (Outcome V)} (h : step poller w e = some w')
    (hw : Handlers w.shared (w.pending.filterMap handlerOf)) :
    Handlers w'.shared (w'.pending.filterMap handlerOf) :=
  collect_step (I := Handlers) (fun hperm hs => hs.trans hperm) receive_handlers resume_handlers h hw

theorem resume_restless {k : Await} {o : Outcome V} {s : Poller V} {r : Poller V × Option Await}
    (h : resume k o s = some r) (hs : initializing k = true ∨ s.fetcher.live ≠ []) :
    r.2.any initializing = true ∨ r.1.fetcher.live ≠ [] := by
  cases hk : initializing k with
  | false =>
      rw [(resume_silent h hk).2.1]
      exact hs.imp_left fun hk' => absurd (hk.symm.trans hk') Bool.false_ne_true
  | true =>
      cases resumed h with
      | handling timer call o ho | handled timer | clearing timer n hidle => cases hk
      | fetching call o ho => exact Or.inl rfl
      | fetched => exact Or.inr (List.append_ne_nil_of_right_ne_nil _ (List.cons_ne_nil _ _))

theorem restless_settle {n : Nat} {o : Outcome V} (h : step poller w (.settle n o) = some w')
    (hw : Restless w) : Restless w' := by
  obtain ⟨k, rest, r, hpending, hr, rfl⟩ := step_settle h
  rw [Restless, hpending.any_eq, List.any_cons, Bool.or_eq_true] at hw
  rw [Restless, any_call, Bool.or_eq_true]
  rcases hw with (hk | hrest) | hlive
  · exact (resume_restless hr (Or.inl hk)).imp_left Or.inr
  · exact Or.inl (Or.inl hrest)
  · exact (resume_restless hr (Or.inr hlive)).imp_left Or.inr

def size (w : World (Poller V) Await) : Nat := w.pending.length + w.pending.countP fun k => (flight k).isSome

theorem resume_waiting {k : Await} (s : Poller V) (hk : initializing k = true ∨ (handlerOf k).isSome) :
    ∃ o r, resume k o s = some r ∧
      r.2.toList.length + ((r.2.bind flight).isSome).toNat < 1 + ((flight k).isSome).toNat := by
  cases k with
  | fetching call => exact ⟨.fetched .rejects, _, rfl, Nat.lt_succ_self 1⟩
  | handling timer call => exact ⟨.fetched .rejects, _, rfl, Nat.lt_succ_self 1⟩
  | fetched | handled timer => exact ⟨.ok, _, rfl, Nat.zero_lt_one⟩
  | clearing timer n => rcases hk with hk | hk <;> cases hk

theorem resume_clearing {timer n : Nat} {s : Poller V} (h : s.fetcher.handling = []) :
    resume (.clearing timer n) .ok s = some (s, none) := by
  rw [resume, h, if_neg List.not_mem_nil]

theorem settle_one (hw : Handlers w.shared (w.pending.filterMap handlerOf)) (hpending : w.pending ≠ []) :
    ∃ n o w', step poller w (.settle n o) = some w' ∧ size w' < size w := by
  have hready : ∃ k ∈ w.pending, ∃ o r, resume k o w.shared = some r ∧
      r.2.toList.length + ((r.2.bind flight).isSome).toNat < 1 + ((flight k).isSome).toNat := by
    by_cases hwaiting : ∃ k ∈ w.pending, initializing k = true ∨ (handlerOf k).isSome
    · obtain ⟨k, hk, hwaiting⟩ := hwaiting
      exact ⟨k, hk, resume_waiting w.shared hwaiting⟩
    · push Not at hwaiting
      have hnone : w.pending.filterMap handlerOf = [] := by
        rw [List.filterMap_eq_nil_iff]
        intro k hk
        exact Option.not_isSome_iff_eq_none.mp (hwaiting k hk).2
      have hidle : w.shared.fetcher.handling = [] := by
        rw [Handlers, hnone] at hw
        exact List.perm_nil.mp hw
      obtain ⟨k, hk⟩ := List.exists_mem_of_ne_nil w.pending hpending
      cases k with
      | fetching call | fetched => exact absurd rfl (hwaiting _ hk).1
      | handling timer call | handled timer => exact absurd rfl (hwaiting _ hk).2
      | clearing timer n => exact ⟨_, hk, .ok, _, resume_clearing hidle, Nat.zero_lt_one⟩
  obtain ⟨k, hk, o, r, hr, hlt⟩ := hready
  obtain ⟨n, rest, hperm, hstep⟩ := step_resume (m := poller) hk hr
  refine ⟨n, o, _, hstep, ?_⟩
  have hflight : (r.2.any fun k => (flight k).isSome) = (r.2.bind flight).isSome := by
    cases r.2 <;> rfl
  rw [size, size, countP_call, countP_pending _ hperm, hperm.length_eq, List.length_append, List.length_cons,
    hflight]
  omega

theorem drained (hhandlers : Handlers w.shared (w.pending.filterMap handlerOf))
    (hsound : Sound w.shared (w.pending.filterMap flight)) (hrestless : Restless w) :
    ∃ es v, (∀ e ∈ es, ∃ n o, e = .settle n o) ∧ run (step poller) w es = some v ∧ v.pending = [] ∧
      v.shared.fetcher.isFetching = false ∧ v.shared.fetcher.handling = [] ∧ v.shared.fetcher.live ≠ [] := by
  obtain ⟨es, v, hes, hrun, ⟨hhandlers, hsound, hrestless⟩, hpending⟩ := @drains _ _ _ _ poller
    (fun w : World (Poller V) Await => Handlers w.shared (w.pending.filterMap handlerOf) ∧
      Sound w.shared (w.pending.filterMap flight) ∧ Restless w) size (by
    intro w hw hpending
    obtain ⟨n, o, w', hstep, hlt⟩ := settle_one hw.1 hpending
    have hkept := And.intro (sound_step hstep hw.2.1) (restless_settle hstep hw.2.2)
    exact ⟨n, o, w', hstep, ⟨handlers_step hstep hw.1, hkept⟩, hlt⟩)
    w ⟨hhandlers, hsound, hrestless⟩
  rw [hpending] at hhandlers hsound
  refine ⟨es, v, hes, hrun, hpending, ?_, List.perm_nil.mp hhandlers, ?_⟩
  · cases hsound.flying with
    | idle free ended => exact free
  · rcases hrestless with hany | hlive
    · rw [hpending] at hany
      cases hany
    · exact hlive

theorem tick {s : Poller V} {timer : Nat} (hlive : timer ∈ s.fetcher.live) (hidle : s.fetcher.handling = [])
    (hfree : s.fetcher.isFetching = false) :
    ∃ t, step poller (⟨s, []⟩ : World (Poller V) Await) (.call (.interval timer true)) = some t ∧
      t.shared.calls.length = s.calls.length + 1 := by
  have hcall : callFetch (beginHandler s timer) true =
      ({ beginHandler s timer with
          fetcher := (beginHandler s timer).fetcher.beginFetch.endFetch .throws
          calls := s.calls ++ [some .throws] }, none) := by
    have hfree' : (beginHandler s timer).fetcher.isFetching = false := hfree
    rw [callFetch, hfree', if_neg Bool.false_ne_true, if_pos rfl]
    rfl
  refine ⟨⟨(callFetch (beginHandler s timer) true).1, [.handled timer]⟩, ?_, ?_⟩
  · have htick : onInterval s timer true =
        some ((callFetch (beginHandler s timer) true).1, some (.handled timer)) := by
      rw [onInterval, if_neg (by simp [hlive, hidle]), hcall]
      rfl
    exact congrArg (Option.map _) htick
  · rw [hcall]
    exact List.length_append

theorem alone_of_silences (hhandlers : Handlers w.shared (w.pending.filterMap handlerOf))
    (hsound : Sound w.shared (w.pending.filterMap flight)) (hw : Silences w) : Alone w := by
  intro timer htimer
  by_contra hnot
  obtain ⟨w₁, hw₁, hpending, hlive⟩ : ∃ w₁, step poller w (.call .callShutdown) = some w₁ ∧
      w₁.pending = w.pending ++ [.clearing timer w.shared.shutdowns] ∧
      w₁.shared.fetcher.live = w.shared.fetcher.live.filter (· ≠ timer) := by
    refine ⟨⟨(shutdown w.shared).1, w.pending ++ (shutdown w.shared).2.toList⟩, rfl, ?_, ?_⟩
    · rw [shutdown, htimer]
      rfl
    · rw [shutdown, htimer]
      rfl
  have hrestless : Restless w₁ := by
    rw [Restless, hpending, List.any_append, Bool.or_eq_true]
    cases hany : w.pending.any initializing with
    | true => exact Or.inl (Or.inl rfl)
    | false =>
        refine Or.inr fun hnone => hnot ⟨hany, fun t ht => ?_⟩
        rw [hlive, List.filter_eq_nil_iff] at hnone
        simpa using hnone t ht
  obtain ⟨es, v, hes, hrun, hend, hfree, hidle, hlive'⟩ :=
    drained (handlers_step hw₁ hhandlers) (sound_step hw₁ hsound) hrestless
  obtain ⟨t, ht⟩ := List.exists_mem_of_ne_nil _ hlive'
  obtain ⟨s, pending⟩ := v
  obtain rfl : pending = [] := hend
  obtain ⟨v', hv', hcalls⟩ := tick ht hidle hfree
  have hnoInit : NoInitialize es := by
    intro throws hmem
    obtain ⟨n, o, he⟩ := hes _ hmem
    cases he
  have hsame := hw _ w₁ es _ hw₁ hpending hrun hnoInit List.not_mem_nil rfl [.call (.interval t true)] v'
    (by rw [run_cons _ hv', run]) (fun throws hmem => by cases List.mem_singleton.mp hmem)
  rw [hcalls] at hsame
  exact absurd hsame (Nat.succ_ne_self _)

end Noise

theorem handlers_started : Handlers (started : World (Poller V) Await).shared [] := List.Perm.refl []

theorem handlers_run (es : List (Event Trigger (Outcome V))) :
    Throughout (step poller) (fun w => Handlers w.shared (w.pending.filterMap handlerOf)) started es :=
  throughout_of_step (fun _ _ _ hw h => handlers_step h hw) handlers_started es

/-- The handle of a timer is kept in one field: a shutdown silences the fetcher exactly where
that timer is the only one. -/
theorem shutdown_silences_iff (es : List (Event Trigger (Outcome V))) :
    EachStep (step poller) (fun w e => e = .call .callShutdown → Silences w) started es ↔
      EachStep (step poller) (fun w e => e = .call .callShutdown → Alone w) started es := by
  have hstate : ∀ es' e, es' ++ [e] <+: es → ∀ w, run (step poller) started es' = some w →
      (Silences w ↔ Alone w) := by
    intro es' e hprefix w hw
    have hes' := (List.prefix_append es' [e]).trans hprefix
    exact ⟨alone_of_silences (handlers_run es es' hes' w hw) (sound_run es es' hes' w hw), silences_of_alone⟩
  constructor
  · intro h es' e hprefix w hw he
    exact (hstate es' e hprefix w hw).mp (h es' e hprefix w hw he)
  · intro h es' e hprefix w hw he
    exact (hstate es' e hprefix w hw).mpr (h es' e hprefix w hw he)

def initializedTwice : List (Event Trigger (Outcome Bool)) :=
  let initialized := [.call (.callInitialize false), .settle 0 (.fetched (.value true)), .settle 0 .ok]
  initialized ++ initialized ++ [.call .callShutdown]

theorem not_silenced : ¬ EachStep (step poller) (fun w e => e = .call .callShutdown → Silences w)
    started initializedTwice := by
  intro h
  have hsilences := h (initializedTwice.take 6) _ List.prefix_rfl _ rfl rfl
  have hsame := hsilences (.clearing 1 0) _ [.settle 0 .ok] _ rfl rfl rfl
    (fun throws hmem => by cases List.mem_singleton.mp hmem) List.not_mem_nil rfl
    [.call (.interval 0 false)] _ rfl (fun throws hmem => by cases List.mem_singleton.mp hmem)
  exact absurd hsame (by decide)

end CardanoGraphql.PollingShutdown
