import CardanoGraphql.DataFetcher
import CardanoGraphql.Tasks

namespace CardanoGraphql.Polling

open Runs Tasks DataFetcher

variable {V : Type}

/-- A fetcher with the calls of its fetch function in the order of their start, `none` where
a call has not ended, and the number of its shutdowns. -/
structure Poller (V : Type) where
  fetcher : DataFetcher V
  calls : List (Option (Fetch V))
  shutdowns : Nat
deriving DecidableEq, Repr

/-- A call of a method, and the interval of a timer; where the fetch function is called,
whether it throws before it gives a promise. -/
inductive Trigger
  | callInitialize (throws : Bool)
  | callShutdown
  | interval (timer : Nat) (throws : Bool)
deriving DecidableEq, Repr

inductive Outcome (V : Type)
  | fetched (o : Fetch V)
  | ok
deriving DecidableEq, Repr

/-- Where `initialize`, the handler of a timer or `shutdown` waits: for a call of the fetch
function, for a `fetch` that has ended, or for the handler of a cleared timer. -/
inductive Await
  | fetching (call : Nat)
  | fetched
  | handling (timer call : Nat)
  | handled (timer : Nat)
  | clearing (timer shutdown : Nat)
deriving DecidableEq, Repr

def Poller.fresh : Poller V :=
  { fetcher := .fresh
    calls := []
    shutdowns := 0 }

/-- `this.fetch()`, to its end or its `await`; there, the call that it waits for. -/
def callFetch (s : Poller V) (throws : Bool) : Poller V × Option Nat :=
  if s.fetcher.isFetching then (s, none)
  else if throws then
    ({ s with fetcher := s.fetcher.beginFetch.endFetch .throws, calls := s.calls ++ [some .throws] }, none)
  else ({ s with fetcher := s.fetcher.beginFetch, calls := s.calls ++ [none] }, some s.calls.length)

def endCall (s : Poller V) (call : Nat) (o : Fetch V) : Poller V :=
  { s with
    fetcher := s.fetcher.endFetch o
    calls := s.calls.set call (some o) }

def pollerInitialize (s : Poller V) (throws : Bool) : Poller V × Option Await :=
  let fetch := callFetch s throws
  (fetch.1, some (fetch.2.elim .fetched .fetching))

def shutdown (s : Poller V) : Poller V × Option Await :=
  match s.fetcher.pollingQueryTimer with
  | none => ({ s with shutdowns := s.shutdowns + 1 }, none)
  | some timer =>
      ({ s with fetcher := s.fetcher.clearTimer timer, shutdowns := s.shutdowns + 1 },
        some (.clearing timer s.shutdowns))

def beginHandler (s : Poller V) (timer : Nat) : Poller V :=
  let f := s.fetcher
  { s with fetcher := { f with handling := timer :: f.handling } }

def onInterval (s : Poller V) (timer : Nat) (throws : Bool) : Option (Poller V × Option Await) :=
  if timer ∉ s.fetcher.live ∨ timer ∈ s.fetcher.handling then none
  else
    let fetch := callFetch (beginHandler s timer) throws
    some (fetch.1, some (fetch.2.elim (.handled timer) (.handling timer)))

def receive : Trigger → Poller V → Option (Poller V × Option Await)
  | .callInitialize throws, s => some (pollerInitialize s throws)
  | .callShutdown, s => some (shutdown s)
  | .interval timer throws, s => onInterval s timer throws

def endHandler (s : Poller V) (timer : Nat) : Poller V :=
  let f := s.fetcher
  { s with fetcher := { f with handling := f.handling.erase timer } }

def resume : Await → Outcome V → Poller V → Option (Poller V × Option Await)
  | _, .fetched .throws, _ => none
  | .fetching call, .fetched o, s => some (endCall s call o, some .fetched)
  | .handling timer call, .fetched o, s => some (endCall s call o, some (.handled timer))
  | .fetched, .ok, s => some ({ s with fetcher := s.fetcher.startPolling }, none)
  | .handled timer, .ok, s => some (endHandler s timer, none)
  | .clearing timer _, .ok, s => if timer ∈ s.fetcher.handling then none else some (s, none)
  | _, _, _ => none

def poller : Machine (Poller V) Await Trigger (Outcome V) where
  call := receive
  resume := resume

def started : World (Poller V) Await := ⟨Poller.fresh, []⟩

def flight : Await → Option Nat
  | .fetching call | .handling _ call => some call
  | .fetched | .handled _ | .clearing _ _ => none

def result : Option (Fetch V) → Option V
  | some (.value v) => some v
  | _ => none

def latest (calls : List (Option (Fetch V))) : Option V := calls.reverse.findSome? result

structure SingleFlight (w : World (Poller V) Await) : Prop where
  one : (w.shared.calls.filter Option.isNone).length ≤ 1
  flag : w.shared.fetcher.isFetching = true ↔ none ∈ w.shared.calls
  awaited : ∀ call, w.shared.calls[call]? = some none ↔ call ∈ w.pending.filterMap flight
  released : ∀ n o w', step poller w (.settle n (.fetched o)) = some w' → w'.shared.fetcher.isFetching = false
  fresh : w.shared.fetcher.value = latest w.shared.calls
  unchanged : ∀ e w', step poller w e = some w' → (∀ n v, e ≠ .settle n (.fetched (.value v))) →
    w'.shared.fetcher.value = w.shared.fetcher.value

theorem latest_concat (calls : List (Option (Fetch V))) (c : Option (Fetch V)) :
    latest (calls ++ [c]) = (result c).or (latest calls) := by
  rw [latest, List.reverse_concat, List.findSome?_cons]
  cases result c <;> rfl

/-- At most the last call has not ended, and it is the one that is waited for. -/
inductive Flying : Poller V → List Nat → Prop
  | idle {s : Poller V} (free : s.fetcher.isFetching = false) (ended : none ∉ s.calls) : Flying s []
  | busy {s : Poller V} (before : List (Option (Fetch V))) (calls : s.calls = before ++ [none])
      (ended : none ∉ before) (held : s.fetcher.isFetching = true) : Flying s [before.length]

structure Sound (s : Poller V) (flights : List Nat) : Prop where
  flying : Flying s flights
  value : s.fetcher.value = latest s.calls

section Inversion

inductive Received (s : Poller V) : Trigger → Poller V × Option Await → Prop
  | initialized (throws : Bool) : Received s (.callInitialize throws)
      ((callFetch s throws).1, some ((callFetch s throws).2.elim .fetched .fetching))
  | refused (htimer : s.fetcher.pollingQueryTimer = none) :
      Received s .callShutdown ({ s with shutdowns := s.shutdowns + 1 }, none)
  | cleared (timer : Nat) (htimer : s.fetcher.pollingQueryTimer = some timer) : Received s .callShutdown
      ({ s with fetcher := s.fetcher.clearTimer timer, shutdowns := s.shutdowns + 1 },
        some (.clearing timer s.shutdowns))
  | ticked (timer : Nat) (throws : Bool) (hlive : timer ∈ s.fetcher.live) (hidle : timer ∉ s.fetcher.handling) :
      Received s (.interval timer throws) ((callFetch (beginHandler s timer) throws).1,
        some ((callFetch (beginHandler s timer) throws).2.elim (.handled timer) (.handling timer)))

inductive Resumed (s : Poller V) : Await → Outcome V → Poller V × Option Await → Prop
  | fetching (call : Nat) (o : Fetch V) (ho : o ≠ .throws) :
      Resumed s (.fetching call) (.fetched o) (endCall s call o, some .fetched)
  | handling (timer call : Nat) (o : Fetch V) (ho : o ≠ .throws) :
      Resumed s (.handling timer call) (.fetched o) (endCall s call o, some (.handled timer))
  | fetched : Resumed s .fetched .ok ({ s with fetcher := s.fetcher.startPolling }, none)
  | handled (timer : Nat) : Resumed s (.handled timer) .ok (endHandler s timer, none)
  | clearing (timer n : Nat) (hidle : timer ∉ s.fetcher.handling) : Resumed s (.clearing timer n) .ok (s, none)

variable {s : Poller V} {r : Poller V × Option Await}

theorem received {i : Trigger} (h : receive i s = some r) : Received s i r := by
  cases i with
  | callInitialize throws => exact Option.some.inj h ▸ .initialized throws
  | callShutdown =>
      rw [← Option.some.inj h, shutdown]
      split
      next htimer => exact .refused htimer
      next timer htimer => exact .cleared timer htimer
  | interval timer throws =>
      rw [receive, onInterval] at h
      split at h
      · cases h
      next hactive =>
        rw [not_or, not_not] at hactive
        exact Option.some.inj h ▸ .ticked timer throws hactive.1 hactive.2

theorem resumed {k : Await} {o : Outcome V} (h : resume k o s = some r) : Resumed s k o r := by
  cases o with
  | fetched o =>
      cases k with
      | fetching call =>
          cases o with
          | throws => cases h
          | value | rejects => exact Option.some.inj h ▸ .fetching call _ (by simp)
      | handling timer call =>
          cases o with
          | throws => cases h
          | value | rejects => exact Option.some.inj h ▸ .handling timer call _ (by simp)
      | fetched | handled timer | clearing timer n => cases o <;> cases h
  | ok =>
      cases k with
      | fetching call | handling timer call => cases h
      | fetched => exact Option.some.inj h ▸ .fetched
      | handled timer => exact Option.some.inj h ▸ .handled timer
      | clearing timer n =>
          rw [resume] at h
          split at h
          · cases h
          next hidle => exact Option.some.inj h ▸ .clearing timer n hidle

end Inversion

section Steps

variable {s t : Poller V} {flights : List Nat}

theorem Sound.perm {flights' : List Nat} (h : flights.Perm flights') (hs : Sound s flights) : Sound s flights' := by
  obtain ⟨hflying, hvalue⟩ := hs
  cases hflying with
  | idle free ended =>
      rw [List.nil_perm.mp h]
      exact ⟨.idle free ended, hvalue⟩
  | busy before calls ended held =>
      rw [← List.singleton_perm.mp h]
      exact ⟨.busy before calls ended held, hvalue⟩

theorem Sound.congr (hs : Sound s flights) (hcalls : t.calls = s.calls)
    (hflag : t.fetcher.isFetching = s.fetcher.isFetching) (hvalue : t.fetcher.value = s.fetcher.value) :
    Sound t flights := by
  refine ⟨?_, by rw [hvalue, hcalls, hs.value]⟩
  cases hs.flying with
  | idle free ended => exact .idle (hflag.trans free) (hcalls ▸ ended)
  | busy before calls ended held => exact .busy before (hcalls.trans calls) ended (hflag.trans held)

theorem callFetch_sound (hs : Sound s flights) (throws : Bool) :
    Sound (callFetch s throws).1 (flights ++ (callFetch s throws).2.toList) := by
  rw [callFetch]
  cases hs.flying with
  | busy before calls ended held =>
      rw [if_pos held]
      exact hs
  | idle free ended =>
      rw [free, if_neg Bool.false_ne_true]
      cases throws with
      | true =>
          refine ⟨.idle rfl ?_, ?_⟩
          · simp [ended]
          · rw [if_pos rfl, latest_concat]
            exact hs.value
      | false =>
          refine ⟨.busy s.calls rfl ended rfl, ?_⟩
          rw [if_neg Bool.false_ne_true, latest_concat]
          exact hs.value

theorem endCall_sound {call : Nat} (hs : Sound s (call :: flights)) (o : Fetch V) :
    Sound (endCall s call o) flights := by
  obtain ⟨hflying, hvalue⟩ := hs
  cases hflying with
  | busy before calls ended held =>
      have hcalls : (endCall s before.length o).calls = before ++ [some o] := by
        rw [endCall]
        dsimp only
        rw [calls, List.set_append_right _ _ (Nat.le_refl _), Nat.sub_self]
        rfl
      refine ⟨.idle (endFetch_isFetching s.fetcher o) ?_, ?_⟩
      · rw [hcalls]
        simp [ended]
      · rw [hcalls, latest_concat]
        rw [calls, latest_concat] at hvalue
        cases o with
        | value v => rfl
        | throws | rejects => exact hvalue

theorem elim_flight (call : Option Nat) {here : Await} {waiting : Nat → Await} (hhere : flight here = none)
    (hwaiting : ∀ n, flight (waiting n) = some n) : flight (call.elim here waiting) = call := by
  cases call with
  | none => exact hhere
  | some n => exact hwaiting n

theorem receive_sound {i : Trigger} {r : Poller V × Option Await} (h : receive i s = some r)
    (hs : Sound s flights) : Sound r.1 (flights ++ (r.2.bind flight).toList) := by
  have hnone : flights ++ (none : Option Nat).toList = flights := List.append_nil flights
  cases received h with
  | initialized throws =>
      rw [Option.bind_some, elim_flight _ rfl fun _ => rfl]
      exact callFetch_sound hs throws
  | refused htimer =>
      rw [Option.bind_none, hnone]
      exact hs.congr rfl rfl rfl
  | cleared timer htimer =>
      rw [Option.bind_some, flight, hnone]
      exact hs.congr rfl rfl rfl
  | ticked timer throws hlive hidle =>
      have hbegin : Sound (beginHandler s timer) flights := hs.congr rfl rfl rfl
      rw [Option.bind_some, elim_flight _ rfl fun _ => rfl]
      exact callFetch_sound hbegin throws

theorem resume_sound {k : Await} {o : Outcome V} {r : Poller V × Option Await} (h : resume k o s = some r)
    (hs : Sound s ((flight k).toList ++ flights)) : Sound r.1 (flights ++ (r.2.bind flight).toList) := by
  have hnone : flights ++ (none : Option Nat).toList = flights := List.append_nil flights
  cases resumed h with
  | fetching call o ho | handling timer call o ho =>
      rw [Option.bind_some, flight, hnone]
      exact endCall_sound hs o
  | fetched | handled timer =>
      rw [Option.bind_none, hnone]
      exact hs.congr rfl rfl rfl
  | clearing timer n hidle =>
      rw [Option.bind_none, hnone]
      exact hs

theorem sound_step {w w' : World (Poller V) Await} {e : Event Trigger (Outcome V)}
    (h : step poller w e = some w') (hw : Sound w.shared (w.pending.filterMap flight)) :
    Sound w'.shared (w'.pending.filterMap flight) :=
  collect_step (I := Sound) Sound.perm receive_sound resume_sound h hw

theorem sound_started : Sound (started : World (Poller V) Await).shared [] :=
  ⟨.idle rfl List.not_mem_nil, rfl⟩

end Steps

section Values

theorem callFetch_value (s : Poller V) (throws : Bool) :
    (callFetch s throws).1.fetcher.value = s.fetcher.value := by
  rw [callFetch]
  split
  · rfl
  · split <;> rfl

theorem receive_value {i : Trigger} {s : Poller V} {r : Poller V × Option Await} (h : receive i s = some r) :
    r.1.fetcher.value = s.fetcher.value := by
  cases received h with
  | initialized throws => exact callFetch_value s throws
  | refused htimer | cleared timer htimer => rfl
  | ticked timer throws hlive hidle => exact callFetch_value (beginHandler s timer) throws

theorem resume_value {k : Await} {o : Outcome V} {s : Poller V} {r : Poller V × Option Await}
    (h : resume k o s = some r) (ho : ∀ v, o ≠ .fetched (.value v)) : r.1.fetcher.value = s.fetcher.value := by
  cases resumed h with
  | fetching call o hthrows | handling timer call o hthrows =>
      cases o with
      | value v => exact absurd rfl (ho v)
      | throws | rejects => rfl
  | fetched | handled timer | clearing timer n hidle => rfl

theorem resume_released {k : Await} {o : Fetch V} {s : Poller V} {r : Poller V × Option Await}
    (h : resume k (.fetched o) s = some r) : r.1.fetcher.isFetching = false := by
  cases resumed h with
  | fetching call o ho | handling timer call o ho => exact endFetch_isFetching s.fetcher o

end Values

theorem filter_isNone {calls : List (Option (Fetch V))} (h : none ∉ calls) : calls.filter Option.isNone = [] := by
  rw [List.filter_eq_nil_iff]
  rintro c hc hnone
  rw [Option.isNone_iff_eq_none.mp hnone] at hc
  exact h hc

theorem singleFlight_of_sound {w : World (Poller V) Await} (h : Sound w.shared (w.pending.filterMap flight)) :
    SingleFlight w := by
  have hreleased : ∀ n o w', step poller w (.settle n (.fetched o)) = some w' →
      w'.shared.fetcher.isFetching = false := by
    intro n o w' hstep
    obtain ⟨k, rest, r, -, hr, rfl⟩ := step_settle hstep
    exact resume_released hr
  have hunchanged : ∀ e w', step poller w e = some w' → (∀ n v, e ≠ .settle n (.fetched (.value v))) →
      w'.shared.fetcher.value = w.shared.fetcher.value := by
    intro e w' hstep he
    cases e with
    | call i =>
        obtain ⟨r, hr, rfl⟩ := step_call hstep
        exact receive_value hr
    | settle n o =>
        obtain ⟨k, rest, r, -, hr, rfl⟩ := step_settle hstep
        exact resume_value hr fun v hv => he n v (by rw [hv])
  obtain ⟨hflying, hvalue⟩ := h
  generalize hflights : w.pending.filterMap flight = flights at hflying
  cases hflying with
  | idle free ended =>
      refine ⟨?_, ?_, ?_, hreleased, hvalue, hunchanged⟩
      · rw [filter_isNone ended]
        exact Nat.zero_le 1
      · rw [free]
        exact iff_of_false Bool.false_ne_true ended
      · intro call
        rw [hflights]
        exact iff_of_false (fun hcall => ended (List.mem_of_getElem? hcall)) List.not_mem_nil
  | busy before calls ended held =>
      refine ⟨?_, ?_, ?_, hreleased, hvalue, hunchanged⟩
      · rw [calls, List.filter_append, filter_isNone ended]
        exact Nat.le_refl 1
      · rw [held, calls]
        exact iff_of_true rfl (List.mem_append_right before List.mem_cons_self)
      · intro call
        rw [hflights, calls, List.mem_singleton]
        constructor
        · intro hcall
          rcases Nat.lt_or_ge call before.length with hlt | hge
          · rw [List.getElem?_append_left hlt] at hcall
            exact absurd (List.mem_of_getElem? hcall) ended
          · have hlength := (List.getElem?_eq_some_iff.mp hcall).1
            rw [List.length_append, List.length_singleton] at hlength
            omega
        · rintro rfl
          exact List.getElem?_concat_length

theorem sound_run (es : List (Event Trigger (Outcome V))) :
    Throughout (step poller) (fun w => Sound w.shared (w.pending.filterMap flight)) started es :=
  throughout_of_step (fun _ _ _ hw h => sound_step h hw) sound_started es

/-- Whatever the interleaving, the guard holds while a call has not ended, and no longer. -/
theorem single_flight (es : List (Event Trigger (Outcome V))) :
    Throughout (step poller) SingleFlight started es := by
  intro es' hprefix w hw
  exact singleFlight_of_sound (sound_run es es' hprefix w hw)

/-- Where nothing else is under way, what `fetcherInitialize` gives is what its steps do. -/
theorem initialize_alone {s : Poller V} (hfree : s.fetcher.isFetching = false) (o : Fetch V) :
    ∃ es t, run (step poller) ⟨s, []⟩ es = some ⟨t, []⟩ ∧
      fetcherInitialize s.fetcher o = .ok t.fetcher := by
  have hcall : ∀ throws, step poller ⟨s, []⟩ (.call (.callInitialize throws) : Event Trigger (Outcome V)) =
      some ⟨(callFetch s throws).1, [(callFetch s throws).2.elim .fetched .fetching]⟩ := fun _ => rfl
  rw [fetcherInitialize, fetch, hfree, if_neg Bool.false_ne_true]
  cases o with
  | throws =>
      refine ⟨[.call (.callInitialize true), .settle 0 .ok], { s with
        fetcher := (s.fetcher.beginFetch.endFetch .throws).startPolling
        calls := s.calls ++ [some .throws] }, ?_, rfl⟩
      rw [run_cons _ (hcall true), callFetch, hfree, if_neg Bool.false_ne_true, if_pos rfl]
      rfl
  | value v =>
      refine ⟨[.call (.callInitialize false), .settle 0 (.fetched (.value v)), .settle 0 .ok], { s with
        fetcher := (s.fetcher.beginFetch.endFetch (.value v)).startPolling
        calls := (s.calls ++ [none]).set s.calls.length (some (.value v)) }, ?_, rfl⟩
      rw [run_cons _ (hcall false), callFetch, hfree, if_neg Bool.false_ne_true, if_neg Bool.false_ne_true]
      rfl
  | rejects =>
      refine ⟨[.call (.callInitialize false), .settle 0 (.fetched .rejects), .settle 0 .ok], { s with
        fetcher := (s.fetcher.beginFetch.endFetch .rejects).startPolling
        calls := (s.calls ++ [none]).set s.calls.length (some .rejects) }, ?_, rfl⟩
      rw [run_cons _ (hcall false), callFetch, hfree, if_neg Bool.false_ne_true, if_neg Bool.false_ne_true]
      rfl

end CardanoGraphql.Polling
