import Mathlib.Data.List.Induction
import CardanoGraphql.Fallible
import CardanoGraphql.ModuleState
import CardanoGraphql.Worker

namespace CardanoGraphql.WorkerLifecycle

open Fallible Worker

/-- A worker; each queue object that it makes is known by its number. -/
structure WorkerState where
  state : ModuleState
  queue : Option Nat
  created : Nat
  subscriptions : List (Nat × Queue)
deriving DecidableEq, Repr

inductive Call
  | start
  | shutdown
deriving DecidableEq, Repr

def constructed : WorkerState :=
  { state := .initialized, queue := none, created := 0, subscriptions := [] }

def newQueue : Program WorkerState Unit :=
  modify fun s => { s with queue := some s.created, created := s.created + 1 }

def subscribe (name : Queue) : Program WorkerState Unit :=
  modify fun s => { s with
    subscriptions := s.subscriptions ++ s.queue.toList.map fun queue => (queue, name) }

def unsubscribe (name : Queue) : Program WorkerState Unit :=
  modify fun s => { s with
    subscriptions := s.subscriptions.filter fun subscription =>
      decide (s.queue ≠ some subscription.1 ∨ subscription.2 ≠ name) }

def start : Program WorkerState Unit := do
  let s ← get
  if s.state ≠ .initialized then
    throw (ModuleState.isNotInitialized "Worker" "start")
  newQueue
  subscribe .fetchInitial
  subscribe .fetchUpdate

def shutdown : Program WorkerState Unit := do
  let s ← get
  if s.state ≠ .running then
    throw (ModuleState.isNotInitialized "Worker" "shutdown")
  unsubscribe .fetchInitial
  unsubscribe .fetchUpdate
  modify fun s => { s with state := .initialized }

def perform : Call → Program WorkerState Unit
  | .start => start
  | .shutdown => shutdown

def after (calls : List Call) : WorkerState := calls.foldl (fun s c => exec (perform c) s) constructed

def Resolves (c : Call) (s : WorkerState) : Prop := (call (perform c) s).1 = .ok ()

def AtMostOneSet (subscriptions : List (Nat × Queue)) : Prop :=
  subscriptions.Nodup ∧ ∀ a ∈ subscriptions, ∀ b ∈ subscriptions, a.1 = b.1

structure Lifecycle (calls : List Call) : Prop where
  secondStart : ∀ before between rest, calls = before ++ .start :: between ++ .start :: rest →
    Resolves .start (after before) → .shutdown ∉ between →
      ¬ Resolves .start (after (before ++ .start :: between))
  oneSet : ∀ before, before <+: calls → AtMostOneSet (after before).subscriptions
  shutdown : ∀ before between rest, calls = before ++ .start :: between ++ .shutdown :: rest →
    Resolves .start (after before) → .shutdown ∉ between →
      Resolves .shutdown (after (before ++ .start :: between)) ∧
        (after (before ++ .start :: between ++ [.shutdown])).subscriptions = []
  running : ∀ before, before <+: calls →
    ((after before).state = .running ↔ (after before).subscriptions ≠ [])

def subscriptionSet (queue : Nat) : List (Nat × Queue) := [(queue, .fetchInitial), (queue, .fetchUpdate)]

theorem call_start {s : WorkerState} (h : s.state = .initialized) :
    call (perform .start) s = (.ok (),
      { s with
        queue := some s.created
        created := s.created + 1
        subscriptions := s.subscriptions ++ subscriptionSet s.created }) := by
  rw [perform, start]
  simp only [call_bind, call_get, h, ne_eq, not_true_eq_false, if_false, newQueue, subscribe,
    call_modify, Option.toList_some, List.map_cons, List.map_nil, List.append_assoc]
  rfl

theorem call_shutdown {s : WorkerState} (h : s.state ≠ .running) :
    call (perform .shutdown) s = (.error (ModuleState.isNotInitialized "Worker" "shutdown"), s) := by
  rw [perform, shutdown]
  simp only [call_bind, call_get, ne_eq, h, not_false_eq_true, if_true, call_throw]

theorem after_append (calls more : List Call) :
    after (calls ++ more) = more.foldl (fun s c => exec (perform c) s) (after calls) :=
  List.foldl_append

theorem after_eq (calls : List Call) :
    (after calls).state = .initialized ∧ (after calls).created = calls.count .start ∧
      (after calls).subscriptions = (List.range (calls.count .start)).flatMap subscriptionSet := by
  induction calls using List.reverseRecOn with
  | nil => exact ⟨rfl, rfl, rfl⟩
  | append_singleton calls c ih =>
      obtain ⟨hstate, hcreated, hsubscriptions⟩ := ih
      rw [after_append, List.foldl_cons, List.foldl_nil, exec, List.count_append]
      cases c with
      | start =>
          rw [call_start hstate, hsubscriptions, hcreated, List.count_singleton_self, List.range_succ,
            List.flatMap_append, List.flatMap_singleton]
          exact ⟨hstate, rfl, rfl⟩
      | shutdown =>
          rw [call_shutdown (by rw [hstate]; decide), List.count_singleton, if_neg (by decide), Nat.add_zero]
          exact ⟨hstate, hcreated, hsubscriptions⟩

theorem start_resolves (calls : List Call) : Resolves .start (after calls) := by
  rw [Resolves, call_start (after_eq calls).1]

theorem shutdown_rejected (calls : List Call) : ¬ Resolves .shutdown (after calls) := by
  have hstate : (after calls).state ≠ .running := by
    rw [(after_eq calls).1]
    decide
  rw [Resolves, call_shutdown hstate]
  intro h
  cases h

/-- The law of the lifecycle holds exactly of the sequences that never start the worker. -/
theorem lifecycle_iff (calls : List Call) : Lifecycle calls ↔ .start ∉ calls := by
  constructor
  · intro h hmem
    obtain ⟨before, rest, hcalls⟩ := List.append_of_mem hmem
    have hreached : before ++ [.start] <+: calls := ⟨rest, by rw [hcalls, List.append_assoc]; rfl⟩
    have hrunning := (h.running _ hreached).mpr
    obtain ⟨hstate, -, hsubscriptions⟩ := after_eq (before ++ [.start])
    rw [hstate, hsubscriptions, List.count_append, List.count_singleton_self, List.range_succ,
      List.flatMap_append, List.flatMap_singleton] at hrunning
    exact absurd (hrunning (by simp [subscriptionSet])) (by decide)
  · intro hno
    have hnone : ∀ before, before <+: calls → (after before).subscriptions = [] := by
      intro before hbefore
      have hcount : before.count .start = 0 := List.count_eq_zero.mpr fun h => hno (hbefore.subset h)
      rw [(after_eq before).2.2, hcount]
      rfl
    refine ⟨?_, ?_, ?_, ?_⟩
    · intro before between rest hcalls _ _
      exact absurd (by rw [hcalls]; simp) hno
    · intro before hbefore
      rw [hnone before hbefore]
      exact ⟨List.nodup_nil, fun a ha => absurd ha List.not_mem_nil⟩
    · intro before between rest hcalls _ _
      exact absurd (by rw [hcalls]; simp) hno
    · intro before hbefore
      rw [(after_eq before).1, hnone before hbefore]
      decide

theorem second_start_accepted :
    Resolves .start (after [.start]) ∧
      (after [.start, .start]).subscriptions =
        [(0, .fetchInitial), (0, .fetchUpdate), (1, .fetchInitial), (1, .fetchUpdate)] ∧
      ¬ Resolves .shutdown (after [.start, .start]) ∧ ¬ Lifecycle [.start, .start] := by
  refine ⟨start_resolves _, by decide +kernel, shutdown_rejected _, fun h => ?_⟩
  exact h.secondStart [] [] [] rfl (start_resolves []) List.not_mem_nil (start_resolves _)

end CardanoGraphql.WorkerLifecycle
