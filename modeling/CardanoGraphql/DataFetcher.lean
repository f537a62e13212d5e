import Mathlib.Data.List.Basic
import Mathlib.Data.List.Induction

namespace CardanoGraphql

/-- How a call of a fetch function ends: with a value, with what it throws before it gives
a promise, or with a rejected one. -/
inductive Fetch (V : Type)
  | value (v : V)
  | throws
  | rejects
deriving DecidableEq, Repr

/-- A fetcher whose `value` is `none` until it is first assigned. The timers are numbered
in the order of their creation; `live` are those that are not cleared, and `handling`
those whose handler waits for its fetch. -/
structure DataFetcher (V : Type) where
  isFetching : Bool
  value : Option V
  pollingQueryTimer : Option Nat
  timers : Nat
  live : List Nat
  handling : List Nat
deriving DecidableEq, Repr

namespace DataFetcher

variable {V : Type}

def fresh : DataFetcher V :=
  { isFetching := false
    value := none
    pollingQueryTimer := none
    timers := 0
    live := []
    handling := [] }

/-- `this.fetch()`, to its `await`. -/
def beginFetch (f : DataFetcher V) : DataFetcher V := { f with isFetching := true }

def endFetch (f : DataFetcher V) : Fetch V → DataFetcher V
  | .value v => { f with value := some v, isFetching := false }
  | .throws | .rejects => { f with isFetching := false }

def fetch (f : DataFetcher V) (o : Fetch V) : DataFetcher V :=
  if f.isFetching then f else f.beginFetch.endFetch o

def startPolling (f : DataFetcher V) : DataFetcher V :=
  { f with
    pollingQueryTimer := some f.timers
    timers := f.timers + 1
    live := f.live ++ [f.timers] }

def fetcherInitialize (f : DataFetcher V) (o : Fetch V) : Except String (DataFetcher V) :=
  .ok (f.fetch o).startPolling

def clearTimer (f : DataFetcher V) (timer : Nat) : DataFetcher V :=
  { f with live := f.live.filter (· ≠ timer) }

@[simp] theorem startPolling_value (f : DataFetcher V) : f.startPolling.value = f.value := rfl

theorem endFetch_isFetching (f : DataFetcher V) (o : Fetch V) : (f.endFetch o).isFetching = false := by
  cases o <;> rfl

def fetches (f : DataFetcher V) (os : List (Fetch V)) : DataFetcher V := os.foldl fetch f

theorem fetches_isFetching {f : DataFetcher V} (h : f.isFetching = false) (os : List (Fetch V)) :
    (f.fetches os).isFetching = false := by
  induction os generalizing f with
  | nil => exact h
  | cons o os ih =>
      apply ih
      rw [fetch, h, if_neg Bool.false_ne_true]
      exact endFetch_isFetching _ o

theorem fetch_value {f : DataFetcher V} (h : f.isFetching = false) (o : Fetch V) :
    (f.fetch o).value = match o with
      | .value v => some v
      | _ => f.value := by
  rw [fetch, h, if_neg Bool.false_ne_true]
  cases o <;> rfl

theorem fetches_concat (os : List (Fetch V)) (o : Fetch V) :
    (fresh.fetches (os ++ [o])).value = match o with
      | .value v => some v
      | _ => (fresh.fetches os).value := by
  have hidle : (fresh.fetches os).isFetching = false := fetches_isFetching rfl os
  rw [← fetch_value hidle, fetches, List.foldl_append]
  rfl

theorem fetches_value {os : List (Fetch V)} {v : V} (h : (fresh.fetches os).value = some v) :
    .value v ∈ os := by
  induction os using List.reverseRecOn with
  | nil => cases h
  | append_singleton os o ih =>
      rw [fetches_concat] at h
      cases o with
      | value w =>
          obtain rfl := Option.some.inj h
          exact List.mem_append_right os List.mem_cons_self
      | throws | rejects => exact List.mem_append_left _ (ih h)

theorem fetches_value_isSome (os : List (Fetch V)) :
    (fresh.fetches os).value.isSome = true ↔ ∃ v, .value v ∈ os := by
  induction os using List.reverseRecOn with
  | nil => simp [fetches, fresh]
  | append_singleton os o ih =>
      rw [fetches_concat]
      cases o with
      | value w => simp
      | throws | rejects => simpa using ih

end DataFetcher

end CardanoGraphql
