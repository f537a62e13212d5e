import Mathlib.Algebra.GroupWithZero.Nat
import Mathlib.Data.List.Nodup
import CardanoGraphql.Runs

namespace CardanoGraphql.UtxoLedger

open Runs

variable {τ α κ : Type}

structure Payment (α κ : Type) where
  address : α
  value : Nat
  tokens : List (κ × Nat)
deriving DecidableEq, Repr

structure Output (τ α κ : Type) where
  source : τ × Nat
  payment : Payment α κ
deriving DecidableEq, Repr

structure Transaction (τ α κ : Type) where
  name : τ
  inputs : List (τ × Nat)
  outputs : List (Payment α κ)
deriving DecidableEq, Repr

/-- The transactions so far and what they have left unspent. -/
structure Ledger (τ α κ : Type) where
  names : List τ
  unspent : List (Output τ α κ)
deriving DecidableEq, Repr

def Ledger.empty : Ledger τ α κ := ⟨[], []⟩

def created (t : Transaction τ α κ) : List (Output τ α κ) :=
  t.outputs.zipIdx.map fun p => ⟨(t.name, p.2), p.1⟩

def Ledger.total (l : Ledger τ α κ) : Nat := (l.unspent.map fun o => o.payment.value).sum

def Transaction.value (t : Transaction τ α κ) : Nat := (t.outputs.map Payment.value).sum

section Apply

variable [DecidableEq τ]

/-- A new transaction that spends outputs there are, each once. -/
def Ledger.accepts (l : Ledger τ α κ) (t : Transaction τ α κ) : Bool :=
  !l.names.contains t.name && decide t.inputs.Nodup &&
    t.inputs.all fun source => l.unspent.any fun o => decide (o.source = source)

def Ledger.apply (l : Ledger τ α κ) (t : Transaction τ α κ) : Option (Ledger τ α κ) :=
  if l.accepts t then
    some
      { names := l.names ++ [t.name]
        unspent := (l.unspent.filter fun o => !t.inputs.contains o.source) ++ created t }
  else none

theorem apply_some {l l' : Ledger τ α κ} {t : Transaction τ α κ} (h : l.apply t = some l') :
    t.name ∉ l.names ∧ (∀ source ∈ t.inputs, ∃ o ∈ l.unspent, o.source = source) ∧
      l'.names = l.names ++ [t.name] ∧
      l'.unspent = (l.unspent.filter fun o => !t.inputs.contains o.source) ++ created t := by
  rw [Ledger.apply] at h
  split at h
  next haccepts =>
    obtain rfl := Option.some.inj h
    simp only [Ledger.accepts, Bool.and_eq_true, Bool.not_eq_true', List.contains_eq_mem, decide_eq_false_iff_not,
      List.all_eq_true, List.any_eq_true, decide_eq_true_iff] at haccepts
    exact ⟨haccepts.1.1, haccepts.2, rfl, rfl⟩
  next => cases h

def spentBy (ts : List (Transaction τ α κ)) (o : Output τ α κ) : Bool := ts.any fun t => t.inputs.contains o.source

theorem unspent_of_names {names : List τ} {l l' : Ledger τ α κ} {ts : List (Transaction τ α κ)}
    (hnames : ∀ name ∈ names, name ∈ l.names) (hrun : run Ledger.apply l ts = some l') :
    (l'.unspent.filter fun o => names.contains o.source.1) =
      (l.unspent.filter fun o => names.contains o.source.1).filter fun o => !spentBy ts o := by
  induction ts generalizing l with
  | nil =>
      rw [← Option.some.inj hrun, eq_comm, List.filter_eq_self]
      exact fun o _ => rfl
  | cons t ts ih =>
      obtain ⟨m, hm, hrest⟩ := Option.bind_eq_some_iff.mp hrun
      obtain ⟨hnew, -, hmnames, hmunspent⟩ := apply_some hm
      have hcreated : (created t).filter (fun o => names.contains o.source.1) = [] := by
        rw [List.filter_eq_nil_iff]
        intro o ho hin
        obtain ⟨p, -, rfl⟩ := List.mem_map.mp ho
        exact hnew (hnames t.name (List.contains_iff_mem.mp hin))
      have hkept : ∀ name ∈ names, name ∈ m.names := by
        intro name hname
        rw [hmnames]
        exact List.mem_append_left _ (hnames name hname)
      rw [ih hkept hrest, hmunspent, List.filter_append, hcreated, List.append_nil, List.filter_filter,
        List.filter_filter, List.filter_filter]
      apply List.filter_congr
      intro o _
      rw [spentBy, spentBy, List.any_cons, Bool.not_or]
      ac_rfl

def Ledger.spentValue (l : Ledger τ α κ) (t : Transaction τ α κ) : Nat :=
  ((l.unspent.filter fun o => t.inputs.contains o.source).map fun o => o.payment.value).sum

theorem total_apply {l l' : Ledger τ α κ} {t : Transaction τ α κ} (h : l.apply t = some l') :
    l'.total + l.spentValue t = l.total + t.value := by
  obtain ⟨-, -, -, hunspent⟩ := apply_some h
  have hsplit := ((List.filter_append_perm (fun o : Output τ α κ => t.inputs.contains o.source) l.unspent).map
    fun o => o.payment.value).sum_nat
  rw [List.map_append, List.sum_append] at hsplit
  have hcreated : (created t).map (fun o => o.payment.value) = t.outputs.map Payment.value := by
    have hfst := List.zipIdx_map_fst 0 t.outputs
    rw [created, List.map_map]
    conv_rhs => rw [← hfst, List.map_map]
    rfl
  rw [Ledger.total, hunspent, List.map_append, List.sum_append, hcreated, Ledger.spentValue, Ledger.total,
    Transaction.value]
  omega

end Apply

section Amounts

variable [DecidableEq κ]

def amountOf (tokens : List (κ × Nat)) (k : κ) : Nat :=
  ((tokens.filter fun token => decide (token.1 = k)).map Prod.snd).sum

variable [DecidableEq α]

def Ledger.outputsOf (l : Ledger τ α κ) (address : α) : List (Output τ α κ) :=
  l.unspent.filter fun o => decide (o.payment.address = address)

def Ledger.balance (l : Ledger τ α κ) (address : α) : Nat :=
  ((l.outputsOf address).map fun o => o.payment.value).sum

def Ledger.holding (l : Ledger τ α κ) (address : α) (k : κ) : Nat :=
  ((l.outputsOf address).map fun o => amountOf o.payment.tokens k).sum

end Amounts

section Renaming

variable {ν : Type}

def Output.renamed (f : κ → ν) (o : Output τ α κ) : Output τ α ν :=
  { source := o.source
    payment :=
      { address := o.payment.address
        value := o.payment.value
        tokens := o.payment.tokens.map fun token => (f token.1, token.2) } }

theorem amountOf_renamed [DecidableEq κ] [DecidableEq ν] {f : κ → ν} (hf : Function.Injective f)
    (tokens : List (κ × Nat)) (k : κ) :
    amountOf (tokens.map fun token => (f token.1, token.2)) (f k) = amountOf tokens k := by
  rw [amountOf, amountOf, List.filter_map, List.map_map]
  have hsame : tokens.filter ((fun token : ν × Nat => decide (token.1 = f k)) ∘ fun token => (f token.1, token.2)) =
      tokens.filter fun token => decide (token.1 = k) := by
    apply List.filter_congr
    intro token _
    exact decide_eq_decide.mpr hf.eq_iff
  rw [hsame]
  rfl

end Renaming

end CardanoGraphql.UtxoLedger
