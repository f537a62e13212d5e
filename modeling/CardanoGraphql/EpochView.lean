import Mathlib.Data.List.MinMax
import CardanoGraphql.SqlJoin

namespace CardanoGraphql.EpochView

open SqlJoin

structure EpochRecord where
  no : Nat
deriving DecidableEq, Repr

structure NonceRecord where
  epochNo : Nat
  nonce : Option String
deriving DecidableEq, Repr

structure EpochTables where
  epoch : List EpochRecord
  epochParam : List NonceRecord

structure Epoch where
  number : Nat
  nonce : Option String
deriving DecidableEq, Repr

def paramsOf (e : EpochRecord) (p : NonceRecord) : Bool := decide (e.no = p.epochNo)

variable (db : EpochTables)

def epochs : List Epoch :=
  (leftJoin paramsOf db.epoch db.epochParam).map fun p =>
    { number := p.1.no
      nonce := p.2.bind NonceRecord.nonce }

/-- `epochs (limit: 1, order_by: { number: desc })` -/
def latestEpoch : Option Epoch := (epochs db).argmax Epoch.number

theorem mem_epochs {n : Nat} : (∃ e ∈ epochs db, e.number = n) ↔ ∃ r ∈ db.epoch, r.no = n := by
  constructor
  · rintro ⟨e, he, rfl⟩
    obtain ⟨p, hp, rfl⟩ := List.mem_map.mp he
    exact ⟨p.1, fst_mem_leftJoin hp, rfl⟩
  · rintro ⟨r, hr, rfl⟩
    obtain ⟨o, ho⟩ := exists_mem_leftJoin paramsOf db.epochParam hr
    exact ⟨_, List.mem_map_of_mem ho, rfl⟩

theorem latestEpoch_isSome : (latestEpoch db).isSome = true ↔ db.epoch ≠ [] := by
  rw [Option.isSome_iff_ne_none, latestEpoch, Ne, List.argmax_eq_none]
  apply not_congr
  constructor
  · intro h
    apply List.eq_nil_iff_forall_not_mem.mpr
    intro r hr
    obtain ⟨e, he, -⟩ := (mem_epochs db).mpr ⟨r, hr, rfl⟩
    rw [h] at he
    cases he
  · intro h
    rw [epochs, h]
    rfl

end CardanoGraphql.EpochView
