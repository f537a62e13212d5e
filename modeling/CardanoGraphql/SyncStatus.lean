import CardanoGraphql.DbSync
import CardanoGraphql.EpochView
import CardanoGraphql.ModuleState
import CardanoGraphql.Percentage

namespace CardanoGraphql.SyncStatus

open SqlJoin DbSync EpochView JsNumber

structure SyncBlock extends BlockRecord where
  epochNo : Option Nat
deriving DecidableEq, Repr

structure SyncDatabase extends EpochTables where
  block : List SyncBlock
  numbers : ∀ b ∈ block, ∀ c ∈ block, b.blockNo.isSome = true → b.blockNo = c.blockNo → b = c

structure Cardano where
  tipBlockNo : Option Nat
  currentEpochNo : Option Nat
deriving DecidableEq, Repr

structure TipBlock where
  number : Option Nat
  slotNo : Option Nat
  epochNo : Option Nat
deriving DecidableEq, Repr

inductive NodeTip
  | origin
  | slot (slot : Nat)
deriving DecidableEq, Repr

inductive MetaError
  | apolloError (message : String)
  | typeError
deriving DecidableEq, Repr

structure CardanoDbMeta where
  initialized : Bool
  syncPercentage : JsNumber
deriving DecidableEq, Repr

def slotOf : NodeTip → Nat
  | .origin => 0
  | .slot slot => slot

def getTipSlotNo (state : ModuleState) (tip : NodeTip) : Except String Nat :=
  if state ≠ .initialized then .error (ModuleState.isNotInitialized "CardanoNodeClient" "getTipSlotNo")
  else .ok (slotOf tip)

section Views

variable (db : SyncDatabase)

/-- `WHERE block_no IS NOT NULL ORDER BY id DESC LIMIT 1` -/
def lastNumbered : Option SyncBlock :=
  (db.block.filter fun b => b.blockNo.isSome).argmax fun b => b.id

def cardano : Option Cardano :=
  (lastNumbered db).map fun b => { tipBlockNo := b.blockNo, currentEpochNo := b.epochNo }

def tipBlock (b : SyncBlock) : TipBlock :=
  { number := b.blockNo
    slotNo := b.slotNo
    epochNo := b.epochNo }

/-- The relationship `tip`. -/
def tipOf (row : Cardano) : Option TipBlock :=
  (db.block.map tipBlock).find? fun b => row.tipBlockNo.isSome && decide (row.tipBlockNo = b.number)

def epochOf (tip : TipBlock) : Option Epoch :=
  (epochs db.toEpochTables).find? fun e => decide (tip.epochNo = some e.number)

def getMeta (nodeTipSlotNumber : Nat) : Except MetaError CardanoDbMeta :=
  match cardano db with
  | none => .error .typeError
  | some row =>
      match tipOf db row with
      | none => .error .typeError
      | some tip =>
          let syncPercentage := scale 100 (quotient (tip.slotNo.getD 0) nodeTipSlotNumber)
          match latestEpoch db.toEpochTables with
          | none => .error .typeError
          | some lastEpoch => .ok
              { initialized := decide (some lastEpoch.number = (epochOf db tip).map Epoch.number)
                syncPercentage := if lt (.finite 100) syncPercentage then .finite 100 else syncPercentage }

/-- `Query.cardanoDbMeta`: what `getMeta` rejects with is not caught. -/
def cardanoDbMeta (state : ModuleState) (tip : NodeTip) : Except MetaError CardanoDbMeta :=
  match getTipSlotNo state tip with
  | .error _ => .error (.apolloError "cardanoDbMeta query is not ready. Try again shortly")
  | .ok slotNo => getMeta db slotNo

def dbSlot : Nat := ((lastNumbered db).bind fun b => b.slotNo).getD 0

/-- There is a tip, and the latest epoch record is that of its epoch. -/
def Initialized : Prop :=
  ∃ tip e, lastNumbered db = some tip ∧ latestEpoch db.toEpochTables = some e ∧ tip.epochNo = some e.number

end Views

structure ValidStatus (db : SyncDatabase) (node : NodeTip) : Prop where
  answers : ∃ status, cardanoDbMeta db .initialized node = .ok status
  divisor : slotOf node ≠ 0
  percentage : ∀ status, cardanoDbMeta db .initialized node = .ok status →
    ∃ q r : ℚ, status.syncPercentage = .finite q ∧ (0 ≤ q ∧ q ≤ 100) ∧
      Percentage.serialize status.syncPercentage = .ok (.finite r) ∧ 0 ≤ r ∧ r ≤ 100
  exact : ∀ status, cardanoDbMeta db .initialized node = .ok status → 0 < slotOf node →
    status.syncPercentage = .finite (min 100 (100 * (dbSlot db / slotOf node)))
  monotone : ∀ db' status status', cardanoDbMeta db .initialized node = .ok status →
    cardanoDbMeta db' .initialized node = .ok status' → dbSlot db ≤ dbSlot db' →
    ∃ q q' : ℚ, status.syncPercentage = .finite q ∧ status'.syncPercentage = .finite q' ∧ q ≤ q'
  initialized : ∀ status, cardanoDbMeta db .initialized node = .ok status →
    (status.initialized = true ↔ Initialized db)

section Tip

variable {db : SyncDatabase}

theorem lastNumbered_mem {b : SyncBlock} (h : lastNumbered db = some b) :
    b ∈ db.block ∧ b.blockNo.isSome = true :=
  List.mem_filter.mp (List.argmax_mem (Option.mem_def.mpr h))

theorem lastNumbered_isSome : (lastNumbered db).isSome = true ↔ ∃ b ∈ db.block, b.blockNo.isSome = true := by
  rw [Option.isSome_iff_ne_none, lastNumbered, Ne, List.argmax_eq_none, List.filter_eq_nil_iff]
  simp only [not_forall, not_not, exists_prop]

theorem tipOf_eq {b : SyncBlock} (h : lastNumbered db = some b) :
    tipOf db { tipBlockNo := b.blockNo, currentEpochNo := b.epochNo } = some (tipBlock b) := by
  obtain ⟨hmem, hnumber⟩ := lastNumbered_mem h
  apply find?_of_unique (List.mem_map_of_mem hmem)
  · rw [hnumber, Bool.true_and]
    exact decide_eq_true rfl
  · intro row hrow hp
    obtain ⟨c, hc, rfl⟩ := List.mem_map.mp hrow
    rw [hnumber, Bool.true_and] at hp
    rw [db.numbers b hmem c hc hnumber (of_decide_eq_true hp)]

theorem epochOf_eq_iff {e : Epoch} (h : latestEpoch db.toEpochTables = some e) (tip : TipBlock) :
    some e.number = (epochOf db tip).map Epoch.number ↔ tip.epochNo = some e.number := by
  constructor
  · intro heq
    obtain ⟨e', hfound, hnumber⟩ := Option.map_eq_some_iff.mp heq.symm
    have hp := List.find?_some hfound
    rw [of_decide_eq_true hp, hnumber]
  · intro hepoch
    have hmem : e ∈ epochs db.toEpochTables := List.argmax_mem (Option.mem_def.mpr h)
    cases hfound : epochOf db tip with
    | none =>
        have hnot := List.find?_eq_none.mp hfound e hmem
        exact absurd (decide_eq_true hepoch) hnot
    | some e' =>
        have hp := List.find?_some hfound
        rw [Option.map_some, ← of_decide_eq_true hp, hepoch]

end Tip

def clipped (m n : Nat) : JsNumber :=
  if lt (.finite 100) (scale 100 (quotient m n)) then .finite 100 else scale 100 (quotient m n)

theorem clipped_eq (m : Nat) {n : Nat} (h : 0 < n) : clipped m n = .finite (min 100 (100 * (m / n))) := by
  have hscale : scale 100 (quotient m n) = .finite (100 * (m / n)) := by
    rw [quotient, if_neg (Nat.pos_iff_ne_zero.mp h), scale, mul_comm]
  rw [clipped, hscale, lt]
  by_cases hgt : (100 : ℚ) < 100 * (m / n)
  · rw [if_pos (decide_eq_true hgt), min_eq_left (le_of_lt hgt)]
  · rw [if_neg (by simpa using hgt), min_eq_right (not_lt.mp hgt)]

theorem getMeta_ok_iff (db : SyncDatabase) (n : Nat) (status : CardanoDbMeta) :
    getMeta db n = .ok status ↔ ∃ b e, lastNumbered db = some b ∧ latestEpoch db.toEpochTables = some e ∧
      status = { initialized := decide (some e.number = (epochOf db (tipBlock b)).map Epoch.number)
                 syncPercentage := clipped (dbSlot db) n } := by
  rw [getMeta, cardano]
  cases hb : lastNumbered db with
  | none => simp
  | some b =>
      rw [Option.map_some]
      simp only [tipOf_eq hb]
      have hslot : dbSlot db = (tipBlock b).slotNo.getD 0 := by
        rw [dbSlot, hb]
        rfl
      cases he : latestEpoch db.toEpochTables with
      | none => simp
      | some e =>
          rw [hslot]
          constructor
          · intro h
            exact ⟨b, e, rfl, rfl, (Except.ok.inj h).symm⟩
          · rintro ⟨b', e', hb', he', rfl⟩
            obtain rfl := Option.some.inj hb'
            obtain rfl := Option.some.inj he'
            rfl

theorem serialize_between {q : ℚ} (h : 0 ≤ q) (hle : q ≤ 100) :
    ∃ r, Percentage.serialize (.finite q) = .ok (.finite r) ∧ 0 ≤ r ∧ r ≤ 100 := by
  obtain ⟨r, hr, hnonneg, hupper⟩ := toFixed_between h (n := 100) (by exact_mod_cast hle) (by norm_num)
  have hupper' : r ≤ 100 := by exact_mod_cast hupper
  refine ⟨r, ?_, hnonneg, hupper'⟩
  have hrounded : Percentage.roundFloat (.finite q) = .finite r := hr
  rw [Percentage.serialize, hrounded]
  simp [lt, not_lt.mpr hupper', not_lt.mpr hnonneg]

section Answers

variable {db : SyncDatabase} {node : NodeTip} {status : CardanoDbMeta}

theorem cardanoDbMeta_eq (db : SyncDatabase) (node : NodeTip) :
    cardanoDbMeta db .initialized node = getMeta db (slotOf node) := by
  rw [cardanoDbMeta, getTipSlotNo, if_neg (not_not.mpr rfl)]

theorem percentage_of_answer (hslot : 0 < slotOf node) (h : cardanoDbMeta db .initialized node = .ok status) :
    status.syncPercentage = .finite (min 100 (100 * (dbSlot db / slotOf node))) := by
  rw [cardanoDbMeta_eq] at h
  obtain ⟨b, e, -, -, rfl⟩ := (getMeta_ok_iff db _ status).mp h
  exact clipped_eq (dbSlot db) hslot

theorem initialized_of_answer (h : cardanoDbMeta db .initialized node = .ok status) :
    status.initialized = true ↔ Initialized db := by
  rw [cardanoDbMeta_eq] at h
  obtain ⟨b, e, hb, he, rfl⟩ := (getMeta_ok_iff db _ status).mp h
  rw [decide_eq_true_iff, epochOf_eq_iff he]
  constructor
  · intro htip
    exact ⟨b, e, hb, he, htip⟩
  · rintro ⟨tip, latest, htip, hlatest, hepoch⟩
    rw [hb] at htip
    rw [he] at hlatest
    rw [Option.some.inj htip, Option.some.inj hlatest]
    exact hepoch

theorem answers_iff : (∃ status, cardanoDbMeta db .initialized node = .ok status) ↔
    (∃ b ∈ db.block, b.blockNo.isSome = true) ∧ db.epoch ≠ [] := by
  rw [cardanoDbMeta_eq, ← lastNumbered_isSome, ← latestEpoch_isSome, Option.isSome_iff_exists,
    Option.isSome_iff_exists]
  constructor
  · rintro ⟨status, hstatus⟩
    obtain ⟨b, e, hb, he, -⟩ := (getMeta_ok_iff db _ status).mp hstatus
    exact ⟨⟨b, hb⟩, e, he⟩
  · rintro ⟨⟨b, hb⟩, e, he⟩
    exact ⟨_, (getMeta_ok_iff db _ _).mpr ⟨b, e, hb, he, rfl⟩⟩

end Answers

/-- Without a numbered block or an epoch the destructured row is missing, and at slot 0 the
share has no value. -/
theorem validStatus_iff (db : SyncDatabase) (node : NodeTip) : ValidStatus db node ↔
    (∃ b ∈ db.block, b.blockNo.isSome = true) ∧ db.epoch ≠ [] ∧ 0 < slotOf node := by
  constructor
  · intro h
    obtain ⟨hblock, hepoch⟩ := answers_iff.mp h.answers
    exact ⟨hblock, hepoch, Nat.pos_of_ne_zero h.divisor⟩
  · rintro ⟨hblock, hepoch, hslot⟩
    refine
      { answers := answers_iff.mpr ⟨hblock, hepoch⟩
        divisor := Nat.pos_iff_ne_zero.mp hslot
        percentage := ?_
        exact := fun status hstatus _ => percentage_of_answer hslot hstatus
        monotone := ?_
        initialized := fun status hstatus => initialized_of_answer hstatus }
    · intro status hstatus
      have hnonneg : 0 ≤ min 100 (100 * (dbSlot db / slotOf node : ℚ)) := by positivity
      have hle : min 100 (100 * (dbSlot db / slotOf node : ℚ)) ≤ 100 := min_le_left _ _
      obtain ⟨r, hr⟩ := serialize_between hnonneg hle
      rw [percentage_of_answer hslot hstatus]
      exact ⟨_, r, rfl, ⟨hnonneg, hle⟩, hr⟩
    · intro db' status status' hstatus hstatus' hdb
      refine ⟨_, _, percentage_of_answer hslot hstatus, percentage_of_answer hslot hstatus', ?_⟩
      have hcast : (dbSlot db : ℚ) ≤ dbSlot db' := by exact_mod_cast hdb
      gcongr

def emptyDatabase : SyncDatabase where
  epoch := []
  epochParam := []
  block := []
  numbers := by
    intro b hb
    cases hb

theorem emptyDatabase_throws : cardanoDbMeta emptyDatabase .initialized (.slot 4492800) = .error .typeError ∧
    ¬ ValidStatus emptyDatabase (.slot 4492800) := by
  have hthrows : cardanoDbMeta emptyDatabase .initialized (.slot 4492800) = .error .typeError := by decide
  refine ⟨hthrows, fun h => ?_⟩
  obtain ⟨status, hstatus⟩ := h.answers
  rw [hthrows] at hstatus
  cases hstatus

end CardanoGraphql.SyncStatus
