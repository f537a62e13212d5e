import CardanoGraphql.DoubleRounding

namespace CardanoGraphql.SyncProgress

open JsNumber

def le (x y : JsNumber) : Bool := lt x y || (decide (x = y) && decide (x ≠ .nan))

def clamp (num min max : JsNumber) : JsNumber :=
  if le num min then min else if le max num then max else num

/-- `/` of two counts, which `Number` reads exactly up to 2^53. -/
def divide (m n : Nat) : JsNumber :=
  match quotient m n with
  | .finite q => toDouble q
  | x => x

def times (x : JsNumber) (c : ℚ) : JsNumber :=
  match scale c x with
  | .finite q => toDouble q
  | x => x

def round : JsNumber → JsNumber
  | .finite q => .finite ⌊q + 1 / 2⌋
  | x => x

def assetSyncPercentage (assets tokenMints : Nat) : JsNumber :=
  if tokenMints = 0 then .finite 0
  else clamp (round (times (divide assets tokenMints) 100)) (.finite 0) (.finite 100)

def dbReady (initialized : Bool) (assets tokenMints : Nat) : Bool :=
  initialized && lt (.finite 99) (assetSyncPercentage assets tokenMints)

theorem clamp_whole {n : ℤ} (h : 0 ≤ n) :
    clamp (.finite n) (.finite 0) (.finite 100) = .finite (min n 100 : ℤ) := by
  have hle : ∀ p q : ℚ, le (.finite p) (.finite q) = true ↔ p ≤ q := by
    intro p q
    rw [le, lt, Bool.or_eq_true, Bool.and_eq_true, decide_eq_true_iff, decide_eq_true_iff, le_iff_lt_or_eq]
    simp
  rw [clamp]
  by_cases hzero : n ≤ 0
  · have : n = 0 := by omega
    subst this
    rw [if_pos ((hle _ _).mpr (by norm_num))]
    norm_num
  · rw [if_neg (mt (hle _ _).mp (by exact_mod_cast hzero))]
    by_cases hbig : 100 ≤ n
    · rw [if_pos ((hle _ _).mpr (by exact_mod_cast hbig)), min_eq_right hbig]
      norm_num
    · rw [if_neg (mt (hle _ _).mp (by exact_mod_cast hbig)), min_eq_left (by omega)]

/-- What the quotient and its product with 100 are read as, and the percentage from them. -/
structure Measured (assets tokenMints : Nat) (ratio percent : ℚ) : Prop where
  ratio_read : toDouble (assets / tokenMints) = .finite ratio
  ratio_nonneg : 0 ≤ ratio
  percent_read : toDouble (ratio * 100) = .finite percent
  percent_nonneg : 0 ≤ percent
  reported : assetSyncPercentage assets tokenMints = .finite (min ⌊percent + 1 / 2⌋ 100 : ℤ)

theorem measured {assets tokenMints n : Nat} (hbound : (assets : ℚ) / tokenMints ≤ n) (hn : n < 2 ^ 31)
    (hmints : 0 < tokenMints) : ∃ ratio percent, Measured assets tokenMints ratio percent := by
  obtain ⟨ratio, hratio, hratio0, hratio1⟩ := toDouble_between (n := n) (by positivity) hbound (by omega)
  have hscaled : ratio * 100 ≤ (n * 100 : Nat) := by
    push_cast
    linarith
  obtain ⟨percent, hpercent, hpercent0, -⟩ := toDouble_between (by positivity) hscaled (by omega)
  refine ⟨ratio, percent, hratio, hratio0, hpercent, hpercent0, ?_⟩
  have hfloor : 0 ≤ ⌊percent + 1 / 2⌋ := Int.floor_nonneg.mpr (by linarith)
  rw [assetSyncPercentage, if_neg (by omega), divide, quotient, if_neg (by omega)]
  simp only [hratio, times, scale, hpercent, round]
  exact clamp_whole hfloor

theorem Measured.mono {assets assets' tokenMints tokenMints' : Nat} {ratio ratio' percent percent' : ℚ}
    (h : Measured assets tokenMints ratio percent) (h' : Measured assets' tokenMints' ratio' percent')
    (hle : (assets : ℚ) / tokenMints ≤ assets' / tokenMints') : percent ≤ percent' := by
  have hratio : ratio ≤ ratio' :=
    toDouble_mono (by positivity) hle h.ratio_read h'.ratio_read h'.ratio_nonneg
  have hscaled : ratio * 100 ≤ ratio' * 100 := by linarith
  have hnonneg := h.ratio_nonneg
  exact toDouble_mono (by positivity) hscaled h.percent_read h'.percent_read h'.percent_nonneg

theorem measured_threshold : Measured 199 200 (8962163258467287 / 2 ^ 53) (199 / 2) :=
  ⟨by decide +kernel, by decide +kernel, by decide +kernel, by decide +kernel, by decide +kernel⟩

theorem measured_below :
    Measured (199 * 2 ^ 31 - 1) (200 * 2 ^ 31) (8962163258446316 / 2 ^ 53) (7001690045661184 / 2 ^ 46) :=
  ⟨by decide +kernel, by decide +kernel, by decide +kernel, by decide +kernel, by decide +kernel⟩

theorem Measured.threshold_le {assets tokenMints : Nat} {ratio percent : ℚ} (hmints : 0 < tokenMints)
    (h : Measured assets tokenMints ratio percent) (hcount : 199 * tokenMints ≤ 200 * assets) :
    199 / 2 ≤ percent := by
  have hpos : (0 : ℚ) < tokenMints := by exact_mod_cast hmints
  have hcast : (199 : ℚ) * tokenMints ≤ 200 * assets := by exact_mod_cast hcount
  have hratio : ((199 : Nat) : ℚ) / (200 : Nat) ≤ assets / tokenMints := by
    rw [div_le_div_iff₀ (by norm_num) hpos]
    push_cast
    linarith
  exact measured_threshold.mono h hratio

theorem Measured.threshold_le_iff {assets tokenMints : Nat} {ratio percent : ℚ} (hmints : 0 < tokenMints)
    (hbound : tokenMints < 2 ^ 31) (h : Measured assets tokenMints ratio percent) :
    199 / 2 ≤ percent ↔ 199 * tokenMints ≤ 200 * assets := by
  constructor
  · intro hpercent
    by_contra hless
    have hpos : (0 : ℚ) < tokenMints := by exact_mod_cast hmints
    have hcount : (200 : ℚ) * assets + 1 ≤ 199 * tokenMints := by exact_mod_cast not_le.mp hless
    have hmax : (tokenMints : ℚ) ≤ 2 ^ 31 := by exact_mod_cast hbound.le
    have hratio : (assets : ℚ) / tokenMints ≤ (199 * 2 ^ 31 - 1 : Nat) / (200 * 2 ^ 31 : Nat) := by
      rw [div_le_div_iff₀ hpos (by norm_num)]
      push_cast
      linarith
    have hbelow := h.mono measured_below hratio
    norm_num at hbelow hpercent
    linarith
  · exact h.threshold_le hmints

theorem Measured.above_99_iff {assets tokenMints : Nat} {ratio percent : ℚ}
    (h : Measured assets tokenMints ratio percent) :
    lt (.finite 99) (assetSyncPercentage assets tokenMints) = true ↔ 199 / 2 ≤ percent := by
  have hcast : (99 : ℚ) < (min ⌊percent + 1 / 2⌋ 100 : ℤ) ↔ 100 ≤ ⌊percent + 1 / 2⌋ := by
    rw [show (99 : ℚ) = ((99 : ℤ) : ℚ) by norm_num, Int.cast_lt]
    omega
  rw [h.reported, lt, decide_eq_true_iff, hcast, Int.le_floor]
  constructor
  · intro hle
    norm_num at hle
    linarith
  · intro hle
    norm_num
    linarith

/-- What is divided in doubles and rounded is ready from 99.5 percent on. -/
theorem dbReady_iff {assets tokenMints : Nat} (hassets : assets < 2 ^ 31) (hmints : tokenMints < 2 ^ 31)
    (initialized : Bool) :
    dbReady initialized assets tokenMints = true ↔
      initialized = true ∧ 0 < tokenMints ∧ 199 * tokenMints ≤ 200 * assets := by
  rw [dbReady, Bool.and_eq_true]
  rcases Nat.eq_zero_or_pos tokenMints with rfl | hpos
  · simp [assetSyncPercentage, lt]
  · have hbound : (assets : ℚ) / tokenMints ≤ assets :=
      div_le_self (Nat.cast_nonneg _) (by exact_mod_cast hpos)
    obtain ⟨ratio, percent, h⟩ := measured hbound hassets hpos
    rw [h.above_99_iff, h.threshold_le_iff hpos hmints]
    simp [hpos]

theorem dbReady_of_stored {assets tokenMints : Nat} (hle : assets ≤ tokenMints) (hpos : 0 < tokenMints)
    (hcount : 199 * tokenMints ≤ 200 * assets) : dbReady true assets tokenMints = true := by
  have hbound : (assets : ℚ) / tokenMints ≤ (1 : Nat) := by
    rw [Nat.cast_one, div_le_one (by exact_mod_cast hpos)]
    exact_mod_cast hle
  obtain ⟨ratio, percent, h⟩ := measured hbound (by norm_num) hpos
  exact h.above_99_iff.mpr (h.threshold_le hpos hcount)

theorem dbReady_nearly :
    dbReady true 199 200 = true ↔ true = true ∧ 0 < 200 ∧ 199 * 200 ≤ 200 * 199 :=
  dbReady_iff (by norm_num) (by norm_num) true

example : assetSyncPercentage 199 200 = .finite 100 ∧ assetSyncPercentage 198 200 = .finite 99 := by
  decide +kernel

end CardanoGraphql.SyncProgress
