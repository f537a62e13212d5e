import CardanoGraphql.JsNumber

namespace CardanoGraphql.JsNumber

theorem floor_le_roundHalfEven (y : ℚ) : ⌊y⌋ ≤ roundHalfEven y := by
  rw [roundHalfEven]
  split_ifs <;> omega

theorem roundHalfEven_le_floor (y : ℚ) : roundHalfEven y ≤ ⌊y⌋ + 1 := by
  rw [roundHalfEven]
  split_ifs <;> omega

theorem le_roundHalfEven {y : ℚ} {n : ℤ} (h : n ≤ y) : n ≤ roundHalfEven y :=
  (Int.le_floor.mpr h).trans (floor_le_roundHalfEven y)

theorem roundHalfEven_mono {y z : ℚ} (h : y ≤ z) : roundHalfEven y ≤ roundHalfEven z := by
  rcases (Int.floor_mono h).lt_or_eq with hlt | heq
  · calc roundHalfEven y ≤ ⌊y⌋ + 1 := roundHalfEven_le_floor y
      _ ≤ ⌊z⌋ := hlt
      _ ≤ roundHalfEven z := floor_le_roundHalfEven z
  · by_cases hup : 1 / 2 < z - ⌊z⌋
    · have hz : roundHalfEven z = ⌊z⌋ + 1 := by
        rw [roundHalfEven, if_neg (by linarith), if_pos hup]
      calc roundHalfEven y ≤ ⌊y⌋ + 1 := roundHalfEven_le_floor y
        _ = roundHalfEven z := by rw [hz, heq]
    · by_cases hdown : y - ⌊y⌋ < 1 / 2
      · calc roundHalfEven y = ⌊y⌋ := by rw [roundHalfEven, if_pos hdown]
          _ ≤ roundHalfEven z := heq ▸ floor_le_roundHalfEven z
      · have hyz : y = z := by
          rw [heq] at hdown
          linarith
        rw [hyz]

theorem toDouble_finite {q r : ℚ} (hq : q ≠ 0) (h : toDouble q = .finite r) :
    r = roundHalfEven (q / spacing q) * spacing q := by
  rw [toDouble, if_neg hq] at h
  split at h
  · cases h
  · exact (JsNumber.finite.inj h).symm

theorem zpow_multiple {e : ℤ} {q : ℚ} (h : max (Int.log 2 |q|) (-1022) - 52 ≤ e) :
    ∃ k : ℤ, (2 : ℚ) ^ e = k * spacing q := by
  obtain ⟨m, hm⟩ : ∃ m : Nat, e = m + (max (Int.log 2 |q|) (-1022) - 52) :=
    ⟨(e - (max (Int.log 2 |q|) (-1022) - 52)).toNat, by omega⟩
  refine ⟨2 ^ m, ?_⟩
  rw [spacing, hm, zpow_add₀ (by norm_num), zpow_natCast]
  push_cast
  rfl

theorem toDouble_mono {p q r s : ℚ} (hp : 0 ≤ p) (hpq : p ≤ q) (hr : toDouble p = .finite r)
    (hs : toDouble q = .finite s) (hnonneg : 0 ≤ s) : r ≤ s := by
  rcases hp.eq_or_lt with rfl | hpos
  · rw [toDouble, if_pos rfl] at hr
    exact JsNumber.finite.inj hr ▸ hnonneg
  have hqpos : 0 < q := lt_of_lt_of_le hpos hpq
  have hsp := spacing_pos p
  have hsq := spacing_pos q
  obtain rfl := toDouble_finite (ne_of_gt hpos) hr
  obtain rfl := toDouble_finite (ne_of_gt hqpos) hs
  have hlog : Int.log 2 |p| ≤ Int.log 2 |q| := by
    rw [abs_of_pos hpos, abs_of_pos hqpos]
    exact Int.log_mono_right hpos hpq
  rcases eq_or_ne (max (Int.log 2 |p|) (-1022)) (max (Int.log 2 |q|) (-1022)) with hsame | hne
  · have hspacing : spacing p = spacing q := by rw [spacing, spacing, hsame]
    have hround : (roundHalfEven (p / spacing p) : ℚ) ≤ roundHalfEven (q / spacing q) := by
      rw [hspacing]
      exact_mod_cast roundHalfEven_mono (div_le_div_of_nonneg_right hpq (le_of_lt hsq))
    calc roundHalfEven (p / spacing p) * spacing p = roundHalfEven (p / spacing p) * spacing q := by rw [hspacing]
      _ ≤ roundHalfEven (q / spacing q) * spacing q := mul_le_mul_of_nonneg_right hround (le_of_lt hsq)
  · have hlt : Int.log 2 |p| < Int.log 2 |q| := by omega
    obtain ⟨j, hj⟩ := zpow_multiple (q := p) (e := Int.log 2 |q|) (by omega)
    obtain ⟨k, hk⟩ := zpow_multiple (q := q) (e := Int.log 2 |q|) (by omega)
    have hbelow : p ≤ 2 ^ Int.log 2 |q| := by
      rw [abs_of_pos hpos, abs_of_pos hqpos] at hlt
      rw [abs_of_pos hqpos]
      exact le_of_lt (by exact_mod_cast (Int.lt_zpow_iff_log_lt (by norm_num) hpos).mpr hlt)
    have habove : 2 ^ Int.log 2 |q| ≤ q := by
      rw [abs_of_pos hqpos]
      exact_mod_cast Int.zpow_log_le_self (by norm_num) hqpos
    have hlower : (roundHalfEven (p / spacing p) : ℚ) ≤ j := by
      apply Int.cast_le.mpr
      apply roundHalfEven_le
      rw [div_le_iff₀ hsp, ← hj]
      exact hbelow
    have hupper : (k : ℚ) ≤ roundHalfEven (q / spacing q) := by
      apply Int.cast_le.mpr
      apply le_roundHalfEven
      rw [le_div_iff₀ hsq, ← hk]
      exact habove
    calc roundHalfEven (p / spacing p) * spacing p ≤ j * spacing p :=
          mul_le_mul_of_nonneg_right hlower (le_of_lt hsp)
      _ = k * spacing q := by rw [← hj, hk]
      _ ≤ roundHalfEven (q / spacing q) * spacing q := mul_le_mul_of_nonneg_right hupper (le_of_lt hsq)

end CardanoGraphql.JsNumber
