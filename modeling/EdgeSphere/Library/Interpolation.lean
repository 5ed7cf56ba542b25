import Mathlib

/-!
# Values between the places of a list

Linear interpolation of a sequence at a rational place, as `percentile_cont` has it.

* `interpolate_between` — the value lies between those of the two nearest places;
* `interpolate_mono` — **it grows with the place** as far as the sequence does.
-/

namespace EdgeSphere.Library

/-- Between the values at the places below and above. -/
def interpolate (v : ℕ → ℚ) (row : ℚ) : ℚ :=
  v ⌊row⌋.toNat + (v ⌈row⌉.toNat - v ⌊row⌋.toNat) * (row - ⌊row⌋)

section Interpolate

variable {v : ℕ → ℚ} {last : ℕ} {row row' : ℚ}

/-- The places around a row of the sequence are places of the sequence. -/
theorem ceil_le_last (hlast : row ≤ last) : ⌈row⌉.toNat ≤ last := by
  have hceil : ⌈row⌉ ≤ (last : ℤ) := Int.ceil_le.mpr (by exact_mod_cast hlast)
  omega

theorem floor_le_ceil_toNat (row : ℚ) : ⌊row⌋.toNat ≤ ⌈row⌉.toNat := Int.toNat_le_toNat (Int.floor_le_ceil row)

/-- **The value lies between those of the two nearest places.** -/
theorem interpolate_between (hv : ∀ i j, i ≤ j → j ≤ last → v i ≤ v j) (hlast : row ≤ last) :
    v ⌊row⌋.toNat ≤ interpolate v row ∧ interpolate v row ≤ v ⌈row⌉.toNat := by
  have hstep : 0 ≤ v ⌈row⌉.toNat - v ⌊row⌋.toNat :=
    sub_nonneg.mpr (hv _ _ (floor_le_ceil_toNat row) (ceil_le_last hlast))
  have hlow : 0 ≤ row - ⌊row⌋ := sub_nonneg.mpr (Int.floor_le row)
  have hhigh : row - ⌊row⌋ ≤ 1 := by
    have := Int.lt_floor_add_one row
    linarith
  unfold interpolate
  refine ⟨le_add_of_nonneg_right (mul_nonneg hstep hlow), ?_⟩
  have hpart := mul_le_mul_of_nonneg_left hhigh hstep
  linarith

/-- **The value grows with the place.** -/
theorem interpolate_mono (hv : ∀ i j, i ≤ j → j ≤ last → v i ≤ v j) (hzero : 0 ≤ row) (hle : row ≤ row')
    (hlast : row' ≤ last) : interpolate v row ≤ interpolate v row' := by
  have hfloor : 0 ≤ ⌊row⌋ := Int.floor_nonneg.mpr hzero
  rcases eq_or_lt_of_le (Int.floor_le_floor hle) with hsame | hbelow
  · rcases eq_or_lt_of_le (Int.floor_le row) with hwhole | hinside
    · -- the first place is a whole one
      have hplace : interpolate v row = v ⌊row⌋.toNat := by
        unfold interpolate
        rw [← hwhole, Int.floor_intCast, sub_self, mul_zero, add_zero]
      rw [hplace, hsame]
      exact (interpolate_between hv hlast).1
    · -- both are inside of one step
      have hceil : ∀ r : ℚ, ⌊r⌋ = ⌊row⌋ → (⌊row⌋ : ℚ) < r → ⌈r⌉ = ⌊row⌋ + 1 := by
        intro r hr hlt
        have hupper := Int.lt_floor_add_one r
        rw [hr] at hupper
        refine Int.ceil_eq_iff.mpr ⟨?_, ?_⟩
        · push_cast
          linarith
        · push_cast
          exact hupper.le
      have hrow := hceil row rfl hinside
      have hrow' := hceil row' hsame.symm (lt_of_lt_of_le hinside hle)
      have hstep : 0 ≤ v (⌊row⌋ + 1).toNat - v ⌊row⌋.toNat := by
        have hbound := hv ⌊row⌋.toNat ⌈row'⌉.toNat (by rw [hrow']; omega) (ceil_le_last hlast)
        rw [hrow'] at hbound
        exact sub_nonneg.mpr hbound
      unfold interpolate
      rw [← hsame, hrow, hrow']
      have hpart := mul_le_mul_of_nonneg_left (sub_le_sub_right hle (⌊row⌋ : ℚ)) hstep
      linarith
  · -- a whole place lies between them
    have hceil : ⌈row⌉.toNat ≤ ⌊row'⌋.toNat := by
      have hnext := Int.ceil_le_floor_add_one row
      omega
    have hplace : ⌊row'⌋.toNat ≤ last := (floor_le_ceil_toNat row').trans (ceil_le_last hlast)
    calc interpolate v row ≤ v ⌈row⌉.toNat := (interpolate_between hv (hle.trans hlast)).2
      _ ≤ v ⌊row'⌋.toNat := hv _ _ hceil hplace
      _ ≤ interpolate v row' := (interpolate_between hv hlast).1

end Interpolate

end EdgeSphere.Library
