import LoxLexer.Proofs.Number.Conversion
import LoxLexer.Proofs.Number.Overflow

/-!
# Rounding to the nearest number

A decimal becomes the finite number that is nearest to it, and where two are equally near the one with the
even significand. Nearest is meant among all finite numbers, of whatever scale. Only what is too large for
this becomes infinite.

In steps of the scale of the decimal, the numbers near it are the whole numbers. There are numbers of smaller
scales between these, but all of them lie below a whole number that is no larger than the decimal.

* `Binary64.IsNearest`, `Binary64.Rounds`: the nearest number, and what is rounded to infinity.
* `Binary64.magnitude_ofSteps`: the number with so many steps of a scale.
* `Binary64.AtScale.isNearest`: the steps to which a number is rounded are the nearest number.
* `Binary64.rounds_ofDecimal`: decimals are rounded to the nearest number.
* `Binary64.Rounds.unique`, `Numeral.value_eq_iff`: there is no other, and so the value of a numeral is told.
-/

namespace LoxLexer

namespace Binary64

/-! ## §1 Nearest numbers -/

/-- The magnitude of a finite number. -/
def magnitude (x : Binary64) : ℚ :=
  x.significand * 2 ^ x.scale

/-- **The nearest finite number** to one that is not negative. If another one is as near, the significand is
even. -/
structure IsNearest (q : ℚ) (x : Binary64) : Prop where
  finite : x.isFinite = true
  notNegative : x.isNegative = false
  nearest : ∀ y : Binary64, y.isFinite = true → |x.magnitude - q| ≤ |y.magnitude - q|
  even : ∀ y : Binary64, y.isFinite = true → y.magnitude ≠ x.magnitude →
    |y.magnitude - q| = |x.magnitude - q| → x.significand % 2 = 0

/-- **Rounding**: to the nearest number below the least that overflows, and to infinity from there on. -/
inductive Rounds (q : ℚ) (x : Binary64) : Prop where
  | nearest (h : q < overflow) (hx : IsNearest q x)
  | infinite (h : overflow ≤ q) (hx : x = infinity)

/-! ## §2 Steps of a scale -/

/-- **So many steps of a scale.** With one step more than there are significands, the number is the first of
the next scale. -/
theorem magnitude_ofSteps {e r : Nat} (hr : r ≤ 2 ^ 53) (hfull : 0 < e → 2 ^ 52 ≤ r)
    (hfinite : e * 2 ^ 52 + r < infinityMagnitude) :
    (ofMagnitude false (e * 2 ^ 52 + r)).magnitude = r * 2 ^ ((e : ℤ) - 1074) ∧
      (ofMagnitude false (e * 2 ^ 52 + r)).significand % 2 = r % 2 := by
  have h52 : twoTo 52 = 2 ^ 52 := rfl
  have hbits := toNat_bits_ofMagnitude hfinite.le
  rw [infinityMagnitude_eq] at hfinite
  have hexponent : (ofMagnitude false (e * 2 ^ 52 + r)).exponentField = e + r / 2 ^ 52 := by
    rw [exponentField_eq, hbits]
    omega
  have hfraction : (ofMagnitude false (e * 2 ^ 52 + r)).fractionField = r % 2 ^ 52 := by
    rw [fractionField_eq, hbits]
    omega
  rw [magnitude, significand, scale, hexponent, hfraction, h52]
  rcases Nat.lt_or_ge r (2 ^ 52) with hsmall | hlarge
  · -- only numbers of the least scale have so few steps
    obtain rfl : e = 0 := by omega
    have hzero : 0 + r / 2 ^ 52 = 0 := by omega
    rw [hzero, if_pos rfl, Nat.mod_eq_of_lt hsmall]
    exact ⟨rfl, rfl⟩
  · rcases Nat.lt_or_ge r (2 ^ 53) with hless | hcarry
    · have hone : r / 2 ^ 52 = 1 := by omega
      have hrest : 2 ^ 52 + r % 2 ^ 52 = r := by omega
      have hscale : ((max (e + 1) 1 : Nat) : ℤ) - 1075 = e - 1074 := by omega
      rw [hone, if_neg (Nat.succ_ne_zero e), hrest, hscale]
      exact ⟨rfl, rfl⟩
    · obtain rfl : r = 2 ^ 53 := Nat.le_antisymm hr hcarry
      have hdigits : 2 ^ 53 / 2 ^ 52 = 2 ∧ 2 ^ 52 + 2 ^ 53 % 2 ^ 52 = 2 ^ 52 := by decide
      have hscale : ((max (e + 2) 1 : Nat) : ℤ) - 1075 = (e : ℤ) - 1074 + 1 := by omega
      rw [hdigits.1, if_neg (Nat.succ_ne_zero (e + 1)), hdigits.2, hscale]
      refine ⟨?_, by decide⟩
      rw [zpow_add_one₀ two_ne_zero]
      push_cast
      ring

/-- **A number of at least some scale** is so many steps of it. One of a smaller scale has less than the
least number of steps with all digits. -/
theorem exists_steps_or_lt (y : Binary64) {s : ℤ} (hs : -1074 ≤ s) :
    (∃ k : Nat, y.magnitude = k * 2 ^ s) ∨ -1074 < s ∧ y.magnitude < 2 ^ 52 * 2 ^ s := by
  have hscale : -1074 ≤ y.scale := by
    rw [scale]
    omega
  rw [magnitude]
  generalize y.scale = k at *
  rcases le_or_gt s k with hk | hk
  · left
    refine ⟨y.significand * 2 ^ (k - s).toNat, ?_⟩
    have hpow : (2 : ℚ) ^ k = 2 ^ (k - s).toNat * 2 ^ s := by
      rw [← zpow_natCast, Int.toNat_of_nonneg (by omega), ← zpow_add₀ two_ne_zero, sub_add_cancel]
    rw [hpow, Nat.cast_mul, Nat.cast_pow, Nat.cast_ofNat, mul_assoc]
  · right
    refine ⟨by omega, ?_⟩
    have hcast : (y.significand : ℚ) < 2 ^ 53 := by exact_mod_cast y.significand_lt
    calc (y.significand : ℚ) * 2 ^ k < 2 ^ 53 * 2 ^ k := mul_lt_mul_of_pos_right hcast (zpow_pos two_pos k)
      _ = 2 ^ 52 * 2 ^ (k + 1) := by
          rw [zpow_add_one₀ two_ne_zero]
          ring
      _ ≤ 2 ^ 52 * 2 ^ s := by
          gcongr
          · exact one_le_two
          · omega

/-! ## §3 Nearest steps -/

namespace RoundsTo

variable {u : ℚ} {r : Nat}

/-- No whole number is nearer, and none is as near unless the one that is rounded to is even. -/
theorem nearest (h : RoundsTo u r) (k : Nat) :
    |(r : ℚ) - u| ≤ |k - u| ∧ (k ≠ r → |(k : ℚ) - u| = |r - u| → r % 2 = 0) := by
  by_cases hk : k = r
  · rw [hk]
    exact ⟨le_refl _, fun hne => absurd rfl hne⟩
  · have hapart : (1 : ℚ) ≤ |k - u| + |r - u| := by
      have hone : (1 : ℚ) ≤ |(k : ℚ) - r| := by
        have hint : (1 : ℤ) ≤ |(k : ℤ) - r| := Int.one_le_abs (by omega)
        exact_mod_cast hint
      calc (1 : ℚ) ≤ |(k : ℚ) - r| := hone
        _ ≤ |k - u| + |u - r| := abs_sub_le _ _ _
        _ = |k - u| + |r - u| := by rw [abs_sub_comm u]
    have hnear := h.near
    refine ⟨by linarith, fun _ htie => h.even ?_⟩
    linarith

/-- A number below a whole number that is no larger is not as near. -/
theorem lt_of_lt_of_le (h : RoundsTo u r) {v : ℚ} {N : Nat} (hv : v < N) (hu : (N : ℚ) ≤ u) :
    |(r : ℚ) - u| < |v - u| := by
  calc |(r : ℚ) - u| ≤ |N - u| := (h.nearest N).1
    _ = u - N := by rw [abs_sub_comm, abs_of_nonneg (sub_nonneg.mpr hu)]
    _ < u - v := sub_lt_sub_left hv u
    _ = |v - u| := by rw [abs_sub_comm, abs_of_nonneg (sub_nonneg.mpr (hv.le.trans hu))]

end RoundsTo

/-- **The steps to which a number is rounded are the nearest number**, if they are less than infinity. -/
theorem AtScale.isNearest {q u : ℚ} {s : ℤ} {r : Nat} (h : AtScale q s u) (hr : RoundsTo u r)
    (hfinite : (s + 1074).toNat * 2 ^ 52 + r < infinityMagnitude) :
    IsNearest q (ofMagnitude false ((s + 1074).toNat * 2 ^ 52 + r)) := by
  have hleast := h.least
  have hmost : r ≤ 2 ^ 53 := hr.le_of_lt (by exact_mod_cast h.lt)
  have hfull : 0 < (s + 1074).toNat → 2 ^ 52 ≤ r := by
    intro hs
    exact hr.le_of_le (by exact_mod_cast h.full (by omega))
  obtain ⟨hmagnitude, hparity⟩ := magnitude_ofSteps hmost hfull hfinite
  have hexponent : ((s + 1074).toNat : ℤ) - 1074 = s := by omega
  rw [hexponent] at hmagnitude
  -- from here on all is in units of the scale
  have hscale : (0 : ℚ) < 2 ^ s := zpow_pos two_pos s
  have hdist : ∀ v : ℚ, |v * 2 ^ s - q| = |v - u| * 2 ^ s := by
    intro v
    rw [h.eq, ← sub_mul, abs_mul, abs_of_pos hscale]
  have hall : ∀ y : Binary64, ∃ v : ℚ, y.magnitude = v * 2 ^ s ∧ |(r : ℚ) - u| ≤ |v - u| ∧
      (v ≠ r → |v - u| = |(r : ℚ) - u| → r % 2 = 0) := by
    intro y
    rcases y.exists_steps_or_lt hleast with ⟨k, hk⟩ | ⟨hs, hy⟩
    · obtain ⟨hnearest, heven⟩ := hr.nearest k
      exact ⟨k, hk, hnearest, fun hne => heven (by exact_mod_cast hne)⟩
    · -- such a number is not as near
      have hv : y.magnitude / 2 ^ s < (2 ^ 52 : Nat) := by
        rw [div_lt_iff₀ hscale]
        exact_mod_cast hy
      have hlt := hr.lt_of_lt_of_le hv (by exact_mod_cast h.full hs)
      exact ⟨y.magnitude / 2 ^ s, (div_mul_cancel₀ _ hscale.ne').symm, hlt.le,
        fun _ htie => absurd htie hlt.ne'⟩
  refine ⟨(isFinite_ofMagnitude_iff hfinite.le).mpr hfinite,
    (isMagnitude_ofMagnitude hfinite.le).notNegative, ?_, ?_⟩
  · intro y _
    obtain ⟨v, hv, hnearest, -⟩ := hall y
    rw [hmagnitude, hv, hdist, hdist]
    exact mul_le_mul_of_nonneg_right hnearest hscale.le
  · intro y _ hne htie
    obtain ⟨v, hv, -, heven⟩ := hall y
    rw [hmagnitude, hv] at hne htie
    rw [hdist, hdist] at htie
    rw [hparity]
    exact heven (fun hvr => hne (by rw [hvr])) (mul_right_cancel₀ hscale.ne' htie)

/-! ## §4 Decimals -/

/-- Zero is nearest to what is less than half the least number. -/
theorem isNearest_zero {q : ℚ} (hq : 0 ≤ q) (hsmall : q < 2 ^ (-1075 : ℤ)) : IsNearest q zero := by
  have hunit : (0 : ℚ) < 2 ^ (-1074 : ℤ) := zpow_pos two_pos _
  have hhalf : q / 2 ^ (-1074 : ℤ) < 1 / 2 := by
    rw [div_lt_iff₀ hunit]
    calc q < 2 ^ (-1075 : ℤ) := hsmall
      _ = 1 / 2 * 2 ^ (-1074 : ℤ) := by
          rw [show (-1074 : ℤ) = -1075 + 1 from rfl, zpow_add_one₀ two_ne_zero]
          ring
  have hsteps : AtScale q (-1074) (q / 2 ^ (-1074 : ℤ)) := by
    refine ⟨le_refl _, (div_mul_cancel₀ _ hunit.ne').symm, hhalf.trans (by norm_num), ?_⟩
    intro h
    exact absurd h (lt_irrefl _)
  have hdist : |((0 : Nat) : ℚ) - q / 2 ^ (-1074 : ℤ)| = q / 2 ^ (-1074 : ℤ) := by
    rw [Nat.cast_zero, zero_sub, abs_neg, abs_of_nonneg (div_nonneg hq hunit.le)]
  exact hsteps.isNearest (r := 0) ⟨by rw [hdist]; exact hhalf.le, fun _ => rfl⟩ (by decide)

theorem isNearest_ofRatio (num : Nat) {den : Nat} (hden : 0 < den)
    (h : (num : ℚ) / den < overflow) : IsNearest (num / den) (ofRatio num den) := by
  have hfinite := (isFinite_ofRatio_iff num hden).mpr h
  rcases Nat.eq_zero_or_pos num with rfl | hnum
  · rw [Nat.cast_zero, zero_div]
    exact isNearest_zero (le_refl 0) (zpow_pos two_pos _)
  obtain ⟨s, n, d, hd, hsteps, hround⟩ := exists_atScale hnum hden
  rw [hround, isFinite_ofMagnitude_min_iff] at hfinite
  rw [hround, min_eq_left hfinite.le]
  exact hsteps.isNearest (roundsTo_roundQuotient n hd) hfinite

theorem isNearest_ofDecimal (m : Nat) (e : ℤ) (h : (m : ℚ) * 10 ^ e < overflow) :
    IsNearest (m * 10 ^ e) (ofDecimal m e) := by
  have hfinite := (isFinite_ofDecimal_iff m e).mpr h
  have hten : (0 : ℚ) < 10 ^ e := zpow_pos (by norm_num) e
  unfold ofDecimal at hfinite ⊢
  split_ifs at hfinite ⊢ with hm hlarge hsmall he
  · rw [hm, Nat.cast_zero, zero_mul]
    exact isNearest_zero (le_refl 0) (zpow_pos two_pos _)
  · exact absurd hfinite (by decide)
  · apply isNearest_zero (mul_nonneg m.cast_nonneg hten.le)
    exact mul_zpow_lt (Nat.pos_iff_ne_zero.mpr hm) hsmall
  · rw [← ratio_of_nonneg m he] at h ⊢
    exact isNearest_ofRatio _ Nat.one_pos h
  · rw [← ratio_of_neg m (not_le.mp he)] at h ⊢
    exact isNearest_ofRatio _ (tenTo_pos _) h

/-- The only magnitude that is neither finite nor a NaN. -/
theorem IsMagnitude.eq_infinity {x : Binary64} (h : x.IsMagnitude) (hx : x.isFinite = false) :
    x = infinity := by
  have hinfinity : infinity.bits.toNat = 2047 * 2 ^ 52 := toNat_bits_ofMagnitude (Nat.le_refl _)
  have hfull : x.exponentField = 2047 := by
    by_contra hne
    exact Bool.false_ne_true (hx.symm.trans (x.isFinite_iff.mpr hne))
  have hfraction := x.isNaN_eq_false_iff.mp h.notNaN hfull
  have hsign := x.isNegative_eq_false_iff.mp h.notNegative
  rw [exponentField_eq] at hfull
  rw [fractionField_eq] at hfraction
  apply eq_of_toNat_bits_eq
  omega

/-- **Decimals are rounded to the nearest number.** -/
theorem rounds_ofDecimal (m : Nat) (e : ℤ) : Rounds (m * 10 ^ e) (ofDecimal m e) := by
  rcases lt_or_ge ((m : ℚ) * 10 ^ e) overflow with h | h
  · exact .nearest h (isNearest_ofDecimal m e h)
  · refine .infinite h ((isMagnitude_ofDecimal m e).eq_infinity ?_)
    rw [Bool.eq_false_iff]
    exact fun hfinite => not_lt.mpr h ((isFinite_ofDecimal_iff m e).mp hfinite)

/-! ## §5 There is one nearest number -/

/-- The bits of a finite number that is not negative are those of its magnitude. -/
theorem eq_ofMagnitude {x : Binary64} (hfinite : x.isFinite = true) (hsign : x.isNegative = false) :
    x.bits.toNat < infinityMagnitude ∧ x = ofMagnitude false x.bits.toNat := by
  rw [isNegative_eq_false_iff] at hsign
  rw [isFinite_iff, exponentField_eq] at hfinite
  have hlt : x.bits.toNat < infinityMagnitude := by
    rw [infinityMagnitude_eq]
    omega
  exact ⟨hlt, eq_of_toNat_bits_eq (toNat_bits_ofMagnitude hlt.le).symm⟩

/-- **The next magnitude** is larger, and of the two significands one is even. -/
theorem magnitude_succ {m : Nat} (h : m + 1 < infinityMagnitude) :
    (ofMagnitude false m).magnitude < (ofMagnitude false (m + 1)).magnitude ∧
      ((ofMagnitude false m).significand % 2 = 0 → (ofMagnitude false (m + 1)).significand % 2 = 1) := by
  -- the steps of the scale of the lower one
  obtain ⟨e, r, rfl, hr, hfull⟩ : ∃ e r, m = e * 2 ^ 52 + r ∧ r < 2 ^ 53 ∧ (0 < e → 2 ^ 52 ≤ r) := by
    rcases Nat.lt_or_ge m (2 ^ 52) with hm | hm
    · exact ⟨0, m, by omega, by omega, by omega⟩
    · exact ⟨m / 2 ^ 52 - 1, 2 ^ 52 + m % 2 ^ 52, by omega, by omega, by omega⟩
  have hlower := magnitude_ofSteps hr.le hfull (Nat.lt_of_succ_lt h)
  rw [Nat.add_assoc] at h ⊢
  have hupper := magnitude_ofSteps hr (fun he => Nat.le_succ_of_le (hfull he)) h
  rw [hlower.1, hupper.1, hlower.2, hupper.2, Nat.cast_succ]
  refine ⟨mul_lt_mul_of_pos_right (lt_add_one _) (zpow_pos two_pos _), by omega⟩

theorem magnitude_lt {m n : Nat} (h : m < n) (hn : n < infinityMagnitude) :
    (ofMagnitude false m).magnitude < (ofMagnitude false n).magnitude := by
  induction n, h using Nat.le_induction with
  | base => exact (magnitude_succ hn).1
  | succ n hmn ih => exact (ih (by omega)).trans (magnitude_succ hn).1

/-- Of two nearest numbers the first has no smaller bits: between them there would be a nearer one. -/
theorem IsNearest.le {q : ℚ} {x y : Binary64} (hx : IsNearest q x) (hy : IsNearest q y) :
    y.bits.toNat ≤ x.bits.toNat := by
  by_contra hlt
  rw [not_le] at hlt
  obtain ⟨-, hxbits⟩ := eq_ofMagnitude hx.finite hx.notNegative
  obtain ⟨hysmall, hybits⟩ := eq_ofMagnitude hy.finite hy.notNegative
  have hless : x.magnitude < y.magnitude := by
    rw [hxbits, hybits]
    exact magnitude_lt hlt hysmall
  have htie : |y.magnitude - q| = |x.magnitude - q| :=
    le_antisymm (hy.nearest x hx.finite) (hx.nearest y hy.finite)
  have hxeven := hx.even y hy.finite hless.ne' htie
  have hyeven := hy.even x hx.finite hless.ne htie.symm
  -- the next number after `x` has an odd significand, and so it is not `y`
  obtain ⟨hstep, hodd⟩ := magnitude_succ (m := x.bits.toNat) (by omega)
  rw [← hxbits] at hstep hodd
  have hnext : x.bits.toNat + 1 < y.bits.toNat := by
    refine lt_of_le_of_ne hlt ?_
    intro heq
    rw [heq, ← hybits] at hodd
    exact absurd (hyeven.symm.trans (hodd hxeven)) (by decide)
  have hbetween : (ofMagnitude false (x.bits.toNat + 1)).magnitude < y.magnitude := by
    rw [hybits]
    exact magnitude_lt hnext hysmall
  have hfinite : (ofMagnitude false (x.bits.toNat + 1)).isFinite = true :=
    (isFinite_ofMagnitude_iff (hnext.trans hysmall).le).mpr (hnext.trans hysmall)
  have hnear := hx.nearest _ hfinite
  -- it would be nearer, since `q` lies in the middle between the two
  generalize (ofMagnitude false (x.bits.toNat + 1)).magnitude = z at *
  generalize x.magnitude = a at *
  generalize y.magnitude = b at *
  have hmiddle : b - q = q - a := by
    rcases abs_eq_abs.mp htie with h | h <;> linarith
  have hdist : |a - q| = q - a := by
    rw [abs_sub_comm, abs_of_nonneg (by linarith)]
  have hnearer : |z - q| < q - a := abs_lt.mpr ⟨by linarith, by linarith⟩
  linarith

/-- **There is one number that another one is rounded to.** -/
theorem Rounds.unique {q : ℚ} {x y : Binary64} (hx : Rounds q x) (hy : Rounds q y) : x = y := by
  cases hx with
  | nearest hq hx =>
    cases hy with
    | nearest _ hy => exact eq_of_toNat_bits_eq (le_antisymm (hy.le hx) (hx.le hy))
    | infinite hq' _ => exact absurd hq (not_lt.mpr hq')
  | infinite hq hx =>
    cases hy with
    | nearest hq' _ => exact absurd hq' (not_lt.mpr hq)
    | infinite _ hy => rw [hx, hy]

end Binary64

/-- **The value of a numeral** is the number that what it stands for is rounded to, and no other. -/
theorem Numeral.value_eq_iff (n : Numeral) (x : Binary64) :
    n.value = x ↔ Binary64.Rounds n.magnitude x := by
  have hvalue : Binary64.Rounds n.magnitude n.value := Binary64.rounds_ofDecimal _ _
  constructor
  · rintro rfl
    exact hvalue
  · intro hx
    exact hvalue.unique hx

end LoxLexer
