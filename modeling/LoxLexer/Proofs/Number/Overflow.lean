import Mathlib.Tactic.Linarith
import Mathlib.Tactic.NormNum
import Mathlib.Tactic.FieldSimp
import Mathlib.Tactic.Ring
import Mathlib.Algebra.Order.Field.Power
import Mathlib.Data.Rat.Cast.Order
import LoxLexer.Number.Numeral
import LoxLexer.Proofs.Number.Bits

/-!
# Numbers that are too large

The largest finite number is `2 ^ 1024 - 2 ^ 971`, and the next one in the same steps would be `2 ^ 1024`.
What is rounded becomes infinite from the middle between the two on, and stays finite below it, however
small it is and however many digits it has.

* `Binary64.scaleOfRatio_spec`: a ratio has fifty-three binary digits at its scale, or fewer where the scale
  is the least.
* `Binary64.roundQuotient_lt_iff`: what is rounded to less than an even number.
* `Binary64.RoundsTo`, `Binary64.AtScale`: rounding to a whole number, and a number in steps of a scale.
* `Binary64.exists_atScale`: how a ratio is rounded.
* `Binary64.isFinite_ofRatio_iff`, `Binary64.isFinite_ofDecimal_iff`: what is rounded to a finite number.
* `Numeral.isFinite_value_iff`: the numerals whose value is finite.
-/

namespace LoxLexer

/-- The least magnitude that is rounded to infinity. -/
def overflow : ℚ :=
  2 ^ 1024 - 2 ^ 970

namespace Binary64

/-! ## §1 The scale -/

theorem cast_twoTo (n : Nat) : (twoTo n : ℚ) = 2 ^ (n : ℤ) := by
  rw [twoTo, zpow_natCast]
  exact Nat.cast_pow 2 n

theorem cast_tenTo (n : Nat) : (tenTo n : ℚ) = 10 ^ (n : ℤ) := by
  rw [tenTo, zpow_natCast]
  exact Nat.cast_pow 10 n

/-- A positive number is between two neighbouring powers of two. -/
theorem log2_bounds {n : Nat} (h : 0 < n) :
    (2 : ℚ) ^ (n.log2 : ℤ) ≤ n ∧ (n : ℚ) < 2 ^ ((n.log2 : ℤ) + 1) := by
  have hne : n ≠ 0 := Nat.pos_iff_ne_zero.mp h
  have hlower : 2 ^ n.log2 ≤ n := Nat.log2_self_le hne
  have hupper : n < 2 ^ (n.log2 + 1) := Nat.lt_log2_self
  constructor
  · rw [zpow_natCast]
    exact_mod_cast hlower
  · have hcast : (2 : ℚ) ^ ((n.log2 : ℤ) + 1) = 2 ^ (n.log2 + 1) := by
      rw [← zpow_natCast]
      norm_num
    rw [hcast]
    exact_mod_cast hupper

variable {num den : Nat}

/-- A ratio is between two powers of two that are two apart. -/
theorem ratio_bounds (hnum : 0 < num) (hden : 0 < den) :
    (2 : ℚ) ^ ((num.log2 : ℤ) - den.log2 - 1) < num / den ∧
      (num : ℚ) / den < 2 ^ ((num.log2 : ℤ) - den.log2 + 1) := by
  obtain ⟨hnum₁, hnum₂⟩ := log2_bounds hnum
  obtain ⟨hden₁, hden₂⟩ := log2_bounds hden
  have hpos : (0 : ℚ) < den := Nat.cast_pos.mpr hden
  have htwo : (2 : ℚ) ≠ 0 := two_ne_zero
  constructor
  · rw [lt_div_iff₀ hpos]
    calc (2 : ℚ) ^ ((num.log2 : ℤ) - den.log2 - 1) * den
        < 2 ^ ((num.log2 : ℤ) - den.log2 - 1) * 2 ^ ((den.log2 : ℤ) + 1) := by gcongr
      _ = 2 ^ (num.log2 : ℤ) := by
          rw [← zpow_add₀ htwo]
          congr 1
          ring
      _ ≤ num := hnum₁
  · rw [div_lt_iff₀ hpos]
    calc (num : ℚ) < 2 ^ ((num.log2 : ℤ) + 1) := hnum₂
      _ = 2 ^ ((num.log2 : ℤ) - den.log2 + 1) * 2 ^ (den.log2 : ℤ) := by
          rw [← zpow_add₀ htwo]
          congr 1
          ring
      _ ≤ 2 ^ ((num.log2 : ℤ) - den.log2 + 1) * den := by gcongr

/-- A ratio against a power of two, without fractions. -/
theorem lt_zpow_iff (num : Nat) (hden : 0 < den) (k : ℤ) :
    (num : ℚ) / den < 2 ^ k ↔
      (if 0 ≤ k then decide (num < den * twoTo k.toNat)
        else decide (num * twoTo (-k).toNat < den)) = true := by
  have hpos : (0 : ℚ) < den := Nat.cast_pos.mpr hden
  rw [div_lt_iff₀ hpos]
  split
  · next hk =>
    rw [decide_eq_true_iff, ← Nat.cast_lt (α := ℚ), Nat.cast_mul, cast_twoTo, Int.toNat_of_nonneg hk,
      mul_comm]
  · next hk =>
    have hk' : 0 ≤ -k := by omega
    have hpow : (0 : ℚ) < 2 ^ k := zpow_pos two_pos k
    rw [decide_eq_true_iff, ← Nat.cast_lt (α := ℚ), Nat.cast_mul, cast_twoTo, Int.toNat_of_nonneg hk',
      zpow_neg, ← div_eq_mul_inv, div_lt_iff₀ hpow, mul_comm]

/-- **The scale of a ratio**: at it the ratio has no more than fifty-three binary digits, and no fewer
unless the scale is the least. -/
theorem scaleOfRatio_spec (hnum : 0 < num) (hden : 0 < den) :
    -1074 ≤ scaleOfRatio num den ∧
      (num : ℚ) / den < 2 ^ (scaleOfRatio num den + 53) ∧
        (-1074 < scaleOfRatio num den → (2 : ℚ) ^ (scaleOfRatio num den + 52) ≤ num / den) := by
  obtain ⟨hlower, hupper⟩ := ratio_bounds hnum hden
  have hbelow := lt_zpow_iff num hden ((num.log2 : ℤ) - den.log2)
  have hmono : ∀ {a b : ℤ}, a ≤ b → (2 : ℚ) ^ a ≤ 2 ^ b := fun h => zpow_le_zpow_right₀ one_le_two h
  by_cases h : (num : ℚ) / den < 2 ^ ((num.log2 : ℤ) - den.log2)
  · have hscale : scaleOfRatio num den = max ((num.log2 : ℤ) - den.log2 - 53) (-1074) := by
      rw [scaleOfRatio]
      simp only [if_pos (hbelow.mp h)]
    rw [hscale]
    refine ⟨le_max_right _ _, h.trans_le (hmono (by omega)), ?_⟩
    intro hleast
    exact (hmono (by omega)).trans hlower.le
  · have hscale : scaleOfRatio num den = max ((num.log2 : ℤ) - den.log2 - 52) (-1074) := by
      rw [scaleOfRatio]
      simp only [if_neg fun hb => h (hbelow.mpr hb)]
    rw [hscale]
    refine ⟨le_max_right _ _, hupper.trans_le (hmono (by omega)), ?_⟩
    intro hleast
    exact (hmono (by omega)).trans (not_lt.mp h)

/-! ## §2 Rounding -/

/-- **What is rounded to less than an even number** lies below the middle between it and the number before
it, since the middle itself would go to the even one. -/
theorem roundQuotient_lt_iff {n d E : Nat} (hd : 0 < d) (hE : E % 2 = 0) (hpos : 0 < E) :
    roundQuotient n d < E ↔ 2 * n < (2 * E - 1) * d := by
  have hn : d * (n / d) + n % d = n := Nat.div_add_mod n d
  have hr : n % d < d := Nat.mod_lt n hd
  simp only [roundQuotient, Bool.or_eq_true, Bool.and_eq_true, decide_eq_true_eq, beq_iff_eq]
  generalize n / d = q at hn ⊢
  generalize n % d = r at hn hr ⊢
  obtain rfl := hn
  have hodd : (2 * E - 1) * d + d = 2 * (d * E) := by
    rw [← Nat.succ_mul, Nat.succ_eq_add_one, Nat.sub_add_cancel (by omega)]
    ring
  generalize (2 * E - 1) * d = bound at hodd ⊢
  rcases Nat.lt_trichotomy (q + 1) E with hq | rfl | hq
  · -- even the next number is below
    have hmul : d * (q + 2) ≤ d * E := Nat.mul_le_mul_left d hq
    rw [Nat.mul_add] at hmul
    constructor
    · intro _
      omega
    · intro _
      split <;> omega
  · -- the number itself is odd, and so the middle goes up
    have hsucc : d * (q + 1) = d * q + d := Nat.mul_succ d q
    split <;> omega
  · have hmul : d * E ≤ d * q := Nat.mul_le_mul_left d (by omega)
    constructor
    · intro h
      split at h <;> omega
    · intro h
      omega

/-- What is rounded to less than an even number, as a ratio. -/
theorem roundQuotient_lt_iff_div {n d E : Nat} (hd : 0 < d) (hE : E % 2 = 0) (hpos : 0 < E) :
    roundQuotient n d < E ↔ (n : ℚ) / d < E - 1 / 2 := by
  have hd' : (0 : ℚ) < d := Nat.cast_pos.mpr hd
  have hcast : (((2 * E - 1) * d : Nat) : ℚ) = 2 * ((E - 1 / 2) * d) := by
    rw [Nat.cast_mul, Nat.cast_sub (by omega)]
    push_cast
    ring
  rw [roundQuotient_lt_iff hd hE hpos, div_lt_iff₀ hd', ← Nat.cast_lt (α := ℚ), hcast, Nat.cast_mul,
    Nat.cast_ofNat]
  exact mul_lt_mul_iff_right₀ two_pos

/-- **The whole number that a number is rounded to**: one of those that are nearest, and the even one where
there are two. -/
structure RoundsTo (u : ℚ) (r : Nat) : Prop where
  near : |(r : ℚ) - u| ≤ 1 / 2
  even : |(r : ℚ) - u| = 1 / 2 → r % 2 = 0

theorem roundsTo_roundQuotient (n : Nat) {d : Nat} (hd : 0 < d) :
    RoundsTo (n / d) (roundQuotient n d) := by
  have hd' : (0 : ℚ) < d := Nat.cast_pos.mpr hd
  have hn : ((d * (n / d) + n % d : Nat) : ℚ) = n := congrArg Nat.cast (Nat.div_add_mod n d)
  have hr : n % d < d := Nat.mod_lt n hd
  simp only [roundQuotient, Bool.or_eq_true, Bool.and_eq_true, decide_eq_true_eq, beq_iff_eq]
  generalize n / d = q at hn ⊢
  generalize n % d = r at hn hr ⊢
  -- what is cut off is a fraction, to be compared with one half
  have hfraction : (n : ℚ) / d = q + r / d := by
    rw [← hn]
    push_cast
    field_simp
  have hlt : (r : ℚ) / d < 1 / 2 ↔ 2 * r < d := by
    rw [div_lt_div_iff₀ hd' two_pos, ← Nat.cast_lt (α := ℚ), Nat.cast_mul, Nat.cast_ofNat, one_mul,
      mul_comm]
  have heq : (r : ℚ) / d = 1 / 2 ↔ 2 * r = d := by
    rw [div_eq_div_iff hd'.ne' two_ne_zero, ← Nat.cast_inj (R := ℚ), Nat.cast_mul, Nat.cast_ofNat,
      one_mul, mul_comm]
  have hpos : (0 : ℚ) ≤ r / d := div_nonneg r.cast_nonneg hd'.le
  have hone : (r : ℚ) / d < 1 := (div_lt_one₀ hd').mpr (Nat.cast_lt.mpr hr)
  rw [hfraction]
  generalize (r : ℚ) / d = f at *
  split
  · next h =>
    have hdist : |(q : ℚ) - (q + f)| = f := by
      rw [sub_add_cancel_left, abs_neg, abs_of_nonneg hpos]
    rw [← hlt, ← heq] at h
    constructor
    · rw [hdist]
      rcases h with h | ⟨h, -⟩ <;> linarith
    · rw [hdist]
      rintro rfl
      rcases h with h | ⟨-, h⟩
      · exact absurd h (lt_irrefl _)
      · exact h
  · next h =>
    have hdist : |((q + 1 : Nat) : ℚ) - (q + f)| = 1 - f := by
      rw [Nat.cast_succ, add_sub_add_left_eq_sub, abs_of_nonneg (by linarith)]
    rw [not_or, ← hlt, ← heq, not_lt] at h
    constructor
    · rw [hdist]
      linarith
    · rw [hdist]
      intro hhalf
      have hodd : ¬ q % 2 = 0 := fun heven => h.2 ⟨by linarith, heven⟩
      omega

namespace RoundsTo

variable {u : ℚ} {r : Nat}

theorem le_of_lt (h : RoundsTo u r) {N : Nat} (hu : u < N) : r ≤ N := by
  have hupper := (abs_le.mp h.near).2
  have hlt : (r : ℚ) < (N + 1 : Nat) := by
    rw [Nat.cast_succ]
    linarith
  exact Nat.lt_succ_iff.mp (Nat.cast_lt.mp hlt)

theorem le_of_le (h : RoundsTo u r) {N : Nat} (hu : (N : ℚ) ≤ u) : N ≤ r := by
  have hlower := (abs_le.mp h.near).1
  have hlt : (N : ℚ) < (r + 1 : Nat) := by
    rw [Nat.cast_succ]
    linarith
  exact Nat.lt_succ_iff.mp (Nat.cast_lt.mp hlt)

end RoundsTo

/-- **A number in steps of a scale**: it has no more than fifty-three binary digits before the point, and no
fewer unless the scale is the least. -/
structure AtScale (q : ℚ) (s : ℤ) (u : ℚ) : Prop where
  least : -1074 ≤ s
  eq : q = u * 2 ^ s
  lt : u < 2 ^ 53
  full : -1074 < s → 2 ^ 52 ≤ u

/-- The steps of a number at some scale: its ratio in units of the scale, rounded. -/
theorem exists_steps (num : Nat) (hden : 0 < den) (s : ℤ) :
    ∃ n d : Nat, 0 < d ∧ (n : ℚ) / d = num / den / 2 ^ s ∧
      (if 0 ≤ s then roundQuotient num (den * twoTo s.toNat)
        else roundQuotient (num * twoTo (-s).toNat) den) = roundQuotient n d := by
  split
  · next hs =>
    refine ⟨num, den * twoTo s.toNat, Nat.mul_pos hden (twoTo_pos _), ?_, rfl⟩
    rw [Nat.cast_mul, cast_twoTo, Int.toNat_of_nonneg hs, div_div]
  · next hs =>
    refine ⟨num * twoTo (-s).toNat, den, hden, ?_, rfl⟩
    rw [Nat.cast_mul, cast_twoTo, Int.toNat_of_nonneg (by omega), zpow_neg]
    ring

/-- **How a ratio is rounded**: in steps of its scale, and up to infinity. -/
theorem exists_atScale (hnum : 0 < num) (hden : 0 < den) : ∃ (s : ℤ) (n d : Nat), 0 < d ∧
    AtScale (num / den) s (n / d) ∧
      ofRatio num den =
        ofMagnitude false (min ((s + 1074).toNat * 2 ^ 52 + roundQuotient n d) infinityMagnitude) := by
  have h52 : twoTo 52 = 2 ^ 52 := rfl
  obtain ⟨hleast, hupper, hlower⟩ := scaleOfRatio_spec hnum hden
  obtain ⟨n, d, hd, hratio, hsteps⟩ := exists_steps num hden (scaleOfRatio num den)
  refine ⟨scaleOfRatio num den, n, d, hd, ?_, ?_⟩
  · generalize scaleOfRatio num den = s at *
    have hscale : (0 : ℚ) < 2 ^ s := zpow_pos two_pos s
    have hunits : ∀ k : ℤ, (2 : ℚ) ^ (s + k) = 2 ^ k * 2 ^ s := fun k => by
      rw [zpow_add₀ two_ne_zero, mul_comm]
    rw [hunits, ← div_lt_iff₀ hscale, ← hratio, zpow_ofNat] at hupper
    rw [hunits, ← le_div_iff₀ hscale, ← hratio, zpow_ofNat] at hlower
    exact ⟨hleast, by rw [hratio, div_mul_cancel₀ _ hscale.ne'], hupper, hlower⟩
  · rw [ofRatio, if_neg (Nat.pos_iff_ne_zero.mp hnum)]
    simp only [hsteps, h52]

/-- A magnitude is finite below the bits of infinity. -/
theorem isFinite_ofMagnitude_iff {m : Nat} (h : m ≤ infinityMagnitude) :
    (ofMagnitude false m).isFinite = true ↔ m < infinityMagnitude := by
  have hbits := toNat_bits_ofMagnitude h
  rw [infinityMagnitude_eq] at h ⊢
  rw [isFinite_iff, exponentField_eq, hbits]
  omega

/-- What is cut off at infinity is finite below it. -/
theorem isFinite_ofMagnitude_min_iff (m : Nat) :
    (ofMagnitude false (min m infinityMagnitude)).isFinite = true ↔ m < infinityMagnitude := by
  rw [isFinite_ofMagnitude_iff (Nat.min_le_right _ _), min_lt_iff, or_iff_left (lt_irrefl _)]

theorem one_le_overflow : 1 ≤ overflow := by
  have hone : (1 : ℚ) ≤ 2 ^ 970 := one_le_pow₀ one_le_two
  calc (1 : ℚ) ≤ 2 ^ 970 := hone
    _ ≤ 2 ^ 970 * (2 ^ 54 - 1) := le_mul_of_one_le_right (by positivity) (by norm_num)
    _ = overflow := by rw [overflow, mul_sub, mul_one, ← pow_add]

theorem overflow_pos : 0 < overflow :=
  one_pos.trans_le one_le_overflow

/-- In the steps of the largest finite numbers, infinity begins half a step below the power of two. -/
theorem overflow_eq : overflow = (2 ^ 53 - 1 / 2) * 2 ^ (971 : ℤ) := by
  have h : (2 : ℚ) ^ (971 : ℤ) = 2 * 2 ^ 970 := by
    rw [← pow_succ']
    exact zpow_natCast 2 971
  rw [overflow, h, show (1024 : Nat) = 54 + 970 from rfl, pow_add]
  generalize (2 : ℚ) ^ 970 = p
  ring

/-- Below the scale of the largest numbers there is room for all digits, and none above it. -/
theorem mul_zpow_lt_overflow_iff {q : ℚ} {s : ℤ} (hq : q < 2 ^ 53) (hfull : -1074 < s → 2 ^ 52 ≤ q) :
    q * 2 ^ s < overflow ↔ s < 971 ∨ s = 971 ∧ q < 2 ^ 53 - 1 / 2 := by
  have hscale : (0 : ℚ) < 2 ^ s := zpow_pos two_pos s
  have hunit : (0 : ℚ) < 2 ^ (971 : ℤ) := zpow_pos two_pos 971
  have hdouble : ∀ {a b : ℤ}, a < b → (2 : ℚ) ^ a * 2 ≤ 2 ^ b := by
    intro a b hab
    rw [← zpow_add_one₀ two_ne_zero]
    exact zpow_le_zpow_right₀ one_le_two hab
  rw [overflow_eq]
  rcases lt_trichotomy s 971 with hs | rfl | hs
  · refine iff_of_true ?_ (.inl hs)
    calc q * 2 ^ s < 2 ^ 53 * 2 ^ s := mul_lt_mul_of_pos_right hq hscale
      _ = 2 ^ 52 * (2 ^ s * 2) := by ring
      _ ≤ 2 ^ 52 * 2 ^ (971 : ℤ) := mul_le_mul_of_nonneg_left (hdouble hs) (by norm_num)
      _ ≤ (2 ^ 53 - 1 / 2) * 2 ^ (971 : ℤ) := mul_le_mul_of_nonneg_right (by norm_num) hunit.le
  · rw [mul_lt_mul_iff_left₀ hunit]
    simp
  · have hlarge : ∀ u : ℚ, 2 ^ 53 * u = 2 ^ 52 * (u * 2) := fun u => by ring
    refine iff_of_false (not_lt.mpr ?_) (by omega)
    calc (2 ^ 53 - 1 / 2) * (2 : ℚ) ^ (971 : ℤ) ≤ 2 ^ 53 * 2 ^ (971 : ℤ) :=
          mul_le_mul_of_nonneg_right (by norm_num) hunit.le
      _ = 2 ^ 52 * (2 ^ (971 : ℤ) * 2) := hlarge _
      _ ≤ 2 ^ 52 * 2 ^ s := mul_le_mul_of_nonneg_left (hdouble hs) (by norm_num)
      _ ≤ q * 2 ^ s := mul_le_mul_of_nonneg_right (hfull (by omega)) hscale.le

/-- **A ratio is rounded to a finite number** exactly if it is less than the least that overflows. -/
theorem isFinite_ofRatio_iff (num : Nat) (hden : 0 < den) :
    (ofRatio num den).isFinite = true ↔ (num : ℚ) / den < overflow := by
  rcases Nat.eq_zero_or_pos num with rfl | hnum
  · simpa [ofRatio] using ⟨fun _ => overflow_pos, fun _ => rfl⟩
  obtain ⟨s, n, d, hd, hsteps, hround⟩ := exists_atScale hnum hden
  have hleast := hsteps.least
  have hmost : roundQuotient n d ≤ 2 ^ 53 :=
    (roundsTo_roundQuotient n hd).le_of_lt (by exact_mod_cast hsteps.lt)
  have hfull : -1074 < s → 2 ^ 52 ≤ roundQuotient n d := fun hs =>
    (roundsTo_roundQuotient n hd).le_of_le (by exact_mod_cast hsteps.full hs)
  rw [hround, isFinite_ofMagnitude_min_iff, infinityMagnitude_eq]
  have hroom : (s + 1074).toNat * 2 ^ 52 + roundQuotient n d < 2047 * 2 ^ 52 ↔
      s < 971 ∨ s = 971 ∧ roundQuotient n d < 2 ^ 53 := by omega
  rw [hroom, roundQuotient_lt_iff_div hd (by decide) (by decide), hsteps.eq,
    mul_zpow_lt_overflow_iff hsteps.lt hsteps.full, Nat.cast_pow, Nat.cast_ofNat]

/-! ## §3 Decimals -/

/-- A decimal that counts in tens is a whole number. -/
theorem ratio_of_nonneg (m : Nat) {e : ℤ} (he : 0 ≤ e) :
    ((m * tenTo e.toNat : Nat) : ℚ) / (1 : Nat) = m * 10 ^ e := by
  rw [Nat.cast_mul, cast_tenTo, Int.toNat_of_nonneg he, Nat.cast_one, div_one]

/-- A decimal that counts in tenths is a ratio. -/
theorem ratio_of_neg (m : Nat) {e : ℤ} (he : e < 0) : (m : ℚ) / tenTo (-e).toNat = m * 10 ^ e := by
  rw [cast_tenTo, Int.toNat_of_nonneg (by omega), zpow_neg, div_inv_eq_mul]

/-- What is so large that no power of ten is formed does overflow. -/
theorem overflow_le_zpow {e : ℤ} (h : 310 ≤ e) : overflow ≤ 10 ^ e := by
  have hnat : 2 ^ 1024 ≤ 10 ^ 310 := by decide +kernel
  have hcast : (2 : ℚ) ^ 1024 ≤ 10 ^ 310 := by exact_mod_cast hnat
  calc overflow ≤ 2 ^ 1024 := sub_le_self _ (by positivity)
    _ ≤ 10 ^ 310 := hcast
    _ = 10 ^ (310 : ℤ) := (zpow_natCast 10 310).symm
    _ ≤ 10 ^ e := zpow_le_zpow_right₀ (by norm_num) h

/-- What is so small that no power of ten is formed: a power of ten below one is less than that of eight. -/
theorem mul_zpow_lt {m : Nat} (hm : 0 < m) {e : ℤ} (h : (m.log2 : ℤ) + 1 + 3 * e < -1075) :
    (m : ℚ) * 10 ^ e < 2 ^ (-1075 : ℤ) := by
  obtain ⟨k, rfl⟩ : ∃ k : Nat, e = -k := ⟨(-e).toNat, by omega⟩
  have height : (10 : ℚ) ^ (-k : ℤ) ≤ 2 ^ (3 * -k : ℤ) := by
    rw [zpow_mul, zpow_neg, zpow_neg, zpow_natCast, zpow_natCast]
    apply inv_anti₀ (by positivity)
    apply pow_le_pow_left₀ (by positivity)
    norm_num
  calc (m : ℚ) * 10 ^ (-k : ℤ) < 2 ^ ((m.log2 : ℤ) + 1) * 10 ^ (-k : ℤ) := by
        gcongr
        exact (log2_bounds hm).2
    _ ≤ 2 ^ ((m.log2 : ℤ) + 1) * 2 ^ (3 * -k : ℤ) := by gcongr
    _ = 2 ^ ((m.log2 : ℤ) + 1 + 3 * -k) := (zpow_add₀ two_ne_zero _ _).symm
    _ ≤ 2 ^ (-1075 : ℤ) := zpow_le_zpow_right₀ one_le_two (by omega)

/-- **A decimal is rounded to a finite number** exactly if it is less than the least that overflows. -/
theorem isFinite_ofDecimal_iff (m : Nat) (e : ℤ) :
    (ofDecimal m e).isFinite = true ↔ (m : ℚ) * 10 ^ e < overflow := by
  have hten : (0 : ℚ) < 10 ^ e := zpow_pos (by norm_num) e
  unfold ofDecimal
  split_ifs with hm hlarge hsmall he
  · simpa [hm] using ⟨fun _ => overflow_pos, fun _ => rfl⟩
  · have hmany : (1 : ℚ) ≤ m := Nat.one_le_cast.mpr (Nat.pos_iff_ne_zero.mpr hm)
    have hinfinity : infinity.isFinite = false := rfl
    refine iff_of_false (by simp [hinfinity]) (not_lt.mpr ?_)
    exact (overflow_le_zpow hlarge).trans (le_mul_of_one_le_left hten.le hmany)
  · refine iff_of_true rfl ?_
    have hone : (2 : ℚ) ^ (-1075 : ℤ) ≤ 1 := zpow_le_one_of_nonpos₀ one_le_two (by decide)
    exact (mul_zpow_lt (Nat.pos_iff_ne_zero.mpr hm) hsmall).trans_le (hone.trans one_le_overflow)
  · rw [isFinite_ofRatio_iff _ Nat.one_pos, ratio_of_nonneg m he]
  · rw [isFinite_ofRatio_iff _ (tenTo_pos _), ratio_of_neg m (not_le.mp he)]

end Binary64

/-! ## §4 Numerals -/

namespace Numeral

/-- The rational number that a numeral stands for. -/
def magnitude (n : Numeral) : ℚ :=
  let fraction := n.fraction.getD []
  let exponent : ℤ := match n.exponent with | none => 0 | some x => x.value
  digitsValue (digitsValue 0 n.whole) fraction * 10 ^ (exponent - fraction.length)

/-- **The value of a numeral is finite** exactly if the number that it stands for is less than the least
that overflows. -/
theorem isFinite_value_iff (n : Numeral) : n.value.isFinite = true ↔ n.magnitude < overflow :=
  Binary64.isFinite_ofDecimal_iff _ _

end Numeral

end LoxLexer
