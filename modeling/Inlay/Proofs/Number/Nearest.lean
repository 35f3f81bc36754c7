import Mathlib.Algebra.Order.Archimedean.Basic
import Mathlib.Algebra.Order.Field.Power
import Mathlib.Tactic.FieldSimp
import Mathlib.Tactic.Linarith
import Mathlib.Tactic.Positivity
import Mathlib.Tactic.Ring
import Inlay.Number.Binary64

set_option autoImplicit false

/-! # Rounding to the nearest number

A ratio becomes the number of the format that is nearest to it, and of two that are equally near the
one whose mantissa is even (`ofRatio_nearest`); so does an integer (`ofInt_nearest`). A ratio too
large for the format becomes infinite. For this an infinite number counts as the power of two that
would come after the finite numbers, and as even.

At its exponent a ratio is a number of steps, rounded to a whole number `m` of them. A number with a
larger exponent is a whole number of these steps as well, so it is no nearer. One with a smaller
exponent is at most `2 ^ 52` steps, which the ratio is not below.
-/

namespace Inlay

namespace Binary64

/-! ## Values -/

/-- A magnitude with a sign. -/
def signed (negative : Bool) (x : ℚ) : ℚ := if negative then -x else x

/-- The value of a number; an infinite one counts as the power of two after all finite ones. -/
def toRat : Binary64 → ℚ
  | .nan => 0
  | .infinite negative => signed negative (2 ^ 53 * 2 ^ (971 : ℤ))
  | .finite negative m e => signed negative (m * 2 ^ e)

/-- Whether the sign is that of negative numbers. -/
def isNegative : Binary64 → Bool
  | .nan => false
  | .infinite negative => negative
  | .finite negative _ _ => negative

/-- Whether the mantissa is even. -/
def isEven : Binary64 → Bool
  | .finite _ m _ => m % 2 == 0
  | _ => true

/-- Whether this is a number of the format, in its canonical form if it is finite. -/
def IsNumber : Binary64 → Prop
  | .nan => False
  | .infinite _ => True
  | .finite _ m e => m < 2 ^ 53 ∧ -1074 ≤ e ∧ e ≤ 971 ∧ (2 ^ 52 ≤ m ∨ e = -1074)

/-- Whether a number is what a value is rounded to. -/
structure IsNearest (n : Binary64) (x : ℚ) : Prop where
  number : n.IsNumber
  /-- No other number is nearer. -/
  nearest : ∀ n' : Binary64, n'.IsNumber → |n.toRat - x| ≤ |n'.toRat - x|
  /-- One that is as near as another one is even. -/
  even : ∀ n' : Binary64, n'.IsNumber → n'.toRat ≠ n.toRat →
    |n'.toRat - x| = |n.toRat - x| → n.isEven = true

theorem signed_signed (negative : Bool) (x : ℚ) : signed negative (signed negative x) = x := by
  cases negative with
  | true => exact neg_neg x
  | false => rfl

theorem abs_signed_sub (negative : Bool) (x y : ℚ) :
    |signed negative x - signed negative y| = |x - y| := by
  cases negative with
  | true => exact (congrArg abs (neg_sub_neg x y)).trans (abs_sub_comm y x)
  | false => rfl

/-- A number is a whole number of steps of some size. -/
theorem IsNumber.steps {n : Binary64} (h : n.IsNumber) (negative : Bool) :
    ∃ (k e : ℤ), signed negative n.toRat = k * 2 ^ e ∧ k ≤ 2 ^ 53 ∧ -1074 ≤ e ∧ e ≤ 971 := by
  have hsteps (sign : Bool) (m : ℕ) (e : ℤ) (hm : m ≤ 2 ^ 53) :
      ∃ k : ℤ, signed negative (signed sign (m * 2 ^ e)) = k * 2 ^ e ∧ k ≤ 2 ^ 53 := by
    have hle : (m : ℤ) ≤ 2 ^ 53 := by exact_mod_cast hm
    have hneg : -(m : ℤ) ≤ 2 ^ 53 := by omega
    unfold signed
    cases negative <;> cases sign
    · exact ⟨m, by simp, hle⟩
    · exact ⟨-m, by simp, hneg⟩
    · exact ⟨-m, by simp, hneg⟩
    · exact ⟨m, by simp, hle⟩
  cases n with
  | nan => exact h.elim
  | infinite sign =>
      obtain ⟨k, hk, hle⟩ := hsteps sign (2 ^ 53) 971 (Nat.le_refl _)
      rw [Nat.cast_pow, Nat.cast_ofNat] at hk
      exact ⟨k, 971, hk, hle, by decide, by decide⟩
  | finite sign m e =>
      obtain ⟨hm, hlow, hhigh, -⟩ := h
      obtain ⟨k, hk, hle⟩ := hsteps sign m e hm.le
      exact ⟨k, e, hk, hle, hlow, hhigh⟩

/-! ## Whole numbers -/

/-- A quotient is rounded to a whole number that is at most a half away, and even if it is just a
half. -/
theorem roundedQuotient_spec (num : ℕ) {den : ℕ} (hd : 0 < den) :
    |(roundedQuotient num den : ℚ) - num / den| ≤ 1 / 2 ∧
      (|(roundedQuotient num den : ℚ) - num / den| = 1 / 2 → roundedQuotient num den % 2 = 0) := by
  have hd' : (0 : ℚ) < den := by exact_mod_cast hd
  have hquotient : (num : ℚ) / den = (num / den : ℕ) + ((num % den : ℕ) : ℚ) / den := by
    have h : (num : ℚ) = den * (num / den : ℕ) + (num % den : ℕ) := by
      exact_mod_cast (Nat.div_add_mod num den).symm
    field_simp
    linarith
  have hlow : (0 : ℚ) ≤ ((num % den : ℕ) : ℚ) / den := by positivity
  have hhigh : ((num % den : ℕ) : ℚ) / den < 1 := by
    rw [div_lt_one hd']
    exact_mod_cast Nat.mod_lt num hd
  -- the remainder is compared with half of the denominator
  have hless : 2 * (num % den) < den ↔ ((num % den : ℕ) : ℚ) / den < 1 / 2 := by
    rw [div_lt_iff₀ hd', ← Nat.cast_lt (α := ℚ)]
    push_cast
    constructor <;> intro h <;> linarith
  have hmore : den < 2 * (num % den) ↔ 1 / 2 < ((num % den : ℕ) : ℚ) / den := by
    rw [lt_div_iff₀ hd', ← Nat.cast_lt (α := ℚ)]
    push_cast
    constructor <;> intro h <;> linarith
  rw [hquotient]
  unfold roundedQuotient
  dsimp only
  rw [if_congr hless rfl (if_congr hmore rfl rfl)]
  generalize ((num % den : ℕ) : ℚ) / den = t at hlow hhigh
  generalize num / den = q
  by_cases h₁ : t < 1 / 2
  · rw [if_pos h₁, sub_add_cancel_left, abs_neg, abs_of_nonneg hlow]
    exact ⟨h₁.le, fun h => absurd h h₁.ne⟩
  · rw [if_neg h₁]
    by_cases h₂ : 1 / 2 < t
    · have habs : |((q + 1 : ℕ) : ℚ) - (q + t)| = 1 - t := by
        rw [Nat.cast_add_one, add_sub_add_left_eq_sub, abs_of_pos (sub_pos.mpr hhigh)]
      rw [if_pos h₂, habs]
      exact ⟨by linarith, fun h => by linarith⟩
    · obtain rfl : t = 1 / 2 := le_antisymm (not_lt.mp h₂) (not_lt.mp h₁)
      rw [if_neg h₂]
      have heven : (q + q % 2) % 2 = 0 := by omega
      have habs : |((q + q % 2 : ℕ) : ℚ) - (q + 1 / 2)| = 1 / 2 := by
        rw [Nat.cast_add, add_sub_add_left_eq_sub]
        rcases Nat.mod_two_eq_zero_or_one q with h | h <;> rw [h] <;> norm_num [abs_of_pos]
      exact ⟨habs.le, fun _ => heven⟩

/-- Nothing whole is nearer than a whole number that is at most a half away. -/
theorem abs_sub_le_of_half {m k : ℤ} {y : ℚ} (h : |(m : ℚ) - y| ≤ 1 / 2) (hk : k ≠ m) :
    1 / 2 ≤ |(k : ℚ) - y| := by
  have hone : (1 : ℚ) ≤ |(k : ℚ) - m| := by
    exact_mod_cast Int.one_le_abs (sub_ne_zero.mpr hk)
  have htriangle : |(k : ℚ) - m| ≤ |(k : ℚ) - y| + |y - m| := abs_sub_le _ _ _
  rw [abs_sub_comm y] at htriangle
  linarith

/-! ## Steps -/

section Steps

variable {x : ℚ} {m : ℕ} {e : ℤ}

/-- A whole number of steps is no nearer than the rounded one, and if another one is as near, the
ratio lies halfway between two. -/
theorem nearest_steps (hhalf : |(m : ℚ) - x / 2 ^ e| ≤ 1 / 2) (j : ℤ) :
    |m * 2 ^ e - x| ≤ |j * 2 ^ e - x| ∧
      (|(j : ℚ) * 2 ^ e - x| = |m * 2 ^ e - x| → (j : ℚ) * 2 ^ e ≠ m * 2 ^ e →
        |(m : ℚ) - x / 2 ^ e| = 1 / 2) := by
  have hpos : (0 : ℚ) < 2 ^ e := by positivity
  have hscale (a : ℚ) : |a * 2 ^ e - x| = |a - x / 2 ^ e| * 2 ^ e := by
    rw [← abs_of_pos hpos, ← abs_mul, abs_of_pos hpos, sub_mul, div_mul_cancel₀ x hpos.ne']
  rw [hscale, hscale, mul_le_mul_iff_of_pos_right hpos, mul_left_inj' hpos.ne']
  by_cases hj : j = m
  · subst hj
    exact ⟨le_refl _, fun _ hne => absurd rfl hne⟩
  · have hfar := abs_sub_le_of_half (m := m) hhalf hj
    exact ⟨hhalf.trans hfar, fun heq _ => le_antisymm hhalf (heq ▸ hfar)⟩

/-- Nothing of the format is nearer than the rounded number of steps. -/
theorem nearest_number (hhalf : |(m : ℚ) - x / 2 ^ e| ≤ 1 / 2)
    (hlow : 2 ^ 52 * 2 ^ e ≤ x ∨ e = -1074) {k e' : ℤ} (hk : k ≤ 2 ^ 53) (he' : -1074 ≤ e') :
    |m * 2 ^ e - x| ≤ |k * 2 ^ e' - x| ∧
      (|(k : ℚ) * 2 ^ e' - x| = |m * 2 ^ e - x| → (k : ℚ) * 2 ^ e' ≠ m * 2 ^ e →
        |(m : ℚ) - x / 2 ^ e| = 1 / 2) := by
  rcases le_or_gt e e' with hle | hlt
  · -- larger steps are whole numbers of the smaller ones
    obtain ⟨n, rfl⟩ := Int.le.dest hle
    have hsteps : (k : ℚ) * 2 ^ (e + n) = (k * 2 ^ n : ℤ) * 2 ^ e := by
      rw [zpow_add₀ two_ne_zero, zpow_natCast]
      push_cast
      ring
    rw [hsteps]
    exact nearest_steps hhalf _
  · have hx : 2 ^ 52 * 2 ^ e ≤ x := hlow.resolve_right (by omega)
    have hbelow : (k : ℚ) * 2 ^ e' ≤ 2 ^ 52 * 2 ^ e := by
      have hpow : (2 : ℚ) ^ e' ≤ 2 ^ (e - 1) := zpow_le_zpow_right₀ one_le_two (by omega)
      have hk' : (k : ℚ) ≤ 2 ^ 53 := by exact_mod_cast hk
      calc (k : ℚ) * 2 ^ e' ≤ 2 ^ 53 * 2 ^ e' := mul_le_mul_of_nonneg_right hk' (by positivity)
        _ ≤ 2 ^ 53 * 2 ^ (e - 1) := mul_le_mul_of_nonneg_left hpow (by positivity)
        _ = 2 ^ 52 * 2 ^ e := by
          rw [zpow_sub_one₀ two_ne_zero]
          ring
    -- the least whole number of steps that has a full mantissa lies between the two
    obtain ⟨hnear, htie⟩ := nearest_steps hhalf (2 ^ 52)
    rw [Int.cast_pow, Int.cast_ofNat] at hnear htie
    rw [abs_sub_comm (2 ^ 52 * 2 ^ e) x, abs_of_nonneg (sub_nonneg.mpr hx)] at hnear htie
    have hfar : x - 2 ^ 52 * 2 ^ e ≤ |(k : ℚ) * 2 ^ e' - x| := by
      rw [abs_sub_comm, abs_of_nonneg (sub_nonneg.mpr (hbelow.trans hx))]
      linarith
    refine ⟨hnear.trans hfar, fun heq hne => ?_⟩
    have hsame : x - 2 ^ 52 * 2 ^ e = |m * 2 ^ e - x| := le_antisymm (heq ▸ hfar) hnear
    have hmeet : (k : ℚ) * 2 ^ e' = 2 ^ 52 * 2 ^ e := by
      rw [← hsame, abs_sub_comm, abs_of_nonneg (sub_nonneg.mpr (hbelow.trans hx))] at heq
      linarith
    exact htie hsame (hmeet ▸ hne)

end Steps

/-! ## Exponents -/

theorem scaled_spec (num : ℕ) {den : ℕ} (hd : 0 < den) (e : ℤ) :
    0 < (scaled num den e).2 ∧
      ((scaled num den e).1 : ℚ) / (scaled num den e).2 = num / den / 2 ^ e := by
  unfold scaled
  split
  · rename_i he
    obtain ⟨n, rfl⟩ := Int.eq_ofNat_of_zero_le he
    refine ⟨Nat.mul_pos hd (Nat.pow_pos Nat.two_pos), ?_⟩
    show (num : ℚ) / ((den * 2 ^ n : ℕ) : ℚ) = _
    push_cast
    rw [zpow_natCast, div_div]
  · rename_i he
    obtain ⟨n, hn⟩ := Int.eq_ofNat_of_zero_le (Int.neg_nonneg_of_nonpos (Int.not_le.mp he).le)
    obtain rfl : e = -(n : ℤ) := by omega
    refine ⟨hd, ?_⟩
    rw [neg_neg, Int.toNat_natCast]
    show ((num * 2 ^ n : ℕ) : ℚ) / den = _
    push_cast
    rw [zpow_neg, zpow_natCast, div_inv_eq_mul]
    ring

/-- The logarithms of a ratio are off by less than a factor of two either way. -/
theorem log2_bounds {num den : ℕ} (hn : 0 < num) (hd : 0 < den) :
    (2 : ℚ) ^ ((num.log2 : ℤ) - den.log2 - 1) ≤ num / den ∧
      (num : ℚ) / den < 2 ^ ((num.log2 : ℤ) - den.log2 + 1) := by
  have hbounds {n : ℕ} (h : 0 < n) :
      (2 : ℚ) ^ (n.log2 : ℤ) ≤ n ∧ (n : ℚ) < 2 ^ (n.log2 + 1 : ℤ) := by
    constructor
    · rw [zpow_natCast]
      exact_mod_cast Nat.log2_self_le h.ne'
    · rw [← Nat.cast_add_one, zpow_natCast]
      exact_mod_cast Nat.lt_log2_self (n := n)
  have hd' : (0 : ℚ) < den := by exact_mod_cast hd
  obtain ⟨hnlow, hnhigh⟩ := hbounds hn
  obtain ⟨hdlow, hdhigh⟩ := hbounds hd
  constructor
  · rw [le_div_iff₀ hd']
    calc (2 : ℚ) ^ ((num.log2 : ℤ) - den.log2 - 1) * den
        ≤ 2 ^ ((num.log2 : ℤ) - den.log2 - 1) * 2 ^ (den.log2 + 1 : ℤ) :=
          mul_le_mul_of_nonneg_left hdhigh.le (by positivity)
      _ = 2 ^ (num.log2 : ℤ) := by
          rw [← zpow_add₀ two_ne_zero]
          congr 1
          ring
      _ ≤ num := hnlow
  · rw [div_lt_iff₀ hd']
    calc (num : ℚ) < 2 ^ (num.log2 + 1 : ℤ) := hnhigh
      _ = 2 ^ ((num.log2 : ℤ) - den.log2 + 1) * 2 ^ (den.log2 : ℤ) := by
          rw [← zpow_add₀ two_ne_zero]
          congr 1
          ring
      _ ≤ 2 ^ ((num.log2 : ℤ) - den.log2 + 1) * den :=
          mul_le_mul_of_nonneg_left hdlow (by positivity)

/-- At its exponent a ratio is below `2 ^ 53` steps, and not below `2 ^ 52` of them unless it is the
least exponent. -/
theorem exponentOf_spec {num den : ℕ} (hn : 0 < num) (hd : 0 < den) :
    -1074 ≤ exponentOf num den ∧ (num : ℚ) / den < 2 ^ 53 * 2 ^ exponentOf num den ∧
      (2 ^ 52 * 2 ^ exponentOf num den ≤ (num : ℚ) / den ∨ exponentOf num den = -1074) := by
  obtain ⟨hlow, hhigh⟩ := log2_bounds hn hd
  unfold exponentOf
  dsimp only
  generalize hest : (num.log2 : ℤ) - den.log2 - 53 = estimate
  rw [show (num.log2 : ℤ) - den.log2 - 1 = estimate + 52 by omega, zpow_add₀ two_ne_zero] at hlow
  rw [show (num.log2 : ℤ) - den.log2 + 1 = estimate + 54 by omega, zpow_add₀ two_ne_zero] at hhigh
  have hpow : (0 : ℚ) < 2 ^ estimate := by positivity
  have hless : (scaled num den estimate).1 < (scaled num den estimate).2 * Nat.pow 2 53 ↔
      (num : ℚ) / den < 2 ^ 53 * 2 ^ estimate := by
    obtain ⟨hpos, hscaled⟩ := scaled_spec num hd estimate
    have hpos' : (0 : ℚ) < (scaled num den estimate).2 := by exact_mod_cast hpos
    rw [← div_lt_iff₀ hpow, ← hscaled, div_lt_iff₀ hpos', ← Nat.cast_lt (α := ℚ), mul_comm,
      Nat.pow_eq, Nat.cast_mul, Nat.cast_pow, Nat.cast_ofNat]
  rw [if_congr hless rfl rfl]
  -- before the least exponent is seen to, the ratio has a full mantissa
  obtain ⟨e, he, hfull, hbelow⟩ : ∃ e : ℤ,
      (if (num : ℚ) / den < 2 ^ 53 * 2 ^ estimate then estimate else estimate + 1) = e ∧
        2 ^ 52 * 2 ^ e ≤ (num : ℚ) / den ∧ (num : ℚ) / den < 2 ^ 53 * 2 ^ e := by
    by_cases h : (num : ℚ) / den < 2 ^ 53 * 2 ^ estimate
    · refine ⟨estimate, if_pos h, ?_, h⟩
      rwa [mul_comm]
    · refine ⟨estimate + 1, if_neg h, ?_, ?_⟩
      · rw [zpow_add_one₀ two_ne_zero]
        linarith
      · rw [zpow_add_one₀ two_ne_zero]
        refine hhigh.trans_eq ?_
        norm_num
        ring
  rw [he]
  rcases le_or_gt (-1074) e with hle | hlt
  · rw [max_eq_left hle]
    exact ⟨hle, hbelow, .inl hfull⟩
  · rw [max_eq_right hlt.le]
    refine ⟨le_refl _, hbelow.trans_le ?_, .inr rfl⟩
    exact mul_le_mul_of_nonneg_left (zpow_le_zpow_right₀ one_le_two hlt.le) (by positivity)

/-! ## Ratios -/

theorem ofRatio_eq_ofSteps (negative : Bool) {num den : ℕ} (hn : num ≠ 0) :
    ofRatio negative num den = ofSteps negative (roundedQuotient
      (scaled num den (exponentOf num den)).1 (scaled num den (exponentOf num den)).2)
      (exponentOf num den) := if_neg hn

/-- Steps that are not too large come to a number of their value. -/
theorem ofSteps_spec (negative : Bool) {m : ℕ} {e : ℤ} (hm : m ≤ 2 ^ 53) (hleast : -1074 ≤ e)
    (hfull : 2 ^ 52 ≤ m ∨ e = -1074) (he : e ≤ 971) :
    (ofSteps negative m e).IsNumber ∧ (ofSteps negative m e).toRat = signed negative (m * 2 ^ e) ∧
      (m % 2 = 0 → (ofSteps negative m e).isEven = true) := by
  unfold ofSteps
  simp only [Nat.pow_eq]
  by_cases hcarry : m = 2 ^ 53
  · have hvalue : (2 ^ 53 : ℚ) * 2 ^ e = 2 ^ 52 * 2 ^ (e + 1) := by
      rw [zpow_add_one₀ two_ne_zero]
      ring
    rw [if_pos hcarry]
    subst hcarry
    dsimp only
    by_cases hlast : 971 < e + 1
    · obtain rfl : e = 971 := by omega
      rw [if_pos hlast]
      refine ⟨trivial, ?_, fun _ => rfl⟩
      rw [Nat.cast_pow, Nat.cast_ofNat]
      rfl
    · rw [if_neg hlast]
      refine ⟨⟨by decide, by omega, by omega, .inl (Nat.le_refl _)⟩, ?_, fun _ => by simp [isEven]⟩
      rw [Nat.cast_pow, Nat.cast_ofNat, hvalue, toRat, Nat.cast_pow, Nat.cast_ofNat]
  · rw [if_neg hcarry]
    dsimp only
    rw [if_neg (Int.not_lt.mpr he)]
    exact ⟨⟨by omega, hleast, he, hfull⟩, rfl, fun h => by simpa [isEven] using h⟩

theorem ofSteps_infinite (negative : Bool) (m : ℕ) {e : ℤ} (he : 971 < e) :
    ofSteps negative m e = .infinite negative := by
  unfold ofSteps
  by_cases hm : m = Nat.pow 2 53
  · rw [if_pos hm]
    exact if_pos (he.trans (Int.lt_succ e))
  · rw [if_neg hm]
    exact if_pos he

/-- What is nearest to a magnitude is nearest to it with its sign. -/
theorem isNearest_of_magnitude {n : Binary64} {negative : Bool} {v x : ℚ} (hn : n.IsNumber)
    (hv : n.toRat = signed negative v)
    (h : ∀ (k e : ℤ), k ≤ 2 ^ 53 → -1074 ≤ e → e ≤ 971 → |v - x| ≤ |k * 2 ^ e - x| ∧
      (|(k : ℚ) * 2 ^ e - x| = |v - x| → (k : ℚ) * 2 ^ e ≠ v → n.isEven = true)) :
    n.IsNearest (signed negative x) := by
  have hmagnitude (n' : Binary64) :
      |n'.toRat - signed negative x| = |signed negative n'.toRat - x| := by
    rw [← abs_signed_sub negative, signed_signed]
  refine ⟨hn, fun n' hn' => ?_, fun n' hn' hne heq => ?_⟩
  · obtain ⟨k, e, hk, hle, hlow, hhigh⟩ := hn'.steps negative
    rw [hmagnitude, hmagnitude, hk, hv, signed_signed]
    exact (h k e hle hlow hhigh).1
  · obtain ⟨k, e, hk, hle, hlow, hhigh⟩ := hn'.steps negative
    rw [hmagnitude, hmagnitude, hk, hv, signed_signed] at heq
    refine (h k e hle hlow hhigh).2 heq fun hsame => hne ?_
    rw [hv, ← hsame, ← hk, signed_signed]

/-- All numbers lie below a ratio that is too large, and infinity is the last of them. -/
theorem infinite_nearest (negative : Bool) {x : ℚ} (hx : 2 ^ 53 * 2 ^ (971 : ℤ) ≤ x) :
    (infinite negative).IsNearest (signed negative x) := by
  refine isNearest_of_magnitude trivial rfl fun k e hk _ he => ⟨?_, fun _ _ => rfl⟩
  have hk' : (k : ℚ) ≤ 2 ^ 53 := by exact_mod_cast hk
  have hpow : (2 : ℚ) ^ e ≤ 2 ^ (971 : ℤ) := zpow_le_zpow_right₀ one_le_two he
  have hbelow : (k : ℚ) * 2 ^ e ≤ 2 ^ 53 * 2 ^ (971 : ℤ) :=
    calc (k : ℚ) * 2 ^ e ≤ 2 ^ 53 * 2 ^ e := mul_le_mul_of_nonneg_right hk' (by positivity)
      _ ≤ 2 ^ 53 * 2 ^ (971 : ℤ) := mul_le_mul_of_nonneg_left hpow (by positivity)
  rw [abs_sub_comm _ x, abs_sub_comm _ x, abs_of_nonneg (sub_nonneg.mpr hx),
    abs_of_nonneg (sub_nonneg.mpr (hbelow.trans hx))]
  linarith

section Rounded

variable {x : ℚ} {m : ℕ} {e : ℤ}

/-- A rounded number of steps lies within the same bounds as the ratio. -/
theorem rounded_bounds (hhalf : |(m : ℚ) - x / 2 ^ e| ≤ 1 / 2) (hbelow : x < 2 ^ 53 * 2 ^ e)
    (hlow : 2 ^ 52 * 2 ^ e ≤ x ∨ e = -1074) : m ≤ 2 ^ 53 ∧ (2 ^ 52 ≤ m ∨ e = -1074) := by
  have hpow : (0 : ℚ) < 2 ^ e := by positivity
  obtain ⟨hunder, hover⟩ := abs_le.mp hhalf
  constructor
  · have hy : x / 2 ^ e < 2 ^ 53 := (div_lt_iff₀ hpow).mpr hbelow
    have hm : (m : ℚ) < 2 ^ 53 + 1 := by linarith
    exact Nat.lt_succ_iff.mp (by exact_mod_cast hm)
  · refine hlow.imp_left fun hlow => ?_
    have hy : 2 ^ 52 ≤ x / 2 ^ e := (le_div_iff₀ hpow).mpr hlow
    have hm : (2 ^ 52 : ℚ) < m + 1 := by linarith
    exact Nat.lt_succ_iff.mp (by exact_mod_cast hm)

/-- A rounded number of steps comes to the nearest number. -/
theorem ofSteps_nearest (negative : Bool) (hhalf : |(m : ℚ) - x / 2 ^ e| ≤ 1 / 2)
    (heven : |(m : ℚ) - x / 2 ^ e| = 1 / 2 → m % 2 = 0) (hleast : -1074 ≤ e)
    (hbelow : x < 2 ^ 53 * 2 ^ e) (hlow : 2 ^ 52 * 2 ^ e ≤ x ∨ e = -1074) :
    (ofSteps negative m e).IsNearest (signed negative x) := by
  rcases le_or_gt e 971 with he | he
  · obtain ⟨hm, hfull⟩ := rounded_bounds hhalf hbelow hlow
    obtain ⟨hnumber, hvalue, hparity⟩ := ofSteps_spec negative hm hleast hfull he
    refine isNearest_of_magnitude hnumber hvalue fun k e' hk he' _ => ?_
    obtain ⟨hnear, htie⟩ := nearest_number hhalf hlow hk he'
    exact ⟨hnear, fun heq hne => hparity (heven (htie heq hne))⟩
  · have hpow : (2 : ℚ) ^ (971 + 1 : ℤ) ≤ 2 ^ e := zpow_le_zpow_right₀ one_le_two (by omega)
    rw [zpow_add_one₀ two_ne_zero] at hpow
    have hx : (2 : ℚ) ^ 53 * 2 ^ (971 : ℤ) ≤ x := by
      have hlow := hlow.resolve_right (by omega)
      linarith
    rw [ofSteps_infinite negative m he]
    exact infinite_nearest negative hx

end Rounded

theorem zero_nearest (negative : Bool) : (zero negative).IsNearest (signed negative 0) := by
  have hvalue : (zero negative).toRat = signed negative 0 := by simp [zero, toRat]
  have hnumber : (zero negative).IsNumber := ⟨by decide, by decide, by decide, .inr rfl⟩
  refine isNearest_of_magnitude hnumber hvalue fun k e _ _ _ => ⟨?_, fun _ _ => rfl⟩
  rw [sub_zero, abs_zero]
  exact abs_nonneg _

/-- **A ratio is rounded to the nearest number.** -/
theorem ofRatio_nearest (negative : Bool) (num : ℕ) {den : ℕ} (hd : 0 < den) :
    (ofRatio negative num den).IsNearest (signed negative (num / den)) := by
  rcases Nat.eq_zero_or_pos num with rfl | hn
  · rw [Nat.cast_zero, zero_div]
    exact zero_nearest negative
  · obtain ⟨hleast, hbelow, hlow⟩ := exponentOf_spec hn hd
    obtain ⟨hpos, hscaled⟩ := scaled_spec num hd (exponentOf num den)
    obtain ⟨hhalf, heven⟩ := roundedQuotient_spec (scaled num den (exponentOf num den)).1 hpos
    rw [hscaled] at hhalf heven
    rw [ofRatio_eq_ofSteps negative hn.ne']
    exact ofSteps_nearest negative hhalf heven hleast hbelow hlow

theorem ofSteps_isNegative (negative : Bool) (m : ℕ) (e : ℤ) :
    (ofSteps negative m e).isNegative = negative := by
  unfold ofSteps
  exact (apply_ite isNegative _ _ _).trans (ite_self negative)

theorem ofRatio_isNegative (negative : Bool) (num den : ℕ) :
    (ofRatio negative num den).isNegative = negative := by
  by_cases hn : num = 0
  · subst hn
    rfl
  · rw [ofRatio_eq_ofSteps negative hn, ofSteps_isNegative]

/-- **An integer is rounded to the nearest number,** which is negative just if the integer is. -/
theorem ofInt_nearest (i : ℤ) :
    (ofInt i).IsNearest i ∧ ((ofInt i).isNegative = true ↔ i < 0) := by
  have hvalue : signed (decide (i < 0)) (i.natAbs / (1 : ℕ)) = i := by
    rw [Nat.cast_one, div_one, Nat.cast_natAbs]
    unfold signed
    by_cases h : i < 0
    · rw [if_pos (decide_eq_true h), abs_of_neg h, Int.cast_neg, neg_neg]
    · rw [if_neg (by simpa using h), abs_of_nonneg (Int.not_lt.mp h)]
  unfold ofInt
  refine ⟨hvalue ▸ ofRatio_nearest _ i.natAbs Nat.one_pos, ?_⟩
  rw [ofRatio_isNegative, decide_eq_true_iff]

end Binary64

end Inlay
