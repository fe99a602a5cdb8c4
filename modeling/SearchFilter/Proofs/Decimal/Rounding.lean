import Mathlib.Algebra.Order.Field.Rat
import Mathlib.Data.Nat.Cast.Order.Field
import Mathlib.Data.Nat.Log
import Mathlib.Data.Rat.Cast.Order
import Mathlib.Tactic.FieldSimp
import Mathlib.Tactic.Linarith
import Mathlib.Tactic.Positivity
import Mathlib.Tactic.Ring
import SearchFilter.Decimal.Binary64

/-!
# Rounding to the nearest double

What it means that a double is the one nearest to a number, said without any computation: no other
double is nearer, and of two that are equally near it is the even one. There is at most one such
double, and a greater number never has a smaller one. The rounded division of the format finds it.
-/

namespace SearchFilter.Decimal

/-- The number of units belongs to a double, if the exponents of doubles had no upper bound: it has
at most 53 significant bits. -/
def Representable (u : ℕ) : Prop :=
  ∃ m e : ℕ, m < 2 ^ 53 ∧ u = m * 2 ^ e

/-- Of the doubles, that of `u` units is the nearest one to `x` units. Where another one is equally
near, `u` is an even multiple of their distance. -/
structure IsNearestEven (x : ℚ) (u : ℕ) : Prop where
  representable : Representable u
  nearest : ∀ v, Representable v → |x - u| ≤ |x - v|
  even : ∀ v, Representable v → |x - v| = |x - u| → v ≠ u → 2 * ((u : ℤ) - v) ∣ u

namespace IsNearestEven

variable {x y : ℚ} {u v : ℕ}

theorem unique (hu : IsNearestEven x u) (hv : IsNearestEven x v) : u = v := by
  by_contra hne
  have hnear : |x - u| = |x - v| :=
    le_antisymm (hu.nearest v hv.representable) (hv.nearest u hu.representable)
  have hdvdu : 2 * ((u : ℤ) - v) ∣ u := hu.even v hv.representable hnear.symm (Ne.symm hne)
  have hdvdv : 2 * ((u : ℤ) - v) ∣ v := by
    rw [← neg_sub, mul_neg, neg_dvd]
    exact hv.even u hu.representable hnear hne
  obtain ⟨k, hk⟩ := dvd_sub hdvdu hdvdv
  have hsub : (u : ℤ) - v ≠ 0 := sub_ne_zero.mpr (by exact_mod_cast hne)
  have hone : 2 * k = 1 := by
    apply mul_left_cancel₀ hsub
    linarith
  omega

/-- If the double nearest to the smaller number were the greater one, both numbers would lie in the
middle between the two. -/
theorem mono (hu : IsNearestEven x u) (hv : IsNearestEven y v) (h : x ≤ y) : u ≤ v := by
  by_contra hlt
  have hlt : (v : ℚ) < u := by exact_mod_cast not_le.mp hlt
  have hxv := hu.nearest v hv.representable
  have hyu := hv.nearest u hu.representable
  have hx : ((u : ℚ) + v) / 2 ≤ x := by
    by_contra hx
    rw [abs_sub_comm x u, abs_of_pos (by linarith : (0 : ℚ) < u - x)] at hxv
    rcases abs_cases (x - (v : ℚ)) with ⟨habs, -⟩ | ⟨habs, -⟩ <;> linarith
  have hy : y ≤ ((u : ℚ) + v) / 2 := by
    by_contra hy
    rw [abs_of_pos (by linarith : (0 : ℚ) < y - v)] at hyu
    rcases abs_cases (y - (u : ℚ)) with ⟨habs, -⟩ | ⟨habs, -⟩ <;> linarith
  obtain rfl : x = y := by linarith
  rw [hu.unique hv] at hlt
  exact lt_irrefl _ hlt

end IsNearestEven

/-! ## The rounded quotient -/

/-- The quotient and the remainder as a sum of fractions. -/
theorem div_eq_div_add_mod (num : ℕ) {den : ℕ} (hden : 0 < den) :
    (num / den : ℚ) = ↑(num / den) + ↑(num % den) / den := by
  have hden' : (den : ℚ) ≠ 0 := by positivity
  have hdiv : (num : ℚ) = den * ↑(num / den) + ↑(num % den) := by
    exact_mod_cast (Nat.div_add_mod num den).symm
  field_simp
  linarith

/-- The rounded quotient is at most a half away from the quotient, and even if it is just a half
away. -/
theorem abs_sub_divRoundEven (num : ℕ) {den : ℕ} (hden : 0 < den) :
    |(num / den : ℚ) - divRoundEven num den| ≤ 1 / 2 ∧
      (|(num / den : ℚ) - divRoundEven num den| = 1 / 2 → 2 ∣ divRoundEven num den) := by
  have hden' : (0 : ℚ) < den := by exact_mod_cast hden
  have hrest : (0 : ℚ) ≤ ↑(num % den) / den := by positivity
  rw [div_eq_div_add_mod num hden, divRoundEven]
  split_ifs with hbelow habove
  · have hhalf : (↑(num % den) / den : ℚ) < 1 / 2 := by
      rw [div_lt_div_iff₀ hden' two_pos]
      exact_mod_cast (by omega : num % den * 2 < 1 * den)
    rw [add_sub_cancel_left, abs_of_nonneg hrest]
    exact ⟨hhalf.le, fun h => absurd h hhalf.ne⟩
  · have hone : (↑(num % den) / den : ℚ) < 1 := by
      rw [div_lt_one hden']
      exact_mod_cast Nat.mod_lt num hden
    have hhalf : 1 / 2 < (↑(num % den) / den : ℚ) := by
      rw [div_lt_div_iff₀ two_pos hden']
      exact_mod_cast (by omega : 1 * den < num % den * 2)
    rw [Nat.cast_add, Nat.cast_one, add_sub_add_left_eq_sub, abs_of_neg (by linarith)]
    exact ⟨by linarith, fun h => by linarith⟩
  · have hhalf : (↑(num % den) / den : ℚ) = 1 / 2 := by
      rw [div_eq_div_iff hden'.ne' two_ne_zero]
      exact_mod_cast (by omega : num % den * 2 = 1 * den)
    have heven : 2 ∣ num / den + num / den % 2 := by omega
    refine ⟨?_, fun _ => heven⟩
    rw [hhalf, Nat.cast_add, add_sub_add_left_eq_sub]
    rcases Nat.mod_two_eq_zero_or_one (num / den) with h | h <;> rw [h] <;> norm_num

/-! ## Multiples of the step -/

section Step

variable {x : ℚ} {step R : ℕ}

theorem cast_sub_multiples (R step k : ℕ) :
    (↑(R * step) : ℚ) - ↑(step * k) = ((R : ℤ) - k : ℤ) * step := by
  push_cast
  ring

/-- Of the multiples of the step, the one within half a step is the nearest. -/
theorem abs_sub_le_of_dvd (hR : |x - ↑(R * step)| ≤ (step : ℚ) / 2) {v : ℕ} (hv : step ∣ v) :
    |x - ↑(R * step)| ≤ |x - v| := by
  obtain ⟨k, rfl⟩ := hv
  by_cases hk : R = k
  · rw [hk, mul_comm]
  · have hone : (1 : ℤ) ≤ |(R : ℤ) - k| := by
      have hne : (R : ℤ) - k ≠ 0 := sub_ne_zero.mpr (by exact_mod_cast hk)
      exact Int.one_le_abs hne
    have hapart : (step : ℚ) ≤ |(↑(R * step) : ℚ) - ↑(step * k)| := by
      rw [cast_sub_multiples, abs_mul, Nat.abs_cast, ← Int.cast_abs]
      exact le_mul_of_one_le_left (Nat.cast_nonneg step) (by exact_mod_cast hone)
    have htriangle := abs_sub_le (↑(R * step) : ℚ) x ↑(step * k)
    rw [abs_sub_comm _ x] at htriangle
    linarith

/-- Another multiple of the step is only equally near where both are half a step away. -/
theorem even_of_dvd (hstep : 0 < step) (hR : |x - ↑(R * step)| ≤ (step : ℚ) / 2)
    (heven : |x - ↑(R * step)| = (step : ℚ) / 2 → 2 ∣ R) {v : ℕ} (hv : step ∣ v)
    (hnear : |x - v| = |x - ↑(R * step)|) (hne : v ≠ R * step) :
    2 * ((↑(R * step) : ℤ) - v) ∣ ↑(R * step) := by
  obtain ⟨k, rfl⟩ := hv
  have hstep' : (0 : ℚ) < step := by exact_mod_cast hstep
  have htriangle := abs_sub_le (↑(R * step) : ℚ) x ↑(step * k)
  rw [abs_sub_comm _ x, hnear, cast_sub_multiples, abs_mul, Nat.abs_cast, ← Int.cast_abs]
    at htriangle
  have hne' : (R : ℤ) - k ≠ 0 := by
    intro h
    have hk : k = R := by omega
    exact hne (by rw [hk, mul_comm])
  have hone : |(R : ℤ) - k| = 1 := by
    have hle : (|(R : ℤ) - k| : ℚ) * step ≤ 1 * step := by push_cast at htriangle hR ⊢; linarith
    have hle : (|(R : ℤ) - k| : ℚ) ≤ 1 := le_of_mul_le_mul_right hle hstep'
    exact le_antisymm (by exact_mod_cast hle) (Int.one_le_abs hne')
  rw [hone, Int.cast_one, one_mul] at htriangle
  obtain ⟨t, rfl⟩ := heven (le_antisymm hR (by linarith))
  have hsub : (↑(2 * t * step) : ℤ) - ↑(step * k) = (↑(2 * t) - k) * step := by
    push_cast
    ring
  rw [hsub]
  rcases (abs_eq (zero_le_one' ℤ)).mp hone with h | h
  · exact ⟨t, by rw [h]; push_cast; ring⟩
  · exact ⟨-t, by rw [h]; push_cast; ring⟩

end Step

/-! ## Doubles around a number -/

theorem floor_lt_of_stepExponent (units : ℕ) : units < 2 ^ (53 + stepExponent units) := by
  calc units < 2 ^ (units.log2 + 1) := Nat.lt_log2_self
    _ ≤ 2 ^ (53 + stepExponent units) := Nat.pow_le_pow_right two_pos (by rw [stepExponent]; omega)

/-- A double that is no multiple of the step lies below a power of two that is one, and this power
is not above the number. -/
theorem dvd_or_lt_of_representable {v : ℕ} (hv : Representable v) (units : ℕ) :
    2 ^ stepExponent units ∣ v ∨
      v < 2 ^ (52 + stepExponent units) ∧ 2 ^ (52 + stepExponent units) ≤ units := by
  obtain ⟨m, e, hm, rfl⟩ := hv
  by_cases he : stepExponent units ≤ e
  · exact .inl (Dvd.dvd.mul_left (Nat.pow_dvd_pow 2 he) m)
  · right
    have hlog : units.log2 = 52 + stepExponent units := by
      rw [stepExponent] at he ⊢
      omega
    have hunits : units ≠ 0 := by
      rintro rfl
      rw [stepExponent] at he
      simp at he
    constructor
    · calc m * 2 ^ e < 2 ^ 53 * 2 ^ e := Nat.mul_lt_mul_of_pos_right hm (Nat.two_pow_pos e)
        _ = 2 ^ (53 + e) := (Nat.pow_add 2 53 e).symm
        _ ≤ 2 ^ (52 + stepExponent units) := Nat.pow_le_pow_right two_pos (by omega)
    · rw [← hlog]
      exact Nat.log2_self_le hunits

theorem representable_mul_pow {m : ℕ} (hm : m ≤ 2 ^ 53) (e : ℕ) : Representable (m * 2 ^ e) := by
  rcases hm.lt_or_eq with hm | rfl
  · exact ⟨m, e, hm, rfl⟩
  · exact ⟨1, 53 + e, by norm_num, by rw [one_mul, Nat.pow_add]⟩

theorem divRoundEven_le_of_lt {num den bound : ℕ} (h : num < bound * den) :
    divRoundEven num den ≤ bound := by
  have hquot : num / den < bound := Nat.div_lt_of_lt_mul (by rwa [mul_comm])
  rw [divRoundEven]
  split_ifs <;> omega

/-- A multiple of the step around a number is the double nearest to it if it is within half a step,
and even where it is just half a step away. -/
theorem isNearestEven_of_step {x : ℚ} {units R : ℕ} (hunits : (units : ℚ) ≤ x) (hbits : R ≤ 2 ^ 53)
    (hR : |x - ↑(R * 2 ^ stepExponent units)| ≤ (↑(2 ^ stepExponent units : ℕ) : ℚ) / 2)
    (heven : |x - ↑(R * 2 ^ stepExponent units)| = (↑(2 ^ stepExponent units : ℕ) : ℚ) / 2 →
      2 ∣ R) :
    IsNearestEven x (R * 2 ^ stepExponent units) := by
  -- a double that is no multiple of the step is farther away than the power of two above it
  have hother {v : ℕ} (hv : Representable v) :
      2 ^ stepExponent units ∣ v ∨ |x - ↑(R * 2 ^ stepExponent units)| < |x - v| := by
    rcases dvd_or_lt_of_representable hv units with hdvd | ⟨hlt, hle⟩
    · exact .inl hdvd
    · right
      have hpower := abs_sub_le_of_dvd hR (Dvd.intro_left _ (Nat.pow_add 2 52 _).symm)
      have hlt : (v : ℚ) < ↑(2 ^ (52 + stepExponent units) : ℕ) := by exact_mod_cast hlt
      have hle : (↑(2 ^ (52 + stepExponent units) : ℕ) : ℚ) ≤ units := by exact_mod_cast hle
      rw [abs_of_nonneg (by linarith : 0 ≤ x - ↑(2 ^ (52 + stepExponent units) : ℕ))] at hpower
      rw [abs_of_nonneg (by linarith : 0 ≤ x - v)]
      linarith
  refine ⟨representable_mul_pow hbits _, fun v hv => ?_, fun v hv hnear hne => ?_⟩
  · rcases hother hv with hdvd | hlt
    · exact abs_sub_le_of_dvd hR hdvd
    · exact hlt.le
  · rcases hother hv with hdvd | hlt
    · exact even_of_dvd (Nat.two_pow_pos _) hR heven hdvd hnear hne
    · exact absurd hnear hlt.ne'

/-- The error of a quotient that is rounded to a multiple of a step. -/
theorem abs_sub_divRoundEven_mul (num : ℕ) {den step : ℕ} (hden : 0 < den) (hstep : 0 < step) :
    |(num / den : ℚ) - ↑(divRoundEven num (den * step) * step)|
      = |(num / ↑(den * step) : ℚ) - divRoundEven num (den * step)| * step := by
  have hden' : (den : ℚ) ≠ 0 := by positivity
  have hstep' : (step : ℚ) ≠ 0 := by positivity
  have hscale : (num / den : ℚ) - ↑(divRoundEven num (den * step) * step)
      = ((num / ↑(den * step) : ℚ) - divRoundEven num (den * step)) * step := by
    push_cast
    field_simp
  rw [hscale, abs_mul, Nat.abs_cast]

/-- The rounded division finds the nearest double. -/
theorem isNearestEven_nearestUnits (num : ℕ) {den : ℕ} (hden : 0 < den) :
    IsNearestEven (↑(num * unitsPerOne) / den) (nearestUnits num den) := by
  let scaled := num * unitsPerOne
  let step := 2 ^ stepExponent (scaled / den)
  have hstep : 0 < step := Nat.two_pow_pos _
  have hstep' : (0 : ℚ) < step := by exact_mod_cast hstep
  have herror := abs_sub_divRoundEven scaled (Nat.mul_pos hden hstep)
  have hmul := abs_sub_divRoundEven_mul scaled hden hstep
  have hbits : scaled < 2 ^ 53 * (den * step) := by
    calc scaled < 2 ^ (53 + stepExponent (scaled / den)) * den :=
          Nat.lt_mul_of_div_lt (floor_lt_of_stepExponent _) hden
      _ = 2 ^ 53 * (den * step) := by rw [Nat.pow_add]; ring
  apply isNearestEven_of_step Nat.cast_div_le (divRoundEven_le_of_lt hbits)
  · rw [hmul]
    have := mul_le_mul_of_nonneg_right herror.1 hstep'.le
    linarith
  · intro h
    rw [hmul] at h
    exact herror.2 (mul_right_cancel₀ hstep'.ne' (h.trans (by ring)))

end SearchFilter.Decimal
