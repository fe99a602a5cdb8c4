import Mathlib.Algebra.Order.Field.Power
import SearchFilter.Decimal.Numeral
import SearchFilter.Decimal.Shortest
import SearchFilter.Proofs.Decimal.Rounding
import SearchFilter.Proofs.Text.Character

/-!
# The value of a numeral

A numeral in ASCII digits stands for an exact fraction, whatever the number of its digits and the
size of its exponent. Its order key is that of the double nearest to this value, so the keys of two
numerals are never in the opposite order of their values, but they may be equal where the values
differ.
-/

namespace SearchFilter.Decimal

/-- The double nearest to a number has the order key: its units with the sign of the number, or the
limit of the format where they are beyond it. -/
def RoundsTo (x : ℚ) (key : ℤ) : Prop :=
  ∃ u : ℕ, IsNearestEven (|x| * unitsPerOne) u ∧
    key = if x < 0 then -((min u unitLimit : ℕ) : ℤ) else (min u unitLimit : ℕ)

theorem isNearestEven_of_representable {u : ℕ} (h : Representable u) : IsNearestEven u u := by
  refine ⟨h, fun v _ => ?_, fun v _ hnear hne => ?_⟩
  · rw [sub_self, abs_zero]
    exact abs_nonneg _
  · rw [sub_self, abs_zero, abs_eq_zero, sub_eq_zero] at hnear
    exact absurd (by exact_mod_cast hnear.symm) hne

theorem representable_unitLimit : Representable unitLimit := by
  unfold unitLimit
  -- with a variable for the exponent nothing tries to compute the power
  generalize 2098 = e
  exact ⟨1, e, by norm_num, (one_mul _).symm⟩

theorem IsNearestEven.eq_zero {x : ℚ} {u : ℕ} (h : IsNearestEven x u) (hx : 0 ≤ x)
    (hsmall : x < 1 / 2) : u = 0 := by
  have hzero : Representable 0 := ⟨0, 0, by norm_num, rfl⟩
  have hnear := h.nearest 0 hzero
  rw [Nat.cast_zero, sub_zero, abs_of_nonneg hx] at hnear
  by_contra hu
  have hone : (1 : ℚ) ≤ u := by exact_mod_cast Nat.one_le_iff_ne_zero.mpr hu
  rw [abs_of_neg (by linarith)] at hnear
  linarith

/-- The key of a greater number is never smaller. -/
theorem RoundsTo.mono {x y : ℚ} {k l : ℤ} (hx : RoundsTo x k) (hy : RoundsTo y l) (h : x ≤ y) :
    k ≤ l := by
  obtain ⟨u, hu, rfl⟩ := hx
  obtain ⟨v, hv, rfl⟩ := hy
  have hunits : (0 : ℚ) ≤ unitsPerOne := Nat.cast_nonneg _
  by_cases hxneg : x < 0
  · rw [if_pos hxneg]
    by_cases hyneg : y < 0
    · have habs : |y| ≤ |x| := by
        rw [abs_of_neg hxneg, abs_of_neg hyneg]
        linarith
      have hle := hv.mono hu (mul_le_mul_of_nonneg_right habs hunits)
      rw [if_pos hyneg]
      omega
    · rw [if_neg hyneg]
      omega
  · have hyneg : ¬ y < 0 := by linarith
    have habs : |x| ≤ |y| := by
      rw [abs_of_nonneg (by linarith), abs_of_nonneg (by linarith)]
      exact h
    have hle := hu.mono hv (mul_le_mul_of_nonneg_right habs hunits)
    rw [if_neg hxneg, if_neg hyneg]
    omega

/-- A number rounds to one double only. -/
theorem RoundsTo.unique {x : ℚ} {k l : ℤ} (hk : RoundsTo x k) (hl : RoundsTo x l) : k = l :=
  le_antisymm (hk.mono hl le_rfl) (hl.mono hk le_rfl)

/-- The numbers round to doubles that compare equal: to the same one, or to zeros of either sign.
All numbers beyond the range of the format round to the infinity of their sign. -/
def RoundAlike (x y : ℚ) : Prop :=
  ∃ k, RoundsTo x k ∧ RoundsTo y k

theorem roundAlike_comm {x y : ℚ} : RoundAlike x y ↔ RoundAlike y x :=
  exists_congr fun _ => And.comm

namespace Numeral

/-- The numeral is written in ASCII digits. -/
def IsAscii (n : Numeral) : Prop :=
  ∀ d ∈ n.whole ++ n.fraction, Text.isAsciiDigit d = true

/-- The numeral without its sign. -/
def scaled (n : Numeral) : Scaled :=
  ⟨n.coefficient, n.scale⟩

/-- The exact value. -/
def value (n : Numeral) : ℚ :=
  (if n.negative then -1 else 1) * (n.coefficient * 10 ^ n.scale)

end Numeral

theorem digit_le_nine {d : Char} (h : Text.isAsciiDigit d = true) : d.toNat - '0'.toNat ≤ 9 := by
  rw [Text.isAsciiDigit_iff] at h
  have : '0'.toNat = 48 := rfl
  omega

/-- A run of digits is less than the power of ten with as many zeros. -/
theorem Numeral.digitsValue_lt {ds : List Char} (h : ∀ d ∈ ds, Text.isAsciiDigit d = true) :
    Numeral.digitsValue ds < 10 ^ ds.length := by
  have hfold (ds : List Char) (h : ∀ d ∈ ds, Text.isAsciiDigit d = true) (n : ℕ) :
      ds.foldl (fun n d => 10 * n + (d.toNat - '0'.toNat)) n < (n + 1) * 10 ^ ds.length := by
    induction ds generalizing n with
    | nil => simp
    | cons d ds ih =>
      rw [List.forall_mem_cons] at h
      have hd := digit_le_nine h.1
      calc _ < (10 * n + (d.toNat - '0'.toNat) + 1) * 10 ^ ds.length := ih h.2 _
        _ ≤ (n + 1) * 10 * 10 ^ ds.length := Nat.mul_le_mul_right _ (by omega)
        _ = (n + 1) * 10 ^ (d :: ds).length := by rw [List.length_cons, pow_succ]; ring
  simpa [Numeral.digitsValue] using hfold ds h 0

namespace Scaled

/-- The value of a scaled number. -/
def value (s : Scaled) : ℚ :=
  s.digits * 10 ^ s.exponent

theorem value_nonneg (s : Scaled) : 0 ≤ s.value := by
  rw [value]
  positivity

theorem fraction_pos (s : Scaled) : 0 < s.fraction.2 := by
  rw [fraction]
  split
  · exact Nat.one_pos
  · exact Nat.pow_pos (by norm_num)

theorem value_eq_fraction (s : Scaled) : s.value = s.fraction.1 / s.fraction.2 := by
  obtain ⟨digits, exponent⟩ := s
  cases exponent with
  | ofNat e => simp [value, fraction]
  | negSucc e => simp [value, fraction, zpow_negSucc, div_eq_mul_inv]

theorem isNearestEven_units (s : Scaled) : IsNearestEven (s.value * unitsPerOne) s.units := by
  have h := isNearestEven_nearestUnits s.fraction.1 s.fraction_pos
  rw [value_eq_fraction, div_mul_eq_mul_div, ← Nat.cast_mul]
  exact h

theorem units_eq_zero_of_value {s : Scaled} (h : s.value = 0) : s.units = 0 := by
  have hunits := s.isNearestEven_units
  rw [h, zero_mul] at hunits
  exact hunits.eq_zero le_rfl (by norm_num)

end Scaled

namespace Numeral

/-! ## The magnitude -/

theorem units_scaled (n : Numeral) : n.scaled.units =
    match n.scale with
    | .ofNat e => nearestUnits (n.coefficient * Nat.pow 10 e) 1
    | .negSucc e => nearestUnits n.coefficient (Nat.pow 10 (e + 1)) := by
  rw [Scaled.units, Scaled.fraction, scaled]
  cases n.scale <;> rfl

theorem units_eq_zero_of_coefficient {n : Numeral} (h : n.coefficient = 0) :
    n.scaled.units = 0 := by
  apply Scaled.units_eq_zero_of_value
  rw [Scaled.value, scaled, h, Nat.cast_zero, zero_mul]

/-- Above the upper bound on the power of ten, the number is beyond the format. -/
theorem unitLimit_le_units {n : Numeral} (hc : n.coefficient ≠ 0) (hs : 400 < n.scale) :
    unitLimit ≤ n.scaled.units := by
  apply (isNearestEven_of_representable representable_unitLimit).mono n.scaled.isNearestEven_units
  have hone : (1 : ℚ) ≤ n.coefficient := by exact_mod_cast Nat.one_le_iff_ne_zero.mpr hc
  have hpow : (10 : ℚ) ^ (401 : ℤ) ≤ 10 ^ n.scale := zpow_le_zpow_right₀ (by norm_num) hs
  have hlimit : (unitLimit : ℚ) ≤ 10 ^ (401 : ℤ) * unitsPerOne := by
    have hnat : unitLimit ≤ 10 ^ 401 * unitsPerOne := by decide +kernel
    exact_mod_cast hnat
  calc (unitLimit : ℚ) ≤ 10 ^ (401 : ℤ) * unitsPerOne := hlimit
    _ ≤ 10 ^ n.scale * unitsPerOne := mul_le_mul_of_nonneg_right hpow (Nat.cast_nonneg _)
    _ ≤ n.scaled.value * unitsPerOne := by
      apply mul_le_mul_of_nonneg_right _ (Nat.cast_nonneg _)
      exact le_mul_of_one_le_left (by positivity) hone

/-- Below the lower bound on the power of ten, the number is nearer to zero than to any other
double. -/
theorem units_eq_zero_of_scale {n : Numeral} (hascii : n.IsAscii)
    (hs : n.scale + (n.whole ++ n.fraction).length < -400) : n.scaled.units = 0 := by
  apply n.scaled.isNearestEven_units.eq_zero
  · exact mul_nonneg n.scaled.value_nonneg (Nat.cast_nonneg _)
  · have hc : (n.coefficient : ℚ) ≤ 10 ^ ((n.whole ++ n.fraction).length : ℤ) := by
      rw [zpow_natCast]
      exact_mod_cast (digitsValue_lt hascii).le
    have hten : (10 : ℚ) ≠ 0 := by norm_num
    have hvalue : n.scaled.value ≤ 10 ^ (-401 : ℤ) := by
      calc n.scaled.value = n.coefficient * 10 ^ n.scale := rfl
        _ ≤ 10 ^ ((n.whole ++ n.fraction).length : ℤ) * 10 ^ n.scale :=
          mul_le_mul_of_nonneg_right hc (by positivity)
        _ = 10 ^ (((n.whole ++ n.fraction).length : ℤ) + n.scale) := (zpow_add₀ hten _ _).symm
        _ ≤ 10 ^ (-401 : ℤ) := zpow_le_zpow_right₀ (by norm_num) (by omega)
    have hunits : (10 : ℚ) ^ (-401 : ℤ) * unitsPerOne < 1 / 2 := by
      have hnat : unitsPerOne * 2 < 1 * 10 ^ 401 := by decide +kernel
      rw [zpow_neg, ← div_eq_inv_mul, div_lt_div_iff₀ (by positivity) two_pos]
      exact_mod_cast hnat
    exact lt_of_le_of_lt (mul_le_mul_of_nonneg_right hvalue (Nat.cast_nonneg _)) hunits

/-- The bounds on the power of ten only save work: the magnitude is that of the nearest double. -/
theorem magnitude_eq {n : Numeral} (h : n.IsAscii) :
    n.magnitude = min n.scaled.units unitLimit := by
  rw [magnitude]
  split_ifs with hc hupper hlower
  · rw [units_eq_zero_of_coefficient hc, Nat.zero_min]
  · exact (min_eq_right (unitLimit_le_units hc hupper)).symm
  · rw [units_eq_zero_of_scale h hlower, Nat.zero_min]
  · rw [units_scaled]
    exact min_comm _ _

/-! ## The order key -/

theorem value_eq (n : Numeral) :
    n.value = if n.negative then -n.scaled.value else n.scaled.value := by
  rw [value]
  split_ifs <;> simp [Scaled.value, scaled]

/-- The order key of a numeral in ASCII digits is that of the double nearest to its value. -/
theorem roundsTo_key {n : Numeral} (h : n.IsAscii) : RoundsTo n.value n.key := by
  have hnonneg := n.scaled.value_nonneg
  have habs : |n.value| = n.scaled.value := by
    rw [value_eq]
    split_ifs
    · rw [abs_neg, abs_of_nonneg hnonneg]
    · rw [abs_of_nonneg hnonneg]
  refine ⟨n.scaled.units, ?_, ?_⟩
  · rw [habs]
    exact n.scaled.isNearestEven_units
  · have hzero : n.scaled.value = 0 → min n.scaled.units unitLimit = 0 := by
      intro hv
      rw [Scaled.units_eq_zero_of_value hv, Nat.zero_min]
    rw [key, magnitude_eq h, value_eq]
    generalize min n.scaled.units unitLimit = u at hzero ⊢
    cases n.negative with
    | false => simp [not_lt.mpr hnonneg]
    | true =>
      simp only [if_true, neg_lt_zero]
      split_ifs with hpos
      · rfl
      · -- the negative zero
        rw [hzero (le_antisymm (not_lt.mp hpos) hnonneg)]
        rfl

/-- The order of the keys is the order of the values but where both values round alike. -/
theorem key_lt_key_iff {m n : Numeral} (hm : m.IsAscii) (hn : n.IsAscii) :
    m.key < n.key ↔ m.value < n.value ∧ ¬ RoundAlike m.value n.value := by
  have hmkey := roundsTo_key hm
  have hnkey := roundsTo_key hn
  constructor
  · intro hlt
    constructor
    · by_contra hle
      have := hnkey.mono hmkey (not_lt.mp hle)
      omega
    · rintro ⟨k, hmk, hnk⟩
      rw [hmkey.unique hmk, hnkey.unique hnk] at hlt
      exact lt_irrefl k hlt
  · rintro ⟨hlt, happart⟩
    refine lt_of_le_of_ne (hmkey.mono hnkey hlt.le) fun heq => happart ⟨m.key, hmkey, ?_⟩
    rw [heq]
    exact hnkey

end Numeral

end SearchFilter.Decimal
