import Airlock.Number.Double
import Mathlib.Algebra.Order.Field.Power
import Mathlib.Data.Nat.Log
import Mathlib.Tactic.FieldSimp
import Mathlib.Tactic.Linarith
import Mathlib.Tactic.NormNum
import Mathlib.Tactic.Positivity
import Mathlib.Tactic.Ring

/-!
# Rounding to doubles

How far a double is from the number that was rounded to it, and which numbers are small enough to
have a double. The bounds are stated in rational numbers.
-/

set_option autoImplicit false

namespace Airlock

namespace Ratio

def value (r : Ratio) : ℚ :=
  r.num / r.den

private theorem value_mul (a b : Ratio) : (a.mul b).value = a.value * b.value := by
  simp only [value, mul, Nat.cast_mul]
  exact mul_div_mul_comm ..

private theorem value_div (a b : Ratio) : (a.div b).value = a.value / b.value := by
  simp only [value, div, Nat.cast_mul]
  exact (div_div_div_eq ..).symm

theorem zpow_eq_div {base : ℚ} (positive : 0 < base) (exponent : Int) :
    base ^ exponent = base ^ exponent.toNat / base ^ (-exponent).toNat := by
  rw [eq_div_iff (by positivity), ← zpow_natCast, ← zpow_natCast, ← zpow_add₀ positive.ne']
  congr 1
  omega

private theorem value_ofBinary (coefficient : Nat) (scale : Int) :
    (ofBinary coefficient scale).value = coefficient * 2 ^ scale := by
  simp only [value, ofBinary, Nat.pow_eq, Nat.cast_mul, Nat.cast_pow, Nat.cast_ofNat,
    zpow_eq_div two_pos scale, mul_div_assoc]

/-! ## The nearest natural number -/

variable {r : Ratio}

private theorem value_eq (positive : 0 < r.den) :
    r.value = (r.num / r.den : Nat) + (r.num % r.den : Nat) / (r.den : ℚ) := by
  have den : (r.den : ℚ) ≠ 0 := by positivity
  have whole := Nat.div_add_mod r.num r.den
  rw [value, div_eq_iff den, add_mul, div_mul_cancel₀ _ den]
  exact_mod_cast by rw [Nat.mul_comm]; exact whole.symm

private theorem round_near (positive : 0 < r.den) :
    r.value - 1 / 2 ≤ r.round ∧ (r.round : ℚ) ≤ r.value + 1 / 2 := by
  have den : (0 : ℚ) < r.den := by exact_mod_cast positive
  have rest : ((r.num % r.den : Nat) : ℚ) / r.den * r.den = (r.num % r.den : Nat) :=
    div_mul_cancel₀ _ den.ne'
  have low : (0 : ℚ) ≤ ((r.num % r.den : Nat) : ℚ) / r.den := by positivity
  have high : ((r.num % r.den : Nat) : ℚ) / r.den ≤ 1 := by
    rw [div_le_one den]
    exact_mod_cast (Nat.mod_lt _ positive).le
  rw [value_eq positive]
  unfold round
  dsimp only
  generalize ((r.num % r.den : Nat) : ℚ) / r.den = part at *
  split
  next down =>
    have half : 2 * (part * r.den) < r.den := by rw [rest]; exact_mod_cast down
    have : part < 1 / 2 := by nlinarith
    constructor <;> linarith
  next notDown =>
    have atLeast : (r.den : ℚ) ≤ 2 * (part * r.den) := by
      rw [rest]; exact_mod_cast not_lt.mp notDown
    have half : 1 / 2 ≤ part := by nlinarith
    split
    next up =>
      push_cast
      constructor <;> linarith
    next notUp =>
      have atMost : 2 * (part * r.den) ≤ r.den := by rw [rest]; exact_mod_cast not_lt.mp notUp
      have same : part = 1 / 2 := le_antisymm (by nlinarith) half
      obtain even | odd := Nat.mod_two_eq_zero_or_one (r.num / r.den)
      · rw [even, same]
        push_cast
        constructor <;> linarith
      · rw [odd, same]
        push_cast
        constructor <;> linarith

private theorem round_le (positive : 0 < r.den) {n : Nat} (below : r.value < n + 1 / 2) :
    r.round ≤ n := by
  have near := (round_near positive).2
  have less : (r.round : ℚ) < (n + 1 : Nat) := by
    push_cast
    linarith
  exact Nat.lt_succ_iff.mp (by exact_mod_cast less)

private theorem le_round (positive : 0 < r.den) {n : Nat} (above : (n : ℚ) ≤ r.value) :
    n ≤ r.round := by
  have near := (round_near positive).1
  have less : (n : ℚ) < (r.round + 1 : Nat) := by
    push_cast
    linarith
  exact Nat.lt_succ_iff.mp (by exact_mod_cast less)

/-! ## The scale -/

private theorem le_doubleScale (r : Ratio) : -1074 ≤ r.doubleScale :=
  le_max_right ..

private theorem log_bounds {n : Nat} (positive : 0 < n) :
    (2 : ℚ) ^ (n.log2 : Int) ≤ n ∧ (n : ℚ) < 2 ^ ((n.log2 : Int) + 1) := by
  constructor
  · exact_mod_cast Nat.log2_self_le positive.ne'
  · exact_mod_cast Nat.lt_log2_self

/-- The scale that the lengths of numerator and denominator suggest, which may be one too large. -/
def estimate (r : Ratio) : Int :=
  (r.num.log2 : Int) - (r.den.log2 : Int) - 52

private theorem estimate_bounds (num : 0 < r.num) (den : 0 < r.den) :
    2 ^ (r.estimate + 51) < r.value ∧ r.value < 2 ^ (r.estimate + 53) := by
  obtain ⟨numLow, numHigh⟩ := log_bounds num
  obtain ⟨denLow, denHigh⟩ := log_bounds den
  have two : (2 : ℚ) ≠ 0 := by norm_num
  have positive : (0 : ℚ) < r.den := by exact_mod_cast den
  constructor
  · have split : (2 : ℚ) ^ (r.estimate + 51) * 2 ^ ((r.den.log2 : Int) + 1) =
        2 ^ (r.num.log2 : Int) := by
      rw [← zpow_add₀ two, estimate]
      congr 1
      omega
    rw [value, lt_div_iff₀ positive]
    calc (2 : ℚ) ^ (r.estimate + 51) * r.den
        < 2 ^ (r.estimate + 51) * 2 ^ ((r.den.log2 : Int) + 1) := by gcongr
      _ = 2 ^ (r.num.log2 : Int) := split
      _ ≤ r.num := numLow
  · have split : (2 : ℚ) ^ (r.estimate + 53) * 2 ^ (r.den.log2 : Int) =
        2 ^ ((r.num.log2 : Int) + 1) := by
      rw [← zpow_add₀ two, estimate]
      congr 1
      omega
    rw [value, div_lt_iff₀ positive]
    calc (r.num : ℚ) < 2 ^ ((r.num.log2 : Int) + 1) := numHigh
      _ = 2 ^ (r.estimate + 53) * 2 ^ (r.den.log2 : Int) := split.symm
      _ ≤ 2 ^ (r.estimate + 53) * r.den := by gcongr

private theorem short_iff (den : 0 < r.den) (scale : Int) :
    r.num * Nat.pow 2 (-scale).toNat < r.den * Nat.pow 2 scale.toNat * Nat.pow 2 52 ↔
      r.value < 2 ^ (scale + 52) := by
  have positive : (0 : ℚ) < r.den := by exact_mod_cast den
  have split : (2 : ℚ) ^ (scale + 52) = 2 ^ scale.toNat * 2 ^ 52 / 2 ^ (-scale).toNat := by
    rw [zpow_add₀ (by norm_num), zpow_eq_div two_pos scale]
    norm_num
    ring
  rw [value, split, div_lt_div_iff₀ positive (by positivity), ← Nat.cast_lt (α := ℚ)]
  simp only [Nat.pow_eq, Nat.cast_mul, Nat.cast_pow, Nat.cast_ofNat]
  rw [mul_comm ((2 : ℚ) ^ scale.toNat * 2 ^ 52), mul_assoc]

/-- The scale leaves a coefficient below `2 ^ 53`, and one of 53 bits unless it is the least. -/
theorem doubleScale_bounds (num : 0 < r.num) (den : 0 < r.den) :
    r.value < 2 ^ (r.doubleScale + 53) ∧
      (r.doubleScale = -1074 ∨ 2 ^ (r.doubleScale + 52) ≤ r.value) := by
  obtain ⟨low, high⟩ := estimate_bounds num den
  have short := short_iff den r.estimate
  have grows {m n : Int} (le : m ≤ n) : (2 : ℚ) ^ m ≤ 2 ^ n := zpow_le_zpow_right₀ (by norm_num) le
  by_cases less : r.value < 2 ^ (r.estimate + 52)
  · have scale : r.doubleScale = max (r.estimate - 1) (-1074) :=
      congrArg (max · (-1074)) (if_pos (short.mpr less))
    rw [scale]
    refine ⟨less.trans_le (grows (by omega)), ?_⟩
    obtain least | least := le_total (r.estimate - 1) (-1074)
    · exact .inl (max_eq_right least)
    · rw [max_eq_left least]
      exact .inr ((grows (by omega)).trans low.le)
  · have scale : r.doubleScale = max r.estimate (-1074) :=
      congrArg (max · (-1074)) (if_neg (mt short.mp less))
    rw [scale]
    refine ⟨high.trans_le (grows (by omega)), ?_⟩
    obtain least | least := le_total r.estimate (-1074)
    · exact .inl (max_eq_right least)
    · rw [max_eq_left least]
      exact .inr (not_lt.mp less)

/-! ## Bits -/

/-- The number as a multiple of its scale. -/
def scaled (r : Ratio) : Ratio :=
  r.mul (ofBinary 1 (-r.doubleScale))

/-- The coefficient that the bits of a positive number are made of. -/
def rounded (r : Ratio) : Nat :=
  r.scaled.round

private theorem magnitudeBits_eq (num : 0 < r.num) :
    r.magnitudeBits = (r.doubleScale + 1074).toNat * 2 ^ 52 + r.rounded := by
  unfold magnitudeBits
  rw [if_neg num.ne']
  rfl

private theorem value_scaled (r : Ratio) : r.scaled.value * 2 ^ r.doubleScale = r.value := by
  rw [scaled, value_mul, value_ofBinary, mul_assoc, Nat.cast_one, one_mul,
    ← zpow_add₀ (by norm_num), neg_add_cancel, zpow_zero, mul_one]

private theorem rounded_bounds (num : 0 < r.num) (den : 0 < r.den) :
    r.rounded ≤ 2 ^ 53 ∧ (r.doubleScale = -1074 ∨ 2 ^ 52 ≤ r.rounded) ∧
      (r.rounded : ℚ) * 2 ^ r.doubleScale ≤ r.value + 2 ^ r.doubleScale / 2 := by
  obtain ⟨high, low⟩ := doubleScale_bounds num den
  have whole := value_scaled r
  have positive : 0 < r.scaled.den := Nat.mul_pos den (Nat.pow_pos (by decide))
  have unit : (0 : ℚ) < 2 ^ r.doubleScale := by positivity
  have split (n : Nat) : (2 : ℚ) ^ (r.doubleScale + n) = 2 ^ n * 2 ^ r.doubleScale := by
    rw [zpow_add₀ (by norm_num), zpow_natCast, mul_comm]
  refine ⟨?_, low.imp_right fun low => ?_, ?_⟩
  · have below : r.scaled.value < 2 ^ 53 := by
      have high : r.scaled.value * 2 ^ r.doubleScale < 2 ^ 53 * 2 ^ r.doubleScale := by
        rw [whole, ← split]
        exact high
      exact lt_of_mul_lt_mul_right high unit.le
    exact round_le positive (by push_cast; linarith)
  · have above : (2 : ℚ) ^ 52 ≤ r.scaled.value := by
      have low : 2 ^ 52 * 2 ^ r.doubleScale ≤ r.scaled.value * 2 ^ r.doubleScale := by
        rw [whole, ← split]
        exact low
      exact le_of_mul_le_mul_right low unit
    exact le_round positive (by push_cast; exact above)
  · have near := (round_near positive).2
    calc (r.rounded : ℚ) * 2 ^ r.doubleScale
        ≤ (r.scaled.value + 1 / 2) * 2 ^ r.doubleScale := by gcongr; exact near
      _ = r.value + 2 ^ r.doubleScale / 2 := by rw [add_mul, whole]; ring

private theorem doubleScale_le (num : 0 < r.num) (den : 0 < r.den) {bound : Int}
    (least : -1074 ≤ bound)
    (small : r.value < 2 ^ (bound + 53)) : r.doubleScale ≤ bound := by
  obtain same | low := (doubleScale_bounds num den).2
  · omega
  · have less := (zpow_lt_zpow_iff_right₀ (by norm_num)).mp (low.trans_lt small)
    omega

/-- Up to the middle between the greatest double and the next power of two, the bits of a number are
those of a finite double. -/
theorem magnitudeBits_lt (den : 0 < r.den) (small : r.value < (2 ^ 53 - 1 / 2) * 2 ^ 971) :
    r.magnitudeBits < 2047 * 2 ^ 52 := by
  obtain none | num := Nat.eq_zero_or_pos r.num
  · rw [magnitudeBits, if_pos none]
    norm_num
  obtain ⟨atMost, -, -⟩ := rounded_bounds num den
  have least := le_doubleScale r
  have scale : r.doubleScale ≤ 971 := by
    have unit : (0 : ℚ) < 2 ^ 971 := by positivity
    have whole : (2 : ℚ) ^ ((971 : Int) + 53) = 2 ^ 971 * 2 ^ 53 := by
      rw [zpow_add₀ (by norm_num)]
      rfl
    refine doubleScale_le num den (by norm_num) (small.trans ?_)
    rw [whole, mul_comm]
    exact mul_lt_mul_of_pos_left (by norm_num) unit
  rw [magnitudeBits_eq num]
  obtain below | greatest := scale.lt_or_eq
  · omega
  · have fits : r.rounded ≤ 2 ^ 53 - 1 := by
      have whole := value_scaled r
      rw [greatest] at whole
      have positive : 0 < r.scaled.den := Nat.mul_pos den (Nat.pow_pos (by decide))
      have less : r.scaled.value < 2 ^ 53 - 1 / 2 := by
        refine lt_of_mul_lt_mul_right (a := (2 : ℚ) ^ (971 : Int)) ?_ (by positivity)
        rw [whole]
        exact_mod_cast small
      exact round_le positive (by norm_num at less ⊢; linarith)
    rw [greatest]
    omega

end Ratio

/-! ## Doubles -/

namespace Double

variable {r : Ratio} {d : Double}

private theorem toNat_signed {magnitude : Nat} (small : magnitude < 2047 * 2 ^ 52)
    (negative : Bool) :
    (UInt64.ofNat ((if negative then Nat.pow 2 63 else 0) + magnitude)).toNat =
      (if negative then Nat.pow 2 63 else 0) + magnitude := by
  refine UInt64.toNat_ofNat_of_lt' ?_
  cases negative <;> simp [UInt64.size] <;> omega

private theorem ofRatio?_isSome (negative : Bool) (den : 0 < r.den)
    (small : r.value < (2 ^ 53 - 1 / 2) * 2 ^ 971) : (ofRatio? negative r).isSome := by
  have bits := Ratio.magnitudeBits_lt den small
  unfold ofRatio?
  dsimp only
  rw [if_pos (by exact bits), ofBits?, dif_pos]
  · rfl
  · rw [toNat_signed bits]
    cases negative <;> simp <;> omega

private theorem value_of_bits {scale : Nat} {coefficient : Nat}
    (bits : d.bits.toNat = scale * 2 ^ 52 + coefficient) (most : coefficient ≤ 2 ^ 53)
    (normal : scale = 0 ∨ 2 ^ 52 ≤ coefficient) (finite : d.bits.toNat < 2047 * 2 ^ 52) :
    d.magnitude.value = coefficient * 2 ^ ((scale : Int) - 1074) := by
  rw [magnitude, Ratio.value_ofBinary]
  obtain full | carried := most.lt_or_eq
  · by_cases subnormal : coefficient < 2 ^ 52
    · obtain rfl : scale = 0 := by omega
      have field : d.exponentField = 0 := by
        simp only [exponentField, Nat.pow_eq]
        omega
      have fraction : d.fraction = coefficient := by
        simp only [Double.fraction, Nat.pow_eq]
        omega
      simp [Double.coefficient, Double.scale, field, fraction]
    · have field : d.exponentField = scale + 1 := by
        simp only [exponentField, Nat.pow_eq]
        omega
      have whole : d.coefficient = coefficient := by
        rw [Double.coefficient, field, if_neg (by omega)]
        simp only [Double.fraction, Nat.pow_eq]
        omega
      have exponent : d.scale = (scale : Int) - 1074 := by
        simp only [Double.scale, field]
        omega
      rw [whole, exponent]
  · -- A coefficient that was rounded up to `2 ^ 53` has carried into the exponent.
    have field : d.exponentField = scale + 2 := by
      simp only [exponentField, Nat.pow_eq]
      omega
    have half : d.coefficient = 2 ^ 52 := by
      rw [Double.coefficient, field, if_neg (by omega)]
      simp only [Double.fraction, Nat.pow_eq]
      omega
    have exponent : d.scale = (scale : Int) - 1074 + 1 := by
      simp only [Double.scale, field]
      omega
    rw [half, exponent, carried, zpow_add₀ (by norm_num)]
    push_cast
    ring

private theorem value_ofRatio? (num : 0 < r.num) (den : 0 < r.den)
    (found : ofRatio? false r = some d) :
    d.magnitude.value = r.rounded * 2 ^ r.doubleScale := by
  simp only [ofRatio?, Bool.false_eq_true, if_false, Nat.zero_add] at found
  split at found
  next small =>
    have bits : d.bits.toNat = r.magnitudeBits := by
      unfold ofBits? at found
      split at found
      next =>
        cases found
        have whole := toNat_signed small false
        rwa [if_neg nofun, Nat.zero_add] at whole
      next => cases found
    have small : d.bits.toNat < 2047 * 2 ^ 52 := bits ▸ small
    obtain ⟨most, normal, -⟩ := Ratio.rounded_bounds num den
    have least := Ratio.le_doubleScale r
    rw [Ratio.magnitudeBits_eq num] at bits
    have scale : ((r.doubleScale + 1074).toNat : Int) - 1074 = r.doubleScale := by omega
    rw [value_of_bits bits most (by omega) small, scale]
  next => cases found

private theorem den_magnitude (d : Double) : 0 < d.magnitude.den :=
  Nat.pow_pos (by decide)

section

variable (num : 0 < r.num) (den : 0 < r.den) (found : ofRatio? false r = some d)
include num den found

private theorem value_le_twice : d.magnitude.value ≤ 2 * r.value + 1 := by
  rw [value_ofRatio? num den found]
  obtain ⟨-, -, near⟩ := Ratio.rounded_bounds num den
  have nonneg : 0 ≤ r.value := by unfold Ratio.value; positivity
  obtain least | low := (Ratio.doubleScale_bounds num den).2
  · have unit : (2 : ℚ) ^ r.doubleScale ≤ 1 := by
      rw [least]
      exact zpow_le_one_of_nonpos₀ (by norm_num) (by norm_num)
    linarith
  · have unit : (2 : ℚ) ^ r.doubleScale ≤ 2 ^ (r.doubleScale + 52) :=
      zpow_le_zpow_right₀ (by norm_num) (by omega)
    linarith

variable (one : 1 ≤ r.value)
include one

private theorem one_le_value : 1 ≤ d.magnitude.value := by
  rw [value_ofRatio? num den found]
  obtain ⟨high, -⟩ := Ratio.doubleScale_bounds num den
  obtain ⟨-, normal, -⟩ := Ratio.rounded_bounds num den
  have scale : -52 ≤ r.doubleScale := by
    have large : (2 : ℚ) ^ (0 : Int) < 2 ^ (r.doubleScale + 53) := by
      rw [zpow_zero]
      exact one.trans_lt high
    have := (zpow_lt_zpow_iff_right₀ (by norm_num)).mp large
    omega
  have filled : ((2 ^ 52 : Nat) : ℚ) ≤ r.rounded := by
    exact_mod_cast normal.resolve_left (by omega)
  calc (1 : ℚ) = (2 ^ 52 : Nat) * 2 ^ (-52 : Int) := by norm_num
    _ ≤ r.rounded * 2 ^ r.doubleScale := by
      gcongr
      norm_num

/-- A double is above the number that was rounded to it by at most half a unit in its last place. -/
theorem value_le : d.magnitude.value ≤ r.value * (1 + 1 / 2 ^ 53) := by
  rw [value_ofRatio? num den found]
  obtain ⟨-, -, near⟩ := Ratio.rounded_bounds num den
  have unit : (2 : ℚ) ^ (r.doubleScale + 52) ≤ r.value := by
    obtain least | low := (Ratio.doubleScale_bounds num den).2
    · rw [least]
      exact (zpow_le_one_of_nonpos₀ (by norm_num) (by norm_num)).trans one
    · exact low
  rw [zpow_add₀ (by norm_num)] at unit
  norm_num at unit ⊢
  linarith

end

/-! ## Decimals -/

/-- The middle between the greatest double and the next power of two. -/
def limit : ℚ :=
  (2 ^ 53 - 1 / 2) * 2 ^ 971

private theorem natCast_lt_limit {n : Nat} (small : 2 * n < (2 ^ 54 - 1) * 2 ^ 971) :
    (n : ℚ) < limit := by
  have cast : (2 * n : ℚ) < ((2 ^ 54 - 1 : Nat) : ℚ) * 2 ^ 971 := by exact_mod_cast small
  unfold limit
  generalize (2 : ℚ) ^ 971 = unit at cast ⊢
  push_cast at cast
  norm_num at cast ⊢
  linarith

private theorem value_natCast (n : Nat) : Ratio.value ⟨n, 1⟩ = n := by
  simp [Ratio.value]

/-- A double next to a positive natural number. -/
structure Nears (d : Double) (n : Nat) : Prop where
  one : 1 ≤ d.magnitude.value
  above : d.magnitude.value ≤ n * (1 + 1 / 2 ^ 53)

private theorem ofRatio?_natCast {n : Nat} (positive : 0 < n)
    (small : 2 * n < (2 ^ 54 - 1) * 2 ^ 971) :
    ∃ d, ofRatio? false ⟨n, 1⟩ = some d ∧ Nears d n := by
  have value := value_natCast n
  obtain ⟨d, found⟩ := Option.isSome_iff_exists.mp
    (ofRatio?_isSome false (r := ⟨n, 1⟩) Nat.one_pos (value ▸ natCast_lt_limit small))
  have one : (1 : ℚ) ≤ Ratio.value ⟨n, 1⟩ := by
    rw [value]
    exact_mod_cast positive
  have above := value_le positive Nat.one_pos found one
  rw [value] at above
  exact ⟨d, found, one_le_value positive Nat.one_pos found one, above⟩

private theorem powerOfTen_nears {exponent : Nat} (fits : exponent ≤ maxPowerOfTen) :
    ∃ power, powerOfTen exponent = some power ∧ Nears power (10 ^ exponent) := by
  have greatest : 2 * Nat.pow 10 maxPowerOfTen < (2 ^ 54 - 1) * 2 ^ 971 := by decide +kernel
  have small {most : Nat} (fits : exponent ≤ most) : Nat.pow 10 exponent ≤ Nat.pow 10 most :=
    Nat.pow_le_pow_right (by decide) fits
  have within := (Nat.mul_le_mul_left 2 (small fits)).trans_lt greatest
  exact ofRatio?_natCast (Nat.pow_pos (by decide)) within

private theorem scaleUp?_isSome (negative : Bool) {d : Double} {exponent : Nat}
    (fits : exponent ≤ maxPowerOfTen)
    (small : d.magnitude.value * (10 ^ exponent * (1 + 1 / 2 ^ 53)) < limit) :
    (scaleUp? negative d exponent).isSome := by
  obtain ⟨power, found, nears⟩ := powerOfTen_nears fits
  simp only [scaleUp?, found, bind, Option.bind]
  refine ofRatio?_isSome negative (Nat.mul_pos d.den_magnitude power.den_magnitude) ?_
  rw [Ratio.value_mul]
  have nonneg : 0 ≤ d.magnitude.value := by unfold Ratio.value; positivity
  have above := nears.above
  push_cast at above
  exact (mul_le_mul_of_nonneg_left above nonneg).trans_lt small

private theorem value_div_le {d power : Double} (one : 1 ≤ power.magnitude.value) :
    0 < (d.magnitude.div power.magnitude).den ∧
      (d.magnitude.div power.magnitude).value ≤ d.magnitude.value := by
  have nonneg : 0 ≤ d.magnitude.value := by unfold Ratio.value; positivity
  constructor
  · refine Nat.mul_pos d.den_magnitude (Nat.pos_of_ne_zero fun none => ?_)
    rw [Ratio.value, none] at one
    norm_num at one
  · rw [Ratio.value_div]
    exact div_le_self nonneg one

private theorem scaleDown?_isSome (negative : Bool) {d : Double} {exponent : Nat}
    (fits : exponent ≤ maxPowerOfTen) (small : d.magnitude.value < limit) :
    (scaleDown? negative d exponent).isSome := by
  obtain ⟨power, found, nears⟩ := powerOfTen_nears fits
  obtain ⟨den, le⟩ := value_div_le (d := d) nears.one
  simp only [scaleDown?, found, bind, Option.bind]
  exact ofRatio?_isSome negative den (le.trans_lt small)

private theorem scaleDown?_le {d lowered : Double} {exponent : Nat}
    (fits : exponent ≤ maxPowerOfTen)
    (one : 1 ≤ d.magnitude.value) (found : scaleDown? false d exponent = some lowered) :
    lowered.magnitude.value ≤ 2 * d.magnitude.value + 1 := by
  obtain ⟨power, powered, nears⟩ := powerOfTen_nears fits
  obtain ⟨den, le⟩ := value_div_le (d := d) nears.one
  simp only [scaleDown?, powered, bind, Option.bind] at found
  have num : 0 < (d.magnitude.div power.magnitude).num := by
    refine Nat.mul_pos (Nat.pos_of_ne_zero fun none => ?_) power.den_magnitude
    rw [Ratio.value, none] at one
    norm_num at one
  have twice := value_le_twice num den found
  linarith

private theorem ten_pow_lt_limit {exponent : Nat} (small : (10 : ℚ) ^ exponent < limit) :
    exponent ≤ maxPowerOfTen := by
  by_contra large
  have most : (10 : ℚ) ^ (maxPowerOfTen + 1) ≤ 10 ^ exponent :=
    pow_le_pow_right₀ (by norm_num) (by omega)
  have beyond : limit ≤ 10 ^ (maxPowerOfTen + 1) := by
    have cast : (2 ^ 53 * 2 ^ 971 : ℚ) ≤ 10 ^ (maxPowerOfTen + 1) := by
      exact_mod_cast (by decide +kernel : 2 ^ 53 * 2 ^ 971 ≤ 10 ^ (maxPowerOfTen + 1))
    refine le_trans ?_ cast
    unfold limit
    gcongr
    norm_num
  linarith

/-- A decimal that is below the limit, with some room for rounding three times, has a double. -/
theorem ofDecimal?_isSome (negative : Bool) {significand : Nat} {exponent : Int}
    (fits : significand < 2 ^ 64)
    (small : (significand : ℚ) * 10 ^ exponent * (1 + 1 / 2 ^ 53) ^ 2 < limit) :
    (ofDecimal? negative significand exponent).isSome := by
  unfold ofDecimal?
  by_cases zero : significand = 0
  · rw [if_pos zero]
    rfl
  have positive : 0 < significand := Nat.pos_of_ne_zero zero
  obtain ⟨start, found, nears⟩ := ofRatio?_natCast positive
    (by have : 2 ^ 65 < (2 ^ 54 - 1) * 2 ^ 971 := by decide +kernel
        omega)
  have room : start.magnitude.value ≤ 2 ^ 65 := by
    have cast : (significand : ℚ) ≤ 2 ^ 64 := by exact_mod_cast fits.le
    calc start.magnitude.value ≤ significand * (1 + 1 / 2 ^ 53) := nears.above
      _ ≤ 2 ^ 64 * (1 + 1 / 2 ^ 53) := by gcongr
      _ ≤ 2 ^ 65 := by norm_num
  have large : (2 ^ 67 : ℚ) < limit := by
    exact_mod_cast natCast_lt_limit (n := 2 ^ 67) (by decide +kernel)
  rw [if_neg zero]
  simp only [found, bind, Option.bind]
  split
  next up =>
    have size : exponent = (exponent.natAbs : Int) := by omega
    rw [size, zpow_natCast] at small
    have one : (1 : ℚ) ≤ significand := by exact_mod_cast positive
    have within : exponent.natAbs ≤ maxPowerOfTen := by
      refine ten_pow_lt_limit (lt_of_le_of_lt ?_ small)
      calc (10 : ℚ) ^ exponent.natAbs = 1 * 10 ^ exponent.natAbs * 1 ^ 2 := by ring
        _ ≤ significand * 10 ^ exponent.natAbs * (1 + 1 / 2 ^ 53) ^ 2 := by
          gcongr
          norm_num
    rw [if_pos within]
    refine scaleUp?_isSome negative within (lt_of_le_of_lt ?_ small)
    calc start.magnitude.value * (10 ^ exponent.natAbs * (1 + 1 / 2 ^ 53))
        ≤ (significand : ℚ) * (1 + 1 / 2 ^ 53) * (10 ^ exponent.natAbs * (1 + 1 / 2 ^ 53)) := by
          gcongr
          exact nears.above
      _ = (significand : ℚ) * 10 ^ exponent.natAbs * (1 + 1 / 2 ^ 53) ^ 2 := by ring
  next =>
    split
    next within =>
      exact scaleDown?_isSome negative within (by linarith)
    next =>
      split
      next twice =>
        have below : start.magnitude.value < limit := by linarith
        obtain ⟨lowered, lower⟩ := Option.isSome_iff_exists.mp
          (scaleDown?_isSome false (le_refl maxPowerOfTen) below)
        have atMost := scaleDown?_le (le_refl maxPowerOfTen) nears.one lower
        rw [lower]
        refine scaleDown?_isSome negative (by omega) ?_
        linarith
      next => rfl

end Double

end Airlock
