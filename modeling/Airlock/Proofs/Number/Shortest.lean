import Airlock.Number.Notation
import Airlock.Proofs.Number.Rounding

/-!
# Bounds of the shortest decimal

The decimal that a double is written as has a value within the interval of numbers that round to the
double. Its digits do not begin with a zero.
-/

set_option autoImplicit false

namespace Airlock.Double

/-! ## Digits -/

theorem digit_bounds {c : Char} (digit : c.isDigit = true) :
    '0'.toNat ≤ c.toNat ∧ c.toNat ≤ '9'.toNat := by
  simpa [Char.isDigit, UInt32.le_iff_toNat_le] using digit

private theorem digit_lt {c : Char} (digit : c.isDigit = true) : c.toNat - '0'.toNat < 10 := by
  obtain ⟨low, high⟩ := digit_bounds digit
  have nine : '9'.toNat = '0'.toNat + 9 := rfl
  omega

theorem ofDigitChars_lt {digits : List Char} (all : ∀ c ∈ digits, c.isDigit = true) :
    Nat.ofDigitChars 10 digits 0 < 10 ^ digits.length := by
  induction digits with
  | nil => exact Nat.one_pos
  | cons c digits ih =>
    have less := ih fun other inside => all other (List.mem_cons_of_mem _ inside)
    have digit := digit_lt (all c List.mem_cons_self)
    rw [Nat.ofDigitChars_cons, Nat.ofDigitChars_eq_ofDigitChars_zero, List.length_cons,
      Nat.pow_succ]
    nlinarith

private theorem toDigits_bounds {n : Nat} (positive : 0 < n) :
    10 ^ ((Nat.toDigits 10 n).length - 1) ≤ n ∧ n < 10 ^ (Nat.toDigits 10 n).length := by
  have filled : 0 < (Nat.toDigits 10 n).length := Nat.length_toDigits_pos
  refine ⟨?_, (Nat.length_toDigits_le_iff (by decide) filled).mp (Nat.le_refl _)⟩
  by_contra small
  obtain single | more := Nat.eq_zero_or_pos ((Nat.toDigits 10 n).length - 1)
  · rw [single] at small
    omega
  · have shorter := (Nat.length_toDigits_le_iff (by decide) more).mpr (Nat.not_le.mp small)
    omega

theorem toDigits_head {n : Nat} (positive : 0 < n) :
    ∃ c rest, Nat.toDigits 10 n = c :: rest ∧ c ≠ '0' := by
  cases digits : Nat.toDigits 10 n with
  | nil => exact absurd digits Nat.toDigits_ne_nil
  | cons c rest =>
    refine ⟨c, rest, rfl, ?_⟩
    rintro rfl
    have all : ∀ c ∈ rest, c.isDigit = true := fun c inside =>
      Nat.isDigit_of_mem_toDigits (n := n) (by decide) (by decide)
        (digits ▸ List.mem_cons_of_mem _ inside)
    have value : Nat.ofDigitChars 10 (Nat.toDigits 10 n) 0 = n := Nat.ofDigitChars_ten_toDigits
    have least := (toDigits_bounds positive).1
    rw [digits, Nat.ofDigitChars_cons] at value
    rw [digits, List.length_cons, Nat.add_sub_cancel] at least
    have less := ofDigitChars_lt all
    simp at value
    omega

/-- Without its last zeros a number is written as a shorter one. -/
theorem toDigits_strip {n : Nat} (positive : 0 < n) :
    ∃ m zeros, 0 < m ∧ n = m * 10 ^ zeros ∧
      ((Nat.toDigits 10 n).reverse.dropWhile (· = '0')).reverse = Nat.toDigits 10 m ∧
      (Nat.toDigits 10 n).length = (Nat.toDigits 10 m).length + zeros := by
  induction n using Nat.strongRecOn with
  | _ n ih =>
    by_cases last : n % 10 = 0
    · obtain ⟨m, zeros, some, same, strip, length⟩ := ih (n / 10) (by omega) (by omega)
      have split : Nat.toDigits 10 n = Nat.toDigits 10 (n / 10) ++ ['0'] := by
        rw [Nat.toDigits_of_base_le (by decide) (by omega), last]
        rfl
      refine ⟨m, zeros + 1, some, ?_, ?_, ?_⟩
      · rw [Nat.pow_succ, ← Nat.mul_assoc, ← same]
        omega
      · rw [split, List.reverse_append]
        exact strip
      · rw [split, List.length_append, length]
        rfl
    · refine ⟨n, 0, positive, by simp, ?_, rfl⟩
      have visible : ∀ d < 10, d ≠ 0 → Nat.digitChar d ≠ '0' := by decide
      have kept := visible (n % 10) (by omega) last
      obtain ⟨before, split⟩ :
          ∃ before, Nat.toDigits 10 n = before ++ [Nat.digitChar (n % 10)] := by
        by_cases small : n < 10
        · exact ⟨[], by rw [Nat.toDigits_of_lt_base small, Nat.mod_eq_of_lt small]; rfl⟩
        · exact ⟨_, Nat.toDigits_of_base_le (by decide) (by omega)⟩
      rw [split, List.reverse_append, List.reverse_singleton, List.singleton_append,
        List.dropWhile_cons_of_neg (by simpa using kept), List.reverse_cons, List.reverse_reverse]

/-! ## The decimal of a double -/

def Decimal.value (decimal : Decimal) : ℚ :=
  Nat.ofDigitChars 10 decimal.digits 0 * 10 ^ (decimal.point - decimal.digits.length)

/-- The value lies in the interval of numbers that round to the double, ends included. -/
structure Rounding.Holds (d : Double) (value : ℚ) : Prop where
  low : d.rounding.low * 2 ^ (d.scale - 2) ≤ value
  high : value ≤ d.rounding.high * 2 ^ (d.scale - 2)

private theorem admits_holds {d : Double} {exponent : Int} {candidate : Nat}
    (admitted : d.rounding.admits (Nat.pow 2 (d.scale - 2).toNat * Nat.pow 10 (-exponent).toNat)
      (Nat.pow 2 (2 - d.scale).toNat * Nat.pow 10 exponent.toNat) candidate = true) :
    Rounding.Holds d (candidate * 10 ^ exponent) := by
  have opposite : -(d.scale - 2) = 2 - d.scale := by omega
  have two := Ratio.zpow_eq_div two_pos (d.scale - 2)
  have ten := Ratio.zpow_eq_div (by norm_num : (0 : ℚ) < 10) exponent
  rw [opposite] at two
  obtain ⟨low, high⟩ :
      d.rounding.low * (2 ^ (d.scale - 2).toNat * 10 ^ (-exponent).toNat) ≤
          candidate * (2 ^ (2 - d.scale).toNat * 10 ^ exponent.toNat) ∧
        candidate * (2 ^ (2 - d.scale).toNat * 10 ^ exponent.toNat) ≤
          d.rounding.high * (2 ^ (d.scale - 2).toNat * 10 ^ (-exponent).toNat) := by
    unfold Rounding.admits at admitted
    split at admitted
    · exact of_decide_eq_true admitted
    · exact (of_decide_eq_true admitted).imp Nat.le_of_lt Nat.le_of_lt
  have lowCast : (d.rounding.low : ℚ) * (2 ^ (d.scale - 2).toNat * 10 ^ (-exponent).toNat) ≤
      candidate * (2 ^ (2 - d.scale).toNat * 10 ^ exponent.toNat) := by exact_mod_cast low
  have highCast : (candidate : ℚ) * (2 ^ (2 - d.scale).toNat * 10 ^ exponent.toNat) ≤
      d.rounding.high * (2 ^ (d.scale - 2).toNat * 10 ^ (-exponent).toNat) := by
    exact_mod_cast high
  constructor
  · rw [two, ten, ← mul_div_assoc, ← mul_div_assoc,
      div_le_div_iff₀ (by positivity) (by positivity), mul_assoc, mul_assoc,
      mul_comm ((10 : ℚ) ^ exponent.toNat)]
    exact lowCast
  · rw [two, ten, ← mul_div_assoc, ← mul_div_assoc,
      div_le_div_iff₀ (by positivity) (by positivity), mul_assoc, mul_assoc,
      mul_comm ((10 : ℚ) ^ exponent.toNat)]
    exact highCast

/-- What is chosen among the decimals of one length is admitted. -/
theorem ofLength?_chosen {d : Double} {leading : Int} {count : Nat} {decimal : Decimal}
    (found : d.ofLength? leading count = some decimal) :
    ∃ (chosen : Nat) (exponent : Int), Rounding.Holds d (chosen * 10 ^ exponent) ∧
      decimal.digits =
        ((Nat.toDigits 10 chosen).reverse.dropWhile (· = '0')).reverse ∧
      decimal.point = (Nat.toDigits 10 chosen).length + exponent := by
  simp only [ofLength?, Option.map_eq_some_iff] at found
  obtain ⟨chosen, choice, rfl⟩ := found
  refine ⟨chosen, _, admits_holds ?_, rfl, rfl⟩
  generalize d.rounding.value * _ / _ = below at choice
  split at choice
  next belowHolds aboveHolds =>
    split at choice
    · cases choice
      exact belowHolds
    · split at choice
      · cases choice
        exact aboveHolds
      · cases choice
        obtain even | odd := Nat.mod_two_eq_zero_or_one below
        · rw [even]
          exact belowHolds
        · rw [odd]
          exact aboveHolds
  next belowHolds _ =>
    cases choice
    exact belowHolds
  next _ aboveHolds =>
    cases choice
    exact aboveHolds
  next => cases choice

private theorem low_pos {d : Double} (nonzero : 0 < d.coefficient) : 1 ≤ d.rounding.low := by
  unfold rounding
  dsimp only
  split <;> omega

private theorem ofLength?_proper {d : Double} {leading : Int} {count : Nat} {decimal : Decimal}
    (nonzero : 0 < d.coefficient) (found : d.ofLength? leading count = some decimal) :
    (∃ n, 0 < n ∧ decimal.digits = Nat.toDigits 10 n) ∧ Rounding.Holds d decimal.value := by
  obtain ⟨chosen, exponent, holds, digits, point⟩ := ofLength?_chosen found
  have positive : 0 < chosen := by
    have least : (1 : ℚ) ≤ d.rounding.low := by exact_mod_cast low_pos nonzero
    have unit : (0 : ℚ) < 2 ^ (d.scale - 2) := by positivity
    have some : (0 : ℚ) < chosen * 10 ^ exponent :=
      lt_of_lt_of_le (by positivity) holds.low
    exact_mod_cast pos_of_mul_pos_left some (by positivity)
  obtain ⟨n, zeros, some, whole, strip, length⟩ := toDigits_strip positive
  rw [strip] at digits
  refine ⟨⟨n, some, digits⟩, ?_⟩
  have value : decimal.value = chosen * 10 ^ exponent := by
    have split : decimal.point - decimal.digits.length = zeros + exponent := by
      rw [digits, point, length]
      push_cast
      ring
    rw [Decimal.value, split, digits, Nat.ofDigitChars_ten_toDigits, whole,
      zpow_add₀ (by norm_num)]
    push_cast
    rw [zpow_natCast]
    ring
  rw [value]
  exact holds

/-! ## Bounds -/

private theorem coefficient_lt (d : Double) : d.coefficient < 2 ^ 53 := by
  have fraction : d.fraction < 2 ^ 52 := Nat.mod_lt _ (by decide)
  unfold coefficient
  split
  · omega
  · simp only [Nat.pow_eq]
    omega

private theorem scale_bounds (d : Double) : -1074 ≤ d.scale ∧ d.scale ≤ 971 := by
  have finite : d.exponentField < 2047 := d.finite
  unfold scale
  split <;> omega

private theorem high_eq (d : Double) : d.rounding.high = 4 * d.coefficient + 2 := rfl

/-- The greatest double and the one below it are too near to the limit for the general bound. -/
def Ordinary (d : Double) : Prop :=
  d.scale < 971 ∨ d.coefficient ≤ 2 ^ 53 - 3

theorem Rounding.Holds.lt_limit {d : Double} {value : ℚ} (holds : Rounding.Holds d value)
    (ordinary : d.Ordinary) : value * (1 + 1 / 2 ^ 53) ^ 2 < limit := by
  obtain ⟨unit, same⟩ : ∃ unit : ℚ, unit = 2 ^ 968 := ⟨_, rfl⟩
  have positive : 0 < unit := by
    rw [same]
    positivity
  have top : limit = (2 ^ 53 - 1 / 2) * (2 ^ 3 * unit) := by
    rw [limit, same]
    exact congrArg _ (pow_add (2 : ℚ) 3 968)
  have most : value ≤ (2 ^ 53 - 5 / 2) * (2 ^ 3 * unit) := by
    refine holds.high.trans ?_
    rw [high_eq]
    by_cases below : d.scale < 971
    · have step : (2 : ℚ) ^ (d.scale - 2) ≤ unit := by
        rw [same, ← zpow_natCast]
        exact zpow_le_zpow_right₀ (by norm_num) (by omega)
      have coefficient : ((4 * d.coefficient + 2 : Nat) : ℚ) ≤ 4 * 2 ^ 53 := by
        have less := coefficient_lt d
        exact_mod_cast (by omega : 4 * d.coefficient + 2 ≤ 4 * 2 ^ 53)
      calc ((4 * d.coefficient + 2 : Nat) : ℚ) * 2 ^ (d.scale - 2)
          ≤ 4 * 2 ^ 53 * unit := by gcongr
        _ ≤ (2 ^ 53 - 5 / 2) * 2 ^ 3 * unit := mul_le_mul_of_nonneg_right (by norm_num) positive.le
        _ = (2 ^ 53 - 5 / 2) * (2 ^ 3 * unit) := by ring
    · have step : (2 : ℚ) ^ (d.scale - 2) = 2 * unit := by
        have scale : d.scale - 2 = (1 + 968 : Nat) := by
          have := (scale_bounds d).2
          omega
        rw [same, scale, zpow_natCast, pow_add, pow_one]
      have coefficient : ((4 * d.coefficient + 2 : Nat) : ℚ) ≤ (2 ^ 53 - 5 / 2) * 4 := by
        have fewer := ordinary.resolve_left below
        have whole : ((4 * d.coefficient + 2 : Nat) : ℚ) ≤ ((4 * (2 ^ 53 - 3) + 2 : Nat) : ℚ) := by
          exact_mod_cast (by omega)
        refine whole.trans ?_
        norm_num
      calc ((4 * d.coefficient + 2 : Nat) : ℚ) * 2 ^ (d.scale - 2)
          ≤ (2 ^ 53 - 5 / 2) * 4 * (2 * unit) := by
            rw [step]
            gcongr
        _ = (2 ^ 53 - 5 / 2) * (2 ^ 3 * unit) := by ring
  rw [top]
  calc value * (1 + 1 / 2 ^ 53) ^ 2
      ≤ (2 ^ 53 - 5 / 2) * (2 ^ 3 * unit) * (1 + 1 / 2 ^ 53) ^ 2 := by gcongr
    _ = (2 ^ 53 - 5 / 2) * (1 + 1 / 2 ^ 53) ^ 2 * (2 ^ 3 * unit) := by ring
    _ < (2 ^ 53 - 1 / 2) * (2 ^ 3 * unit) := by
      gcongr
      norm_num

private theorem Rounding.Holds.between {d : Double} {value : ℚ} (holds : Rounding.Holds d value)
    (nonzero : 0 < d.coefficient) : 2 ^ (-1076 : Int) ≤ value ∧ value ≤ 2 ^ (1025 : Int) := by
  obtain ⟨scaleLow, scaleHigh⟩ := scale_bounds d
  constructor
  · have one : (1 : ℚ) ≤ d.rounding.low := by exact_mod_cast low_pos nonzero
    have step : (0 : ℚ) ≤ 2 ^ (d.scale - 2) := by positivity
    calc (2 : ℚ) ^ (-1076 : Int) ≤ 2 ^ (d.scale - 2) :=
          zpow_le_zpow_right₀ (by norm_num) (by omega)
      _ ≤ d.rounding.low * 2 ^ (d.scale - 2) := le_mul_of_one_le_left step one
      _ ≤ value := holds.low
  · have coefficient : ((4 * d.coefficient + 2 : Nat) : ℚ) ≤ 2 ^ (56 : Int) := by
      have less := coefficient_lt d
      exact_mod_cast (by omega : 4 * d.coefficient + 2 ≤ 2 ^ 56)
    refine holds.high.trans ?_
    rw [high_eq]
    calc ((4 * d.coefficient + 2 : Nat) : ℚ) * 2 ^ (d.scale - 2)
        ≤ 2 ^ (56 : Int) * 2 ^ (969 : Int) := by
          gcongr
          · norm_num
          · omega
      _ = 2 ^ (1025 : Int) := (zpow_add₀ (by norm_num) 56 969).symm

namespace Decimal

variable {decimal : Decimal} {n : Nat}

theorem isDigit_of_mem (digits : decimal.digits = Nat.toDigits 10 n) {c : Char}
    (inside : c ∈ decimal.digits) : c.isDigit = true :=
  Nat.isDigit_of_mem_toDigits (by decide) (by decide) (digits ▸ inside)

theorem ofDigitChars_digits (digits : decimal.digits = Nat.toDigits 10 n) :
    Nat.ofDigitChars 10 decimal.digits 0 = n := by
  rw [digits, Nat.ofDigitChars_ten_toDigits]

theorem value_eq_mul (digits : decimal.digits = Nat.toDigits 10 n) :
    decimal.value = n * 10 ^ (decimal.point - decimal.digits.length) := by
  rw [Decimal.value, ofDigitChars_digits digits]

/-- The point tells which powers of ten the value is between. -/
theorem value_between (positive : 0 < n) (digits : decimal.digits = Nat.toDigits 10 n) :
    10 ^ (decimal.point - 1) ≤ decimal.value ∧ decimal.value < 10 ^ decimal.point := by
  obtain ⟨least, most⟩ := toDigits_bounds positive
  have filled : 0 < (Nat.toDigits 10 n).length := Nat.length_toDigits_pos
  rw [value_eq_mul digits, digits]
  generalize (Nat.toDigits 10 n).length = length at *
  have unit : (0 : ℚ) < 10 ^ (decimal.point - length) := by positivity
  have ten : (10 : ℚ) ≠ 0 := by norm_num
  constructor
  · have leastCast : (10 : ℚ) ^ ((length : Int) - 1) ≤ n := by
      have exponent : (length : Int) - 1 = (length - 1 : Nat) := by omega
      rw [exponent, zpow_natCast]
      exact_mod_cast least
    have split : decimal.point - 1 = (length : Int) - 1 + (decimal.point - length) := by omega
    rw [split, zpow_add₀ ten]
    gcongr
  · have mostCast : (n : ℚ) < 10 ^ (length : Int) := by exact_mod_cast most
    have split : decimal.point = (length : Int) + (decimal.point - length) := by omega
    calc n * (10 : ℚ) ^ (decimal.point - length)
        < 10 ^ (length : Int) * 10 ^ (decimal.point - length) := by gcongr
      _ = 10 ^ decimal.point := by rw [← zpow_add₀ ten, ← split]

end Decimal

theorem point_bounds {d : Double} {decimal : Decimal}
    (proper : ∃ n, 0 < n ∧ decimal.digits = Nat.toDigits 10 n)
    (nonzero : 0 < d.coefficient) (holds : Rounding.Holds d decimal.value) :
    -1100 < decimal.point ∧ decimal.point < 1100 := by
  obtain ⟨n, positive, digits⟩ := proper
  obtain ⟨lower, upper⟩ := Decimal.value_between positive digits
  obtain ⟨least, most⟩ := holds.between nonzero
  constructor
  · by_contra small
    have tiny : (10 : ℚ) ^ decimal.point ≤ 2 ^ (-1076 : Int) := by
      calc (10 : ℚ) ^ decimal.point ≤ 10 ^ (-1076 : Int) :=
            zpow_le_zpow_right₀ (by norm_num) (by omega)
        _ = ((10 : ℚ) ^ 1076)⁻¹ := zpow_neg_coe_of_pos 10 (by decide)
        _ ≤ ((2 : ℚ) ^ 1076)⁻¹ := by gcongr; norm_num
        _ = 2 ^ (-1076 : Int) := (zpow_neg_coe_of_pos 2 (by decide)).symm
    linarith
  · by_contra large
    have huge : (2 : ℚ) ^ (1025 : Int) < 10 ^ (decimal.point - 1) := by
      calc (2 : ℚ) ^ (1025 : Int) < 2 ^ (1099 : Int) :=
            zpow_lt_zpow_right₀ (by norm_num) (by norm_num)
        _ = (2 : ℚ) ^ 1099 := zpow_natCast 2 1099
        _ ≤ (10 : ℚ) ^ 1099 := by gcongr; norm_num
        _ = 10 ^ (1099 : Int) := (zpow_natCast 10 1099).symm
        _ ≤ 10 ^ (decimal.point - 1) := zpow_le_zpow_right₀ (by norm_num) (by omega)
    linarith

/-- The decimal of a double: a single zero, or digits that do not begin with one. -/
theorem shortest_cases (d : Double) :
    d.shortest = ⟨['0'], 1⟩ ∨
      0 < d.coefficient ∧ (∃ n, 0 < n ∧ d.shortest.digits = Nat.toDigits 10 n) ∧
        Rounding.Holds d d.shortest.value := by
  unfold shortest
  split
  next => exact .inl rfl
  next nonzero =>
    dsimp only
    cases found : ((List.range 17).map (· + 1)).findSome?
        (d.ofLength? (leadingExponent d.magnitude)) with
    | none => exact .inl rfl
    | some decimal =>
      obtain ⟨count, -, chosen⟩ := List.exists_of_findSome?_eq_some found
      exact .inr ⟨Nat.pos_of_ne_zero nonzero,
        ofLength?_proper (Nat.pos_of_ne_zero nonzero) chosen⟩

end Airlock.Double
