import Airlock.Proofs.Json.Numbers
import Airlock.Proofs.Number.Shortest

/-!
# Doubles read from their own text

The text of every double is read as some double. It need not be the same one, because a decimal is
rounded more than once on the way; but no text of a double is refused for its size. What the scan
gathers from a text is at most what the text says, and that is below the limit, but for the two
greatest doubles of either sign, whose texts are read one by one.
-/

set_option autoImplicit false

namespace Airlock.Json.NumberScan

open Text (Utf8.encode)

variable {negative : Bool} {digits : List Char}

/-! ## Digits -/

theorem digit_byte {c : Char} (digit : c.isDigit = true) :
    c.toNat < 0x80 ∧ isDigitByte (byte c) = true ∧ digitOf (byte c) = c.toNat - '0'.toNat := by
  obtain ⟨low, high⟩ : 48 ≤ c.toNat ∧ c.toNat ≤ 57 := Double.digit_bounds digit
  have size : (byte c).toNat = c.toNat :=
    UInt8.toNat_ofNat_of_lt' (Nat.lt_of_le_of_lt high (by decide))
  refine ⟨by omega, ?_, ?_⟩
  · rw [isDigitByte, Bool.and_eq_true, decide_eq_true_eq, decide_eq_true_eq,
      UInt8.le_iff_toNat_le, UInt8.le_iff_toNat_le, size]
    exact ⟨low, high⟩
  · rw [digitOf, size]
    rfl

theorem over?_more {scan next : NumberScan} {b : UInt8} (taken : scan.step b = .more next)
    (rest : Bytes) : scan.over? (b :: rest) = next.over? rest := by
  simp only [over?, taken]

/-- Digits on top of a number make it no smaller. -/
theorem le_ofDigitChars (digits : List Char) (n : Nat) : n ≤ Nat.ofDigitChars 10 digits n := by
  rw [Nat.ofDigitChars_eq_ofDigitChars_zero]
  exact Nat.le_trans (Nat.le_mul_of_pos_left _ (Nat.pow_pos (by decide))) (Nat.le_add_right ..)

private theorem over?_integer (all : ∀ c ∈ digits, c.isDigit = true) {significand : Nat}
    (fits : Nat.ofDigitChars 10 digits significand < significandLimit) :
    (integer negative significand).over? (Utf8.encode digits) =
      some (.integer negative (Nat.ofDigitChars 10 digits significand)) := by
  induction digits generalizing significand with
  | nil => rfl
  | cons c digits ih =>
    obtain ⟨ascii, digit, value⟩ := digit_byte (all c List.mem_cons_self)
    rw [Nat.ofDigitChars_cons, Nat.mul_comm 10] at fits ⊢
    have small := (le_ofDigitChars digits _).trans_lt fits
    have taken : (integer negative significand).step (byte c) =
        .more (.integer negative (significand * 10 + (c.toNat - '0'.toNat))) := by
      simp only [step, stepOpen, digit, if_true, widen?, value, small]
    rw [encode_ascii ascii, over?_more taken]
    exact ih (fun other inside => all other (List.mem_cons_of_mem _ inside)) fits

/-- The scan stands behind the point of a number and has gathered no more than the bound. -/
inductive Behind (negative : Bool) (bound : ℚ) : NumberScan → Prop where
  | fraction {significand : Nat} {exponent : Int} : significand < significandLimit →
      significand * 10 ^ exponent ≤ bound →
      Behind negative bound (.fraction negative significand exponent)
  | fractionRest {significand : Nat} {exponent : Int} : significand < significandLimit →
      significand * 10 ^ exponent ≤ bound →
      Behind negative bound (.fractionRest negative significand exponent)

private theorem over?_fractionRest (all : ∀ c ∈ digits, c.isDigit = true) (significand : Nat)
    (exponent : Int) :
    (fractionRest negative significand exponent).over? (Utf8.encode digits) =
      some (.fractionRest negative significand exponent) := by
  induction digits with
  | nil => rfl
  | cons c digits ih =>
    obtain ⟨ascii, digit, -⟩ := digit_byte (all c List.mem_cons_self)
    have taken : (fractionRest negative significand exponent).step (byte c) =
        .more (.fractionRest negative significand exponent) := by
      simp only [step, stepOpen, digit, if_true]
    rw [encode_ascii ascii, over?_more taken]
    exact ih fun other inside => all other (List.mem_cons_of_mem _ inside)

private theorem fractionDigit_fits {significand wider : Nat} {exponent : Int} {b : UInt8}
    (fits : widen? significand b = some wider) :
    fractionDigit negative significand exponent b = .fraction negative wider (exponent - 1) := by
  unfold fractionDigit
  rw [fits]

private theorem fractionDigit_full {significand : Nat} {exponent : Int} {b : UInt8}
    (full : widen? significand b = none) :
    fractionDigit negative significand exponent b =
      .fractionRest negative significand exponent := by
  unfold fractionDigit
  rw [full]

/-- Digits behind the point are gathered until they no longer fit, and then dropped. -/
theorem over?_fraction (all : ∀ c ∈ digits, c.isDigit = true) {significand : Nat}
    (fits : significand < significandLimit) (exponent : Int) :
    ∃ last, (fraction negative significand exponent).over? (Utf8.encode digits) = some last ∧
      Behind negative
        (Nat.ofDigitChars 10 digits significand * 10 ^ (exponent - digits.length)) last := by
  induction digits generalizing significand exponent with
  | nil =>
    refine ⟨.fraction negative significand exponent, rfl, .fraction fits ?_⟩
    simp [Nat.ofDigitChars]
  | cons c digits ih =>
    obtain ⟨ascii, digit, value⟩ := digit_byte (all c List.mem_cons_self)
    have others : ∀ c ∈ digits, c.isDigit = true :=
      fun other inside => all other (List.mem_cons_of_mem _ inside)
    have length : exponent - (c :: digits).length = exponent - 1 - digits.length := by
      rw [List.length_cons]
      push_cast
      omega
    have taken : (fraction negative significand exponent).step (byte c) =
        .more (fractionDigit negative significand exponent (byte c)) := by
      simp only [step, stepOpen, digit, if_true]
    rw [encode_ascii ascii, over?_more taken, Nat.ofDigitChars_cons, Nat.mul_comm 10, length]
    by_cases small : significand * 10 + (c.toNat - '0'.toNat) < significandLimit
    · have wider : widen? significand (byte c) =
          some (significand * 10 + (c.toNat - '0'.toNat)) := by
        simp only [widen?, value, small, if_true]
      rw [fractionDigit_fits wider]
      exact ih others small (exponent - 1)
    · have full : widen? significand (byte c) = none := by
        simp only [widen?, value, small, if_false]
      rw [fractionDigit_full full]
      refine ⟨_, over?_fractionRest others significand exponent, .fractionRest fits ?_⟩
      have more : significand * 10 ^ (digits.length + 1) ≤
          Nat.ofDigitChars 10 digits (significand * 10 + (c.toNat - '0'.toNat)) := by
        rw [Nat.ofDigitChars_eq_ofDigitChars_zero, Nat.pow_succ]
        nlinarith [Nat.zero_le (10 ^ digits.length * (c.toNat - '0'.toNat))]
      have split : (10 : ℚ) ^ exponent =
          10 ^ (digits.length + 1) * 10 ^ (exponent - 1 - digits.length) := by
        rw [← zpow_natCast, ← zpow_add₀ (by norm_num)]
        congr 1
        push_cast
        omega
      rw [split, ← mul_assoc]
      gcongr
      exact_mod_cast more

/-! ## Points and exponents -/

private theorem over?_point (all : ∀ c ∈ digits, c.isDigit = true) (filled : digits ≠ [])
    {scan : NumberScan} {significand : Nat} (fits : significand < significandLimit)
    (pointed : scan.step (byte '.') = .more (.point negative significand 0)) :
    ∃ last, scan.over? (Utf8.encode ('.' :: digits)) = some last ∧
      Behind negative
        (Nat.ofDigitChars 10 digits significand * 10 ^ (-(digits.length : Int))) last := by
  obtain ⟨last, taken, behind⟩ := @over?_fraction negative digits all significand fits 0
  rw [Int.zero_sub] at behind
  refine ⟨last, ?_, behind⟩
  rw [encode_ascii (by decide), over?_more pointed]
  cases digits with
  | nil => exact absurd rfl filled
  | cons c digits =>
    obtain ⟨ascii, digit, -⟩ := digit_byte (all c List.mem_cons_self)
    have same : (point negative significand 0).step (byte c) =
        (fraction negative significand 0).step (byte c) := by
      simp only [step, stepOpen, digit, if_true]
    rw [encode_ascii ascii] at taken ⊢
    rw [← taken, over?, over?, same]

private theorem over?_powerDigits (all : ∀ c ∈ digits, c.isDigit = true) {significand : Nat}
    {exponent : Int} {down : Bool} {count : Nat}
    (fits : Nat.ofDigitChars 10 digits count < exponentLimit) :
    (power negative significand exponent down count).over? (Utf8.encode digits) =
      some (.power negative significand exponent down (Nat.ofDigitChars 10 digits count)) := by
  induction digits generalizing count with
  | nil => rfl
  | cons c digits ih =>
    obtain ⟨ascii, digit, value⟩ := digit_byte (all c List.mem_cons_self)
    rw [Nat.ofDigitChars_cons, Nat.mul_comm 10] at fits ⊢
    have small := (le_ofDigitChars digits _).trans_lt fits
    have taken : (power negative significand exponent down count).step (byte c) =
        .more (.power negative significand exponent down (count * 10 + (c.toNat - '0'.toNat))) := by
      simp only [step, digit, if_true, powerDigit, value, small]
    rw [encode_ascii ascii, over?_more taken]
    exact ih (fun other inside => all other (List.mem_cons_of_mem _ inside)) fits

private theorem over?_power {scan : NumberScan} {significand : Nat} {exponent : Int}
    (marked : scan.step (byte 'e') = .more (.mark negative significand exponent)) (down : Bool)
    {n : Nat} (fits : n < exponentLimit) :
    scan.over? (Utf8.encode ('e' :: (if down then '-' else '+') :: Nat.toDigits 10 n)) =
      some (.power negative significand exponent down n) := by
  have sign : (mark negative significand exponent).step (byte (if down then '-' else '+')) =
      .more (.markSign negative significand exponent down) := by
    cases down <;> rfl
  have whole : Nat.ofDigitChars 10 (Nat.toDigits 10 n) 0 = n := Nat.ofDigitChars_ten_toDigits
  have all : ∀ c ∈ Nat.toDigits 10 n, c.isDigit = true :=
    fun c inside => Nat.isDigit_of_mem_toDigits (by decide) (by decide) inside
  rw [encode_ascii (by decide), over?_more marked,
    encode_ascii (by cases down <;> decide), over?_more sign]
  cases digits : Nat.toDigits 10 n with
  | nil => exact absurd digits Nat.toDigits_ne_nil
  | cons c rest =>
    rw [digits] at whole all
    rw [Nat.ofDigitChars_cons, Nat.mul_zero, Nat.zero_add] at whole
    obtain ⟨ascii, digit, value⟩ := digit_byte (all c List.mem_cons_self)
    have taken : (markSign negative significand exponent down).step (byte c) =
        .more (.power negative significand exponent down (c.toNat - '0'.toNat)) := by
      simp only [step, digit, if_true, value]
    rw [encode_ascii ascii, over?_more taken,
      over?_powerDigits (fun other inside => all other (List.mem_cons_of_mem _ inside))
        (whole ▸ fits), whole]

/-- The scan may end here, with a number of at most the bound. -/
def Gathers (negative : Bool) (bound : ℚ) (scan : NumberScan) : Prop :=
  ∃ (significand : Nat) (exponent : Int), scan.finish = ofParts negative significand exponent ∧
    significand < significandLimit ∧ significand * 10 ^ exponent ≤ bound

/-- An exponent may follow the scan, which has gathered no more than the bound. -/
def MayMark (negative : Bool) (bound : ℚ) (scan : NumberScan) : Prop :=
  ∃ (significand : Nat) (exponent : Int),
    scan.step (byte 'e') = .more (.mark negative significand exponent) ∧
    significand < significandLimit ∧ significand * 10 ^ exponent ≤ bound

private theorem Behind.gathers {bound : ℚ} {scan : NumberScan}
    (behind : Behind negative bound scan) :
    Gathers negative bound scan := by
  cases behind with
  | fraction fits within => exact ⟨_, _, rfl, fits, within⟩
  | fractionRest fits within => exact ⟨_, _, rfl, fits, within⟩

private theorem Behind.mayMark {bound : ℚ} {scan : NumberScan}
    (behind : Behind negative bound scan) :
    MayMark negative bound scan := by
  cases behind with
  | fraction fits within => exact ⟨_, _, rfl, fits, within⟩
  | fractionRest fits within => exact ⟨_, _, rfl, fits, within⟩

private theorem MayMark.gathers {bound : ℚ} {scan : NumberScan}
    (marks : MayMark negative bound scan)
    {power : Int} (fits : power.natAbs < exponentLimit) :
    ∃ last, scan.over? (Utf8.encode ('e' :: (if power < 0 then '-' else '+') ::
        Nat.toDigits 10 power.natAbs)) = some last ∧
      Gathers negative (bound * 10 ^ power) last := by
  obtain ⟨significand, exponent, marked, small, within⟩ := marks
  have taken := over?_power marked (decide (power < 0)) fits
  simp only [decide_eq_true_eq] at taken
  refine ⟨_, taken, significand, exponent + power, ?_, small, ?_⟩
  · have size : (if decide (power < 0) = true then exponent - power.natAbs
        else exponent + power.natAbs) = exponent + power := by
      simp only [decide_eq_true_eq]
      split <;> omega
    rw [finish, size]
  · rw [zpow_add₀ (by norm_num), ← mul_assoc]
    gcongr

/-! ## Decimals -/

/-- All of the text belongs to a number that begins with a digit; tells where its scan stands. -/
def Takes (negative : Bool) (stands : NumberScan → Prop) (text : List Char) : Prop :=
  ∃ c rest last, text = c :: rest ∧ c.isDigit = true ∧
    (ofDigit negative (byte c)).over? (Utf8.encode rest) = some last ∧ stands last

private theorem Takes.imp {stands others : NumberScan → Prop} {text : List Char}
    (takes : Takes negative stands text) (weaker : ∀ last, stands last → others last) :
    Takes negative others text := by
  obtain ⟨c, rest, last, same, digit, taken, stand⟩ := takes
  exact ⟨c, rest, last, same, digit, taken, weaker last stand⟩

private theorem Takes.marked {bound : ℚ} {text : List Char}
    (takes : Takes negative (MayMark negative bound) text) {power : Int}
    (fits : power.natAbs < exponentLimit) :
    Takes negative (Gathers negative (bound * 10 ^ power))
      (text ++ 'e' :: (if power < 0 then '-' else '+') :: Nat.toDigits 10 power.natAbs) := by
  obtain ⟨c, rest, middle, rfl, digit, taken, marks⟩ := takes
  obtain ⟨last, further, gathers⟩ := marks.gathers fits
  refine ⟨c, rest ++ 'e' :: (if power < 0 then '-' else '+') :: Nat.toDigits 10 power.natAbs, last,
    rfl, digit, ?_, gathers⟩
  rw [Text.Utf8.encode_append, over?_append taken, further]

private theorem ofDigit_nonzero {c : Char} (digit : c.isDigit = true) (nonzero : c ≠ '0') :
    ofDigit negative (byte c) = .integer negative (c.toNat - '0'.toNat) := by
  obtain ⟨ascii, -, value⟩ := digit_byte digit
  have different : byte c ≠ byte '0' := by
    intro same
    have none : c.toNat - '0'.toNat = 0 := value.symm.trans (congrArg digitOf same)
    have least := (Double.digit_bounds digit).1
    exact nonzero (Char.toNat_inj.mp (by omega))
  rw [ofDigit, if_neg different, value]

private theorem over?_first {c : Char} {rest : List Char}
    (all : ∀ c' ∈ c :: rest, c'.isDigit = true)
    (nonzero : c ≠ '0') (fits : Nat.ofDigitChars 10 (c :: rest) 0 < significandLimit) :
    (ofDigit negative (byte c)).over? (Utf8.encode rest) =
      some (.integer negative (Nat.ofDigitChars 10 (c :: rest) 0)) := by
  rw [Nat.ofDigitChars_cons, Nat.mul_zero, Nat.zero_add] at fits ⊢
  rw [ofDigit_nonzero (all c List.mem_cons_self) nonzero]
  exact over?_integer (fun other inside => all other (List.mem_cons_of_mem _ inside)) fits

/-- Digits, a point and more digits, where only a zero may stand first alone. -/
theorem takes_pointed {whole fraction : List Char} (filled : fraction ≠ [])
    (all : ∀ c ∈ whole ++ fraction, c.isDigit = true)
    (leading : whole = ['0'] ∨ ∃ c rest, whole = c :: rest ∧ c ≠ '0')
    (fits : Nat.ofDigitChars 10 whole 0 < significandLimit) :
    Takes negative
      (Behind negative
        (Nat.ofDigitChars 10 (whole ++ fraction) 0 * 10 ^ (-(fraction.length : Int))))
      (whole ++ '.' :: fraction) := by
  have fractionDigits : ∀ c ∈ fraction, c.isDigit = true :=
    fun c inside => all c (List.mem_append_right _ inside)
  rw [Nat.ofDigitChars_append]
  obtain rfl | ⟨c, rest, rfl, nonzero⟩ := leading
  · have pointed : (zero negative).step (byte '.') = .more (.point negative 0 0) := rfl
    obtain ⟨last, taken, behind⟩ := over?_point fractionDigits filled (by decide) pointed
    exact ⟨'0', '.' :: fraction, last, rfl, rfl, taken, behind⟩
  · have wholeDigits : ∀ c' ∈ c :: rest, c'.isDigit = true :=
      fun c' inside => all c' (List.mem_append_left _ inside)
    have pointed : (integer negative (Nat.ofDigitChars 10 (c :: rest) 0)).step (byte '.') =
        .more (.point negative (Nat.ofDigitChars 10 (c :: rest) 0) 0) := rfl
    obtain ⟨last, taken, behind⟩ := over?_point fractionDigits filled fits pointed
    refine ⟨c, rest ++ '.' :: fraction, last, rfl, wholeDigits c List.mem_cons_self, ?_,
      behind⟩
    rw [Text.Utf8.encode_append, over?_append (over?_first wholeDigits nonzero fits), taken]

private theorem ofDigitChars_zeros (zeros n : Nat) :
    Nat.ofDigitChars 10 (List.replicate zeros '0') n = n * 10 ^ zeros := by
  induction zeros generalizing n with
  | zero => simp [Nat.ofDigitChars]
  | succ zeros ih =>
    rw [List.replicate_succ, Nat.ofDigitChars_cons, ih]
    simp
    ring

variable {decimal : Double.Decimal} {n : Nat}

/-- A split of the digits, with zeros added at either end, has the value of the decimal when the
point stands where it should. -/
theorem takes_split {whole fraction : List Char} {zeros : Nat}
    (digits : decimal.digits = Nat.toDigits 10 n) (filled : fraction ≠ [])
    (all : ∀ c ∈ whole ++ fraction, c.isDigit = true)
    (leading : whole = ['0'] ∨ ∃ c rest, whole = c :: rest ∧ c ≠ '0') (short : whole.length ≤ 16)
    (number : Nat.ofDigitChars 10 (whole ++ fraction) 0 = n * 10 ^ zeros)
    (point : (zeros : Int) - fraction.length = decimal.point - decimal.digits.length) :
    Takes negative (Gathers negative decimal.value) (whole ++ '.' :: fraction) := by
  have fits : Nat.ofDigitChars 10 whole 0 < significandLimit := by
    calc Nat.ofDigitChars 10 whole 0 < 10 ^ whole.length :=
          Double.ofDigitChars_lt fun c inside => all c (List.mem_append_left _ inside)
      _ ≤ 10 ^ 16 := Nat.pow_le_pow_right (by decide) short
      _ < significandLimit := by decide
  have takes := @takes_pointed negative whole fraction filled all leading fits
  have value : (Nat.ofDigitChars 10 (whole ++ fraction) 0 : ℚ) * 10 ^ (-(fraction.length : Int)) =
      decimal.value := by
    rw [Double.Decimal.value_eq_mul digits, number, ← point, Int.sub_eq_add_neg,
      zpow_add₀ (by norm_num), zpow_natCast, ← mul_assoc]
    push_cast
    rfl
  rw [value] at takes
  exact takes.imp fun last behind => behind.gathers

private theorem isDigit_zeros {zeros : Nat} {c : Char} (inside : c ∈ List.replicate zeros '0') :
    c.isDigit = true := by
  rw [List.eq_of_mem_replicate inside]
  rfl

private theorem takes_below (digits : decimal.digits = Nat.toDigits 10 n)
    (filled : decimal.digits ≠ [])
    (small : decimal.point ≤ 0) :
    Takes negative (Gathers negative decimal.value)
      ('0' :: '.' :: (List.replicate (-decimal.point).toNat '0' ++ decimal.digits)) := by
  apply @takes_split negative decimal n ['0'] _ 0 digits
  · simp [filled]
  · intro c inside
    simp only [List.mem_append, List.mem_singleton] at inside
    obtain rfl | inside | inside := inside
    · rfl
    · exact isDigit_zeros inside
    · exact Double.Decimal.isDigit_of_mem digits inside
  · exact .inl rfl
  · decide
  · rw [Nat.ofDigitChars_append, Nat.ofDigitChars_append, ofDigitChars_zeros]
    simpa [Nat.ofDigitChars] using Double.Decimal.ofDigitChars_digits digits
  · simp
    omega

private theorem takes_above (digits : decimal.digits = Nat.toDigits 10 n)
    (leading : ∃ c rest, decimal.digits = c :: rest ∧ c ≠ '0')
    (long : decimal.digits.length ≤ decimal.point) (small : decimal.point ≤ 16) :
    Takes negative (Gathers negative decimal.value)
      (decimal.digits ++ List.replicate (decimal.point - decimal.digits.length).toNat '0' ++
        ['.', '0']) := by
  obtain ⟨c, rest, head, nonzero⟩ := leading
  apply @takes_split negative decimal n _ ['0']
    ((decimal.point - decimal.digits.length).toNat + 1) digits
  · exact List.cons_ne_nil _ _
  · intro c inside
    simp only [List.mem_append, List.mem_singleton] at inside
    obtain (inside | inside) | rfl := inside
    · exact Double.Decimal.isDigit_of_mem digits inside
    · exact isDigit_zeros inside
    · rfl
  · exact .inr ⟨c, _, by rw [head]; rfl, nonzero⟩
  · simp
    omega
  · rw [Nat.ofDigitChars_append, Nat.ofDigitChars_append,
      Double.Decimal.ofDigitChars_digits digits, ofDigitChars_zeros]
    simp [Nat.ofDigitChars]
    ring
  · simp
    omega

private theorem takes_within (digits : decimal.digits = Nat.toDigits 10 n)
    (leading : ∃ c rest, decimal.digits = c :: rest ∧ c ≠ '0') (positive : 0 < decimal.point)
    (short : decimal.point < decimal.digits.length) (small : decimal.point ≤ 16) :
    Takes negative (Gathers negative decimal.value)
      (decimal.digits.take decimal.point.toNat ++
        '.' :: decimal.digits.drop decimal.point.toNat) := by
  obtain ⟨c, rest, head, nonzero⟩ := leading
  have joined := List.take_append_drop decimal.point.toNat decimal.digits
  apply @takes_split negative decimal n _ _ 0 digits
  · rw [← List.length_pos_iff, List.length_drop]
    omega
  · rw [joined]
    exact fun c inside => Double.Decimal.isDigit_of_mem digits inside
  · obtain ⟨point, same⟩ : ∃ point, decimal.point.toNat = point + 1 :=
      ⟨decimal.point.toNat - 1, by omega⟩
    exact .inr ⟨c, rest.take point, by rw [head, same, List.take_succ_cons], nonzero⟩
  · rw [List.length_take]
    omega
  · rw [joined, Double.Decimal.ofDigitChars_digits digits, Nat.pow_zero, Nat.mul_one]
  · rw [List.length_drop]
    omega

theorem takes_positional (positive : 0 < n) (digits : decimal.digits = Nat.toDigits 10 n)
    (small : decimal.point ≤ 16) :
    Takes negative (Gathers negative decimal.value) decimal.positional := by
  have leading := Double.toDigits_head positive
  rw [← digits] at leading
  unfold Double.Decimal.positional
  dsimp only
  split
  next before => exact takes_below digits (digits ▸ Nat.toDigits_ne_nil) before
  next after =>
    split
    next long => exact takes_above digits leading long small
    next short => exact takes_within digits leading (by omega) (by omega) small

/-- The digits of a decimal before its exponent. -/
theorem takes_mantissa {c : Char} {rest : List Char} (all : ∀ c' ∈ c :: rest, c'.isDigit = true)
    (nonzero : c ≠ '0') :
    Takes negative
      (MayMark negative (Nat.ofDigitChars 10 (c :: rest) 0 * 10 ^ (-(rest.length : Int))))
      ([c] ++ (if rest.isEmpty then [] else '.' :: rest)) := by
  have digit : Nat.ofDigitChars 10 [c] 0 < significandLimit := by
    calc Nat.ofDigitChars 10 [c] 0 < 10 ^ 1 :=
          Double.ofDigitChars_lt fun other inside =>
            all other (List.mem_singleton.mp inside ▸ List.mem_cons_self)
      _ < significandLimit := by decide
  cases rest with
  | nil =>
    refine ⟨c, [], .integer negative (Nat.ofDigitChars 10 [c] 0), rfl, all c List.mem_cons_self,
      over?_first all nonzero digit, _, 0, rfl, digit, ?_⟩
    simp
  | cons next rest =>
    have takes := @takes_pointed negative [c] (next :: rest) (List.cons_ne_nil _ _) all
      (.inr ⟨c, [], rfl, nonzero⟩) digit
    exact takes.imp fun last behind => behind.mayMark

theorem takes_scientific (positive : 0 < n) (digits : decimal.digits = Nat.toDigits 10 n)
    (small : (decimal.point - 1).natAbs < exponentLimit) :
    Takes negative (Gathers negative decimal.value) decimal.scientific := by
  have number := Double.Decimal.ofDigitChars_digits digits
  have all : ∀ c ∈ decimal.digits, c.isDigit = true :=
    fun c inside => Double.Decimal.isDigit_of_mem digits inside
  obtain ⟨c, rest, head, nonzero⟩ := Double.toDigits_head positive
  rw [← digits] at head
  have value : decimal.value = n * 10 ^ (-(rest.length : Int)) * 10 ^ (decimal.point - 1) := by
    rw [Double.Decimal.value_eq_mul digits, mul_assoc, ← zpow_add₀ (by norm_num), head,
      List.length_cons]
    congr 2
    push_cast
    ring
  rw [head] at number all
  rw [value, ← number]
  unfold Double.Decimal.scientific
  dsimp only
  rw [head]
  exact (takes_mantissa all nonzero).marked small

end Airlock.Json.NumberScan

namespace Airlock.Double

open Json (NumberScan Spells)

/-- The double that the text of a double is read as. -/
def reading? (d : Double) : Option Double :=
  match Json.decode (Text.Utf8.encode d.text) with
  | .ok (.number (.double read)) => some read
  | _ => none

private theorem decode_spells {n : Number} {bytes : Bytes} (spells : Spells n bytes) :
    Json.decode bytes = .ok (.number n) := by
  have printed := Json.Machine.run_spells spells .value Json.maxOpen [] .nothing
  rw [List.append_nil] at printed
  have read : Json.readValue 0 bytes = .ok (.number n, []) := printed
  rw [Json.decode, read]
  rfl

private theorem text_shortest (d : Double)
    (proper : ∃ n, 0 < n ∧ d.shortest.digits = Nat.toDigits 10 n)
    (points : -1100 < d.shortest.point ∧ d.shortest.point < 1100) (negative : Bool) :
    NumberScan.Takes negative (NumberScan.Gathers negative d.shortest.value)
      (d.shortest.text textStyle) := by
  obtain ⟨n, positive, digits⟩ := proper
  unfold Decimal.text
  dsimp only
  split
  next within =>
    have below : d.shortest.point - 1 < 16 := within.2
    exact NumberScan.takes_positional positive digits (by omega)
  next =>
    have limit : Json.exponentLimit = 2 ^ 31 := by decide
    exact NumberScan.takes_scientific positive digits (by omega)

private theorem spells_takes {d : Double} {bound : ℚ}
    (takes : NumberScan.Takes d.isNegative (NumberScan.Gathers d.isNegative bound)
      (d.shortest.text textStyle)) (small : bound * (1 + 1 / 2 ^ 53) ^ 2 < limit) :
    ∃ read, Spells (.double read) (Text.Utf8.encode d.text) := by
  obtain ⟨c, rest, last, unsigned, digit, taken, significand, exponent, finish, fits, within⟩ :=
    takes
  have below : (significand : ℚ) * 10 ^ exponent * (1 + 1 / 2 ^ 53) ^ 2 < limit :=
    lt_of_le_of_lt (by gcongr) small
  obtain ⟨read, found⟩ := Option.isSome_iff_exists.mp
    (ofDecimal?_isSome d.isNegative fits below)
  have complete : last.finish = .ok (.double read) := by
    rw [finish, NumberScan.ofParts, found]
  obtain ⟨ascii, digitByte, -⟩ := NumberScan.digit_byte digit
  refine ⟨read, ?_⟩
  rw [text, unsigned]
  cases negative : d.isNegative with
  | false =>
    rw [negative] at taken
    have notMinus : Json.byte c ≠ Json.byte '-' := by
      intro same
      rw [same] at digitByte
      cases digitByte
    simp only [Bool.false_eq_true, if_false]
    rw [Json.encode_ascii ascii]
    exact ⟨_, last, by simp [NumberScan.begin?, notMinus, digitByte], taken, complete⟩
  | true =>
    rw [negative] at taken
    simp only [if_true]
    rw [Json.encode_ascii (by decide), Json.encode_ascii ascii]
    refine ⟨.sign, last, rfl, ?_, complete⟩
    have signed : NumberScan.sign.step (Json.byte c) = .more (.ofDigit true (Json.byte c)) := by
      simp only [NumberScan.step, digitByte, if_true]
    rw [NumberScan.over?_more signed]
    exact taken

private theorem reading?_top {d : Double} (top : ¬ d.Ordinary) : (reading? d).isSome := by
  simp only [Ordinary, not_or, not_lt, not_le] at top
  obtain ⟨scale, coefficient⟩ := top
  have field : d.exponentField = 2046 := by
    have finite : d.exponentField < 2047 := d.finite
    unfold Double.scale at scale
    split at scale <;> omega
  have low : 2 ^ 53 - 3 < 2 ^ 52 + d.fraction := by
    rwa [Double.coefficient, if_neg (by omega)] at coefficient
  -- Two fractions and two signs are left.
  obtain ⟨bits, finite⟩ := d
  simp only [exponentField, fraction, Nat.pow_eq] at field low
  clear scale coefficient
  have size := bits.toNat_lt
  have four : bits.toNat = 0x7fefffffffffffff ∨ bits.toNat = 0x7feffffffffffffe ∨
      bits.toNat = 0xffefffffffffffff ∨ bits.toNat = 0xffeffffffffffffe := by
    omega
  have same {n : Nat} (equal : bits.toNat = n) : bits = UInt64.ofNat n := by
    rw [← equal, UInt64.ofNat_toNat]
  obtain equal | equal | equal | equal := four
  all_goals
    obtain rfl := same equal
    revert finite
    decide +kernel

/-- The text of a double is always read as a double. -/
theorem reading?_isSome (d : Double) : (reading? d).isSome := by
  by_cases ordinary : d.Ordinary
  · obtain zero | ⟨nonzero, proper, holds⟩ := d.shortest_cases
    · unfold reading? text
      rw [zero]
      cases d.isNegative <;> rfl
    · have takes := d.text_shortest proper (point_bounds proper nonzero holds) d.isNegative
      obtain ⟨read, spells⟩ := spells_takes takes (holds.lt_limit ordinary)
      unfold reading?
      rw [decode_spells spells]
      rfl
  · exact reading?_top ordinary

/-- What a double becomes when its text is read. -/
def reread (d : Double) : Double :=
  (reading? d).getD d

private theorem decode_text (d : Double) :
    Json.decode (Text.Utf8.encode d.text) = .ok (.number (.double d.reread)) := by
  have found := reading?_isSome d
  unfold reread
  unfold reading? at found ⊢
  split at found
  next read decoded =>
    rw [decoded]
    rfl
  next => cases found

theorem spells_text (d : Double) : Spells (.double d.reread) (Text.Utf8.encode d.text) :=
  Json.spells_of_decode d.text_numberBytes d.decode_text

theorem ReadsBack.reread {d : Double} (back : d.ReadsBack) : d.reread = d := by
  simpa using d.decode_text.symm.trans back

end Airlock.Double
