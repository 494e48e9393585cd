/-
Floating-point numbers as decimals. A number is read off its bits as a multiple of a power of two,
and with it the interval of the numbers that round to it. It is written as a multiple of the
greatest power of ten that has a multiple in this interval, which makes the fewest digits; of two
such multiples the nearer is taken, and of two equally near ones the greater.

A power of ten small enough is a divisor of every number, so there is always a decimal.
-/

namespace ShaderText

/-! ## Binary numbers -/

/-- A positive number `mantissa * 2 ^ exponent`. -/
structure Binary where
  mantissa : Nat
  exponent : Int
  /-- The next smaller number is half as far away as the next greater one. -/
  closeBelow : Bool
  deriving DecidableEq, Repr, Inhabited

namespace Binary

/-- The absolute value that the bits of a finite floating-point number stand for. -/
def ofBits (bits : UInt64) : Binary :=
  let exponent : Nat := bits.toNat / Nat.pow 2 52 % Nat.pow 2 11
  let fraction : Nat := bits.toNat % Nat.pow 2 52
  if exponent = 0 then ⟨fraction, -1074, false⟩
  else ⟨Nat.pow 2 52 + fraction, (exponent : Int) - 1075, fraction == 0 && 1 < exponent⟩

/-! Lengths are counted in quarters of `2 ^ exponent`: the ends of the interval are whole then. -/

/-- The lower end of the interval of the numbers that round to a number. -/
def low (x : Binary) : Nat := 4 * x.mantissa - if x.closeBelow then 1 else 2

/-- The upper end of this interval. -/
def high (x : Binary) : Nat := 4 * x.mantissa + 2

/-- The factors by which a quarter of `2 ^ exponent` and a unit of `10 ^ scale` are multiples of one
length. -/
def factors (x : Binary) (scale : Int) : Nat × Nat :=
  (Nat.pow 2 (x.exponent - 2).toNat * Nat.pow 10 (-scale).toNat,
    Nat.pow 2 (2 - x.exponent).toNat * Nat.pow 10 scale.toNat)

/-- Whether `digits * 10 ^ scale` rounds to a number; the ends of the interval do if the mantissa is
even. -/
def isReadFrom (x : Binary) (digits : Nat) (scale : Int) : Bool :=
  let (quarter, unit) := x.factors scale
  if x.mantissa % 2 = 0 then
    x.low * quarter ≤ digits * unit && digits * unit ≤ x.high * quarter
  else x.low * quarter < digits * unit && digits * unit < x.high * quarter

/-- The multiple of `10 ^ scale` nearest to a number, of those that round to it. -/
def nearest? (x : Binary) (scale : Int) : Option Nat :=
  let (quarter, unit) := x.factors scale
  let value := 4 * x.mantissa * quarter
  let below := value / unit
  let above := below + 1
  match x.isReadFrom below scale, x.isReadFrom above scale with
  | true, true => some (if 2 * value < (below + above) * unit then below else above)
  | true, false => some below
  | false, true => some above
  | false, false => none

/-- The powers of ten that are tried, from one beyond all numbers down to a divisor of them all. -/
def scales : List Int := (List.range 1384).map fun n : Nat => 309 - (n : Int)

/-- The decimal of a number: its digits and the power of ten of the last. -/
def decimal (x : Binary) : Nat × Int :=
  (scales.findSome? fun scale => (x.nearest? scale).map (·, scale)).getD (0, 0)

theorem isReadFrom_of_nearest? {x : Binary} {scale : Int} {digits : Nat}
    (h : x.nearest? scale = some digits) : x.isReadFrom digits scale = true := by
  unfold nearest? at h
  dsimp only at h
  split at h
  · split at h <;> cases h <;> assumption
  · cases h; assumption
  · cases h; assumption
  · cases h

theorem exponent_ofBits (bits : UInt64) : -1074 ≤ (ofBits bits).exponent := by
  unfold ofBits
  dsimp only
  split
  · exact Int.le_refl _
  · dsimp only; omega

theorem two_pow_dvd_four_mul_ten_pow {k n : Nat} (h : k ≤ n + 2) :
    Nat.pow 2 k ∣ 4 * Nat.pow 10 n := by
  rw [Nat.pow_eq, Nat.pow_eq]
  have h10 : 4 * 10 ^ n = 2 ^ (n + 2) * 5 ^ n := by
    rw [show 10 = 2 * 5 from rfl, Nat.mul_pow, Nat.pow_add, ← Nat.mul_assoc, Nat.mul_comm 4]
  rw [h10]
  exact Nat.dvd_mul_right_of_dvd (Nat.pow_dvd_pow 2 h) _

/-- A power of ten small enough divides a number, so its multiple is the number itself. -/
theorem isReadFrom_of_fine {x : Binary} {n : Nat} (hm : 0 < x.mantissa)
    (hn : -(n : Int) ≤ x.exponent) :
    x.isReadFrom (4 * x.mantissa * (x.factors (-n)).1 / (x.factors (-n)).2) (-n) = true := by
  have hq : 0 < (x.factors (-n)).1 := Nat.mul_pos (Nat.two_pow_pos _) (Nat.pow_pos (by decide))
  have hdvd : (x.factors (-n)).2 ∣ 4 * x.mantissa * (x.factors (-n)).1 := by
    simp only [factors, Int.neg_neg, Int.toNat_natCast]
    rw [show (-(n : Int)).toNat = 0 by omega, show Nat.pow 10 0 = 1 from rfl, Nat.mul_one]
    have := two_pow_dvd_four_mul_ten_pow (k := (2 - x.exponent).toNat) (n := n) (by omega)
    refine Nat.dvd_trans this ⟨x.mantissa * Nat.pow 2 (x.exponent - 2).toNat, ?_⟩
    ac_rfl
  have hlow : x.low < 4 * x.mantissa := by unfold low; split <;> omega
  have hhigh : 4 * x.mantissa < x.high := by unfold high; omega
  have hlow := Nat.mul_lt_mul_of_pos_right hlow hq
  have hhigh := Nat.mul_lt_mul_of_pos_right hhigh hq
  unfold isReadFrom
  simp only [Nat.div_mul_cancel hdvd]
  split <;> simp <;> omega

/-- The decimal of a positive number rounds to it. -/
theorem isReadFrom_decimal {x : Binary} (hm : 0 < x.mantissa) (he : -1074 ≤ x.exponent) :
    x.isReadFrom x.decimal.1 x.decimal.2 = true := by
  unfold decimal
  cases h : scales.findSome? fun scale => (x.nearest? scale).map (·, scale) with
  | some d =>
    obtain ⟨scale, -, hs⟩ := List.exists_of_findSome?_eq_some h
    obtain ⟨digits, hd, rfl⟩ := Option.map_eq_some_iff.1 hs
    exact isReadFrom_of_nearest? hd
  | none =>
    have hmem : (-1074 : Int) ∈ scales :=
      List.mem_map.2 ⟨1383, List.mem_range.2 (by decide), by decide⟩
    have hnone := Option.map_eq_none_iff.1 (List.findSome?_eq_none_iff.1 h _ hmem)
    have hfine := isReadFrom_of_fine (n := 1074) hm he
    unfold nearest? at hnone
    dsimp only at hnone
    split at hnone <;> simp_all

end Binary

/-! ## Notation -/

/-- The text of `digits * 10 ^ scale` with all its places and no exponent. -/
def plainDecimal (digits : Nat) (scale : Int) : List Char :=
  let places := Nat.toDigits 10 digits
  let fraction := (-scale).toNat
  if 0 ≤ scale then places ++ List.replicate scale.toNat '0'
  else if fraction < places.length then
    places.take (places.length - fraction) ++ '.' :: places.drop (places.length - fraction)
  else '0' :: '.' :: List.replicate (fraction - places.length) '0' ++ places

/-- The text of a floating-point number, with the fewest digits that tell it from all others. -/
def floatText (x : Float) : String :=
  let sign := if x.toBits.toNat < Nat.pow 2 63 then "" else "-"
  if x.isNaN then "NaN"
  else if x.isInf then sign ++ "inf"
  else
    let b := Binary.ofBits x.toBits
    if b.mantissa = 0 then sign ++ "0"
    else sign ++ String.ofList (plainDecimal b.decimal.1 b.decimal.2)

end ShaderText
