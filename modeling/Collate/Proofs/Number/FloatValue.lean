import Mathlib
import Collate.Row.SortKey

/-!
# The exact values of floats

A float stands for the number that the core library decodes from its bits, or for none
(`Floats.numberOf?`).  Apart from its sign it stands for so many units of the least positive float
(`Floats.units`), and the more, the greater the bits without the sign (`Floats.units_strictMono`).
So what a float stands for is an extended rational that grows with its signed units
(`Floats.numberOf?_unpack`, `Floats.extended_lt_iff`).
-/

namespace Collate

open Float.Model (Format UnpackedFloat)
open Float.Model.UnpackedFloat

/-- A rational number or an infinity. -/
abbrev ExtendedRat : Type := WithBot (WithTop ℚ)

namespace ExtendedRat

/-- A rational number, which is neither of the infinities. -/
def ofRat (q : ℚ) : ExtendedRat := ((q : WithTop ℚ) : WithBot (WithTop ℚ))

theorem ofRat_lt_ofRat_iff {p q : ℚ} : ofRat p < ofRat q ↔ p < q := by
  rw [ofRat, ofRat, WithBot.coe_lt_coe, WithTop.coe_lt_coe]

theorem bot_lt_ofRat (q : ℚ) : ⊥ < ofRat q := WithBot.bot_lt_coe _

theorem ofRat_lt_top (q : ℚ) : ofRat q < ⊤ := WithBot.coe_lt_coe.2 (WithTop.coe_lt_top q)

end ExtendedRat

namespace Floats

/-- What a decoded float stands for; nothing if it is not a number. -/
def numberOf? : UnpackedFloat → Option ExtendedRat
  | .notANumber => none
  | .infinity .negative => some ⊥
  | .infinity .positive => some ⊤
  | .zero _ => some (.ofRat 0)
  | .finite .negative mantissa exponent _ => some (.ofRat (-(mantissa * 2 ^ exponent)))
  | .finite .positive mantissa exponent _ => some (.ofRat (mantissa * 2 ^ exponent))

/-! ### Units of the least positive float -/

/-- How many units a float stands for, given its bits without the sign: an exponent and so many
bits of mantissa. -/
def units (mantissaBits magnitude : ℕ) : ℕ :=
  if magnitude / 2 ^ mantissaBits = 0 then magnitude % 2 ^ mantissaBits
  else (2 ^ mantissaBits + magnitude % 2 ^ mantissaBits) *
    2 ^ (magnitude / 2 ^ mantissaBits - 1)

theorem units_zero (mantissaBits : ℕ) : units mantissaBits 0 = 0 := by simp [units]

/-- Where the next exponent begins there are more units. -/
theorem units_lt {mantissaBits magnitude : ℕ} :
    units mantissaBits magnitude < 2 ^ mantissaBits * 2 ^ (magnitude / 2 ^ mantissaBits) := by
  have hmod := Nat.mod_lt magnitude (Nat.two_pow_pos mantissaBits)
  unfold units
  split_ifs with hzero
  · rwa [hzero, pow_zero, mul_one]
  · obtain ⟨e, he⟩ := Nat.exists_eq_succ_of_ne_zero hzero
    rw [he, Nat.succ_sub_one, pow_succ', ← mul_assoc, mul_comm (2 ^ mantissaBits) 2]
    exact Nat.mul_lt_mul_of_pos_right (by omega) (Nat.two_pow_pos e)

theorem units_strictMono (mantissaBits : ℕ) : StrictMono (units mantissaBits) := by
  intro a b hab
  have hexponents : a / 2 ^ mantissaBits ≤ b / 2 ^ mantissaBits := Nat.div_le_div_right hab.le
  rcases hexponents.eq_or_lt with heq | hlt
  · have hmantissas : a % 2 ^ mantissaBits < b % 2 ^ mantissaBits := by
      have ha := Nat.div_add_mod a (2 ^ mantissaBits)
      have hb := Nat.div_add_mod b (2 ^ mantissaBits)
      rw [heq] at ha
      omega
    unfold units
    rw [heq]
    split_ifs
    · exact hmantissas
    · exact Nat.mul_lt_mul_of_pos_right (by omega) (Nat.two_pow_pos _)
  · have hb : b / 2 ^ mantissaBits ≠ 0 := Nat.ne_of_gt (Nat.zero_lt_of_lt hlt)
    calc units mantissaBits a
      _ < 2 ^ mantissaBits * 2 ^ (a / 2 ^ mantissaBits) := units_lt
      _ ≤ (2 ^ mantissaBits + b % 2 ^ mantissaBits) * 2 ^ (b / 2 ^ mantissaBits - 1) :=
        Nat.mul_le_mul (Nat.le_add_right _ _) (Nat.pow_le_pow_right two_pos (by omega))
      _ = units mantissaBits b := (if_neg hb).symm

/-! ### Signed units as extended rationals -/

/-- So many units as a rational number; from a limit on they are infinitely many. -/
def extended (limit : ℤ) (unit : ℚ) (count : ℤ) : ExtendedRat :=
  if limit ≤ count then ⊤ else if count ≤ -limit then ⊥ else .ofRat (count * unit)

theorem extended_lt_iff {limit : ℤ} {unit : ℚ} (hunit : 0 < unit) {a b : ℤ}
    (ha : |a| ≤ limit) (hb : |b| ≤ limit) :
    extended limit unit a < extended limit unit b ↔ a < b := by
  have hscale : (a : ℚ) * unit < b * unit ↔ a < b := by
    rw [mul_lt_mul_iff_of_pos_right hunit, Int.cast_lt]
  rw [abs_le] at ha hb
  unfold extended
  split_ifs <;> simp only [lt_self_iff_false, not_top_lt, not_lt_bot, bot_lt_top,
    ExtendedRat.bot_lt_ofRat, ExtendedRat.ofRat_lt_top, ExtendedRat.ofRat_lt_ofRat_iff, hscale,
    true_iff, false_iff] <;> omega

/-! ### Words of floats -/

section Words

variable {n : ℕ} (w : BitVec n) (mantissaBits : ℕ)

/-- The bits of a float without its sign. -/
def magnitude : ℕ := w.toNat % 2 ^ (n - 1)

/-- How many units a float stands for, with its sign. -/
def signedUnits : ℤ :=
  if w.msb then -(units mantissaBits (magnitude w) : ℤ) else units mantissaBits (magnitude w)

/-- The bits of positive infinity, among so many. -/
def infinity (n mantissaBits : ℕ) : ℕ := 2 ^ (n - 1) - 2 ^ mantissaBits

/-- How many units infinity would stand for. -/
def limit (n mantissaBits : ℕ) : ℕ := units mantissaBits (infinity n mantissaBits)

variable {w mantissaBits}

theorem magnitude_lt (w : BitVec n) : magnitude w < 2 ^ (n - 1) := Nat.mod_lt _ (Nat.two_pow_pos _)

theorem abs_signedUnits :
    |signedUnits w mantissaBits| = units mantissaBits (magnitude w) := by
  unfold signedUnits
  split_ifs
  · rw [abs_neg, Nat.abs_cast]
  · rw [Nat.abs_cast]

theorem abs_signedUnits_le_limit_iff : |signedUnits w mantissaBits| ≤ limit n mantissaBits ↔
    magnitude w ≤ infinity n mantissaBits := by
  rw [abs_signedUnits, Nat.cast_le]
  exact (units_strictMono mantissaBits).le_iff_le

theorem abs_signedUnits_lt_limit_iff : |signedUnits w mantissaBits| < limit n mantissaBits ↔
    magnitude w < infinity n mantissaBits := by
  rw [abs_signedUnits, Nat.cast_lt]
  exact (units_strictMono mantissaBits).lt_iff_lt

end Words

/-! ### Decoded fields -/

section Fields

variable {spec : Format} (w : BitVec spec.numBits)

theorem numBits_eq (spec : Format) :
    spec.numBits = spec.mantissaBitsWithoutImplicit + spec.exponentBits + 1 := by
  rw [Format.numBits]
  omega

theorem numBits_sub_one (spec : Format) :
    spec.numBits - 1 = spec.mantissaBitsWithoutImplicit + spec.exponentBits :=
  Nat.sub_eq_of_eq_add (numBits_eq spec)

theorem magnitude_lt_mul :
    magnitude w < 2 ^ spec.mantissaBitsWithoutImplicit * 2 ^ spec.exponentBits := by
  rw [← pow_add, ← numBits_sub_one]
  exact magnitude_lt w

theorem infinity_eq (spec : Format) : infinity spec.numBits spec.mantissaBitsWithoutImplicit =
    (2 ^ spec.exponentBits - 1) * 2 ^ spec.mantissaBitsWithoutImplicit := by
  rw [infinity, numBits_sub_one, add_comm, pow_add, Nat.sub_mul, one_mul]

theorem limit_pos (spec : Format) : 0 < limit spec.numBits spec.mantissaBitsWithoutImplicit := by
  have hpos : 0 < infinity spec.numBits spec.mantissaBitsWithoutImplicit := by
    rw [infinity_eq]
    have hexponents : 1 < 2 ^ spec.exponentBits := Nat.one_lt_two_pow spec.he.ne'
    exact Nat.mul_pos (Nat.sub_pos_of_lt hexponents) (Nat.two_pow_pos _)
  exact (units_zero _).symm.trans_lt (units_strictMono _ hpos)

theorem infinity_le_magnitude_iff :
    infinity spec.numBits spec.mantissaBitsWithoutImplicit ≤ magnitude w ↔
      magnitude w / 2 ^ spec.mantissaBitsWithoutImplicit = 2 ^ spec.exponentBits - 1 := by
  have hdiv := Nat.div_lt_of_lt_mul (magnitude_lt_mul w)
  have hpos := Nat.two_pow_pos spec.exponentBits
  rw [infinity_eq, ← Nat.le_div_iff_mul_le (Nat.two_pow_pos _)]
  omega

/-- From infinity on only the mantissa grows. -/
theorem magnitude_eq_of_infinity_le
    (h : infinity spec.numBits spec.mantissaBitsWithoutImplicit ≤ magnitude w) :
    magnitude w = infinity spec.numBits spec.mantissaBitsWithoutImplicit +
      magnitude w % 2 ^ spec.mantissaBitsWithoutImplicit := by
  have hsum := Nat.div_add_mod' (magnitude w) (2 ^ spec.mantissaBitsWithoutImplicit)
  rw [(infinity_le_magnitude_iff w).1 h, ← infinity_eq] at hsum
  exact hsum.symm

theorem toNat_unpackMantissa : (unpackMantissa w).toNat =
    magnitude w % 2 ^ spec.mantissaBitsWithoutImplicit := by
  have hdvd : 2 ^ spec.mantissaBitsWithoutImplicit ∣ 2 ^ (spec.numBits - 1) :=
    pow_dvd_pow 2 (numBits_sub_one spec ▸ Nat.le_add_right _ _)
  rw [unpackMantissa, BitVec.toNat_cast, BitVec.extractLsb_toNat, Nat.shiftRight_zero, Nat.sub_zero,
    Nat.sub_add_cancel spec.hm, magnitude, Nat.mod_mod_of_dvd _ hdvd]

theorem toNat_unpackExponent : (unpackExponent w).toNat =
    magnitude w / 2 ^ spec.mantissaBitsWithoutImplicit := by
  have hpos := spec.he
  have hlen : spec.mantissaBitsWithoutImplicit + spec.exponentBits - 1 -
      spec.mantissaBitsWithoutImplicit + 1 = spec.exponentBits := by omega
  rw [unpackExponent, BitVec.toNat_cast, BitVec.extractLsb_toNat, hlen, Nat.shiftRight_eq_div_pow,
    magnitude, numBits_sub_one, pow_add, Nat.mod_mul_right_div_self]

theorem ofBitVec_unpackSign :
    Sign.ofBitVec (unpackSign w) = if w.msb then .negative else .positive := by
  have hzero : unpackSign w = 0#1 ↔ ¬w.msb := by
    have hlt : w.toNat < 2 ^ (spec.mantissaBitsWithoutImplicit + spec.exponentBits) * 2 := by
      rw [← pow_succ, ← numBits_eq]
      exact w.isLt
    rw [← BitVec.toNat_inj, unpackSign, BitVec.toNat_cast, BitVec.extractLsb_toNat, Nat.sub_self,
      Nat.shiftRight_eq_div_pow, zero_add, pow_one, Nat.mod_eq_of_lt (Nat.div_lt_of_lt_mul hlt),
      BitVec.msb_eq_decide, decide_eq_true_iff, numBits_sub_one, not_le,
      ← Nat.div_eq_zero_iff_lt (Nat.two_pow_pos _)]
    rfl
  rw [Sign.ofBitVec]
  cases hmsb : w.msb <;> simp [hzero, hmsb]

theorem unpackExponent_eq_neg_one_iff : unpackExponent w = -1#(spec.exponentBits) ↔
    infinity spec.numBits spec.mantissaBitsWithoutImplicit ≤ magnitude w := by
  rw [← BitVec.toNat_inj, toNat_unpackExponent, BitVec.neg_one_eq_allOnes, BitVec.toNat_allOnes,
    infinity_le_magnitude_iff]

theorem unpackExponent_eq_zero_iff : unpackExponent w = 0#(spec.exponentBits) ↔
    magnitude w / 2 ^ spec.mantissaBitsWithoutImplicit = 0 := by
  rw [← BitVec.toNat_inj, toNat_unpackExponent, BitVec.toNat_ofNat, Nat.zero_mod]

theorem unpackMantissa_eq_zero_iff : unpackMantissa w = 0#(spec.mantissaBitsWithoutImplicit) ↔
    magnitude w % 2 ^ spec.mantissaBitsWithoutImplicit = 0 := by
  rw [← BitVec.toNat_inj, toNat_unpackMantissa, BitVec.toNat_ofNat, Nat.zero_mod]

/-! ### What floats stand for -/

/-- The least positive float. -/
def unit (spec : Format) : ℚ :=
  2 ^ (1 - (spec.exponentBias + spec.mantissaBitsWithoutImplicit) : ℤ)

theorem unit_pos (spec : Format) : 0 < unit spec := zpow_pos two_pos _

/-- A float stands for as many units as its mantissa, at its exponent. -/
theorem units_mul_unit :
    (units spec.mantissaBitsWithoutImplicit (magnitude w) : ℚ) * unit spec =
      if magnitude w / 2 ^ spec.mantissaBitsWithoutImplicit = 0 then
        ((unpackMantissa w).toNat : ℚ) * 2 ^ (((unpackExponent w).toNat : ℤ) -
          (spec.exponentBias + spec.mantissaBitsWithoutImplicit) + 1)
      else
        ((1#1 ++ unpackMantissa w).toNat : ℚ) * 2 ^ (((unpackExponent w).toNat : ℤ) -
          (spec.exponentBias + spec.mantissaBitsWithoutImplicit)) := by
  have happend : (1#1 ++ unpackMantissa w).toNat =
      2 ^ spec.mantissaBitsWithoutImplicit + (unpackMantissa w).toNat := by
    rw [BitVec.toNat_append, BitVec.toNat_ofNat, Nat.shiftLeft_eq, Nat.or_comm]
    show _ ||| 1 * _ = _
    rw [one_mul, Nat.or_two_pow_eq_add_of_lt (unpackMantissa w).isLt, add_comm]
  rw [happend, toNat_unpackMantissa, toNat_unpackExponent, units, unit]
  split_ifs with hzero
  · rw [hzero]
    congr 2
    push_cast
    ring
  · obtain ⟨e, he⟩ := Nat.exists_eq_succ_of_ne_zero hzero
    rw [he, Nat.succ_sub_one]
    push_cast
    rw [mul_assoc, ← zpow_natCast (2 : ℚ) e, ← zpow_add₀ two_ne_zero]
    congr 2
    ring

variable {w}

theorem numberOf?_unpack_of_infinity_lt
    (h : infinity spec.numBits spec.mantissaBitsWithoutImplicit < magnitude w) :
    numberOf? (unpack spec w) = none := by
  have hmantissa : magnitude w % 2 ^ spec.mantissaBitsWithoutImplicit ≠ 0 := by
    have := magnitude_eq_of_infinity_le w h.le
    omega
  rw [unpack, if_pos ((unpackExponent_eq_neg_one_iff w).2 h.le),
    if_neg (mt (unpackMantissa_eq_zero_iff w).1 hmantissa)]
  rfl

theorem numberOf?_unpack_of_eq_infinity
    (h : magnitude w = infinity spec.numBits spec.mantissaBitsWithoutImplicit) :
    numberOf? (unpack spec w) = some (if w.msb then ⊥ else ⊤) := by
  have hmantissa : magnitude w % 2 ^ spec.mantissaBitsWithoutImplicit = 0 := by
    have := magnitude_eq_of_infinity_le w h.ge
    omega
  rw [unpack, if_pos ((unpackExponent_eq_neg_one_iff w).2 h.ge),
    if_pos ((unpackMantissa_eq_zero_iff w).2 hmantissa), ofBitVec_unpackSign]
  cases w.msb <;> rfl

theorem numberOf?_unpack_of_lt_infinity
    (h : magnitude w < infinity spec.numBits spec.mantissaBitsWithoutImplicit) :
    numberOf? (unpack spec w) =
      some (.ofRat (signedUnits w spec.mantissaBitsWithoutImplicit * unit spec)) := by
  have hexponent : unpackExponent w ≠ -1#(spec.exponentBits) :=
    mt (unpackExponent_eq_neg_one_iff w).1 h.not_ge
  have hvalue : (signedUnits w spec.mantissaBitsWithoutImplicit : ℚ) * unit spec =
      if w.msb then -(units spec.mantissaBitsWithoutImplicit (magnitude w) * unit spec)
      else units spec.mantissaBitsWithoutImplicit (magnitude w) * unit spec := by
    unfold signedUnits
    cases w.msb <;> simp
  rw [hvalue, units_mul_unit, unpack, if_neg hexponent, ofBitVec_unpackSign]
  by_cases hzero : magnitude w / 2 ^ spec.mantissaBitsWithoutImplicit = 0
  · rw [if_pos ((unpackExponent_eq_zero_iff w).2 hzero), if_pos hzero]
    by_cases hmantissa : unpackMantissa w = 0#(spec.mantissaBitsWithoutImplicit)
    · rw [dif_pos hmantissa, hmantissa]
      cases w.msb <;> simp [numberOf?]
    · rw [dif_neg hmantissa]
      cases w.msb <;> rfl
  · rw [if_neg (mt (unpackExponent_eq_zero_iff w).1 hzero), if_neg hzero]
    cases w.msb <;> rfl

/-- A float is no number above infinity, and else it stands for its signed units. -/
theorem numberOf?_unpack (spec : Format) (w : BitVec spec.numBits) : numberOf? (unpack spec w) =
    if infinity spec.numBits spec.mantissaBitsWithoutImplicit < magnitude w then none
    else some (extended (limit spec.numBits spec.mantissaBitsWithoutImplicit) (unit spec)
      (signedUnits w spec.mantissaBitsWithoutImplicit)) := by
  have hpos := limit_pos spec
  rcases lt_trichotomy (magnitude w)
    (infinity spec.numBits spec.mantissaBitsWithoutImplicit) with hlt | heq | hgt
  · have hinside := abs_lt.1 (abs_signedUnits_lt_limit_iff.2 hlt)
    rw [numberOf?_unpack_of_lt_infinity hlt, if_neg hlt.asymm, extended, if_neg hinside.2.not_ge,
      if_neg hinside.1.not_ge]
  · have hunits : units spec.mantissaBitsWithoutImplicit (magnitude w) =
        limit spec.numBits spec.mantissaBitsWithoutImplicit := congrArg (units _) heq
    rw [numberOf?_unpack_of_eq_infinity heq, if_neg heq.not_gt, extended, signedUnits, hunits]
    cases w.msb
    · rw [if_neg Bool.false_ne_true, if_neg Bool.false_ne_true, if_pos le_rfl]
    · rw [if_pos rfl, if_pos rfl, if_neg (by omega), if_pos le_rfl]
  · rw [numberOf?_unpack_of_infinity_lt hgt, if_pos hgt]

end Fields

end Floats

end Collate
