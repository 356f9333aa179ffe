import Collate.Proofs.Number.FloatValue
import Collate.Proofs.Row.ValueOrder

/-!
# Sort keys embed the order of numbers

A sort key is a sum, of the integer that a word stores (`NumberFormat.exists_toNat_sortKey`) or of
the place of a float (`NumberFormat.toNat_sortKey_of_not_isNaN`), and the places of floats are in
the order of their signed units but for the zeros (`NumberFormat.place_lt_place_iff`).  So keys are
in the order of the exact numbers that words stand for (`NumberFormat.sortKeys_embed_numbers`).
-/

namespace Collate

open Float.Model (Format)
open Float.Model.UnpackedFloat (unpack)

namespace NumberFormat

variable {f : NumberFormat} {mantissaBits : ℕ} {v w : f.Word}

/-- The number that a word stands for; nothing for a float that is not a number. -/
def number? : (f : NumberFormat) → f.Word → Option ExtendedRat
  | float32, w => Floats.numberOf? (unpack .binary32 w)
  | float64, w => Floats.numberOf? (unpack .binary64 w)
  | f, w => some (.ofRat (f.value w))

/-- The word of the negative zero, in formats of floats. -/
def negativeZero? (f : NumberFormat) : Option f.Word :=
  match f.kind with
  | .float _ => some (BitVec.intMin f.bits)
  | _ => none

/-! ### Keys of words -/

theorem xor_two_pow {k x : ℕ} (hx : x < 2 ^ k * 2) :
    x ^^^ 2 ^ k = if x < 2 ^ k then x + 2 ^ k else x - 2 ^ k := by
  have hpos := Nat.two_pow_pos k
  have hsum := Nat.div_add_mod (x ^^^ 2 ^ k) (2 ^ k)
  have hsum' := Nat.div_add_mod x (2 ^ k)
  rw [Nat.xor_div_two_pow, Nat.xor_mod_two_pow, Nat.div_self hpos, Nat.mod_self, Nat.xor_zero]
    at hsum
  split_ifs with h
  · rw [Nat.div_eq_of_lt h] at hsum hsum'
    rw [Nat.zero_xor] at hsum
    omega
  · have hdiv : x / 2 ^ k = 1 := Nat.div_eq_of_lt_le (by omega) (by omega)
    rw [hdiv] at hsum hsum'
    rw [Nat.xor_self] at hsum
    omega

variable {n : ℕ}

theorem two_pow_width (hn : 0 < n) : 2 ^ n = 2 ^ (n - 1) * 2 := by
  rw [← pow_succ, Nat.sub_add_cancel hn]

/-- To turn the sign bit of an integer over is to add the greatest magnitude. -/
theorem toNat_xor_intMin (hn : 0 < n) (w : BitVec n) :
    ((w ^^^ BitVec.intMin n).toNat : ℤ) = (2 ^ (n - 1) : ℕ) + w.toInt := by
  have hlt : w.toNat < 2 ^ (n - 1) * 2 := two_pow_width hn ▸ w.isLt
  rw [BitVec.toNat_xor, BitVec.toNat_intMin_of_pos hn, xor_two_pow hlt,
    BitVec.toInt_eq_msb_cond, BitVec.msb_eq_decide, two_pow_width hn]
  simp only [decide_eq_true_eq]
  split_ifs <;> omega

/-- A word is its sign bit and its magnitude. -/
theorem toNat_eq_magnitude (hn : 0 < n) (w : BitVec n) :
    w.toNat = (if w.msb then 2 ^ (n - 1) else 0) + Floats.magnitude w := by
  have hlt : w.toNat < 2 ^ (n - 1) * 2 := two_pow_width hn ▸ w.isLt
  have hmod := Nat.mod_add_div w.toNat (2 ^ (n - 1))
  rw [BitVec.msb_eq_decide, Floats.magnitude]
  simp only [decide_eq_true_eq]
  split_ifs with h
  · rw [Nat.div_eq_of_lt_le (k := 1) (by omega) (by omega)] at hmod
    omega
  · rw [Nat.mod_eq_of_lt (not_le.1 h), zero_add]

/-- The place of a float among the floats, from the signed zeros up and down. -/
def place (w : BitVec n) : ℤ :=
  if w.msb then -(Floats.magnitude w : ℤ) - 1 else Floats.magnitude w

/-- To turn over all bits of a negative float and the sign of another one is to add the greatest
magnitude to its place. -/
theorem toNat_turnOver (hn : 0 < n) (w : BitVec n) :
    ((if w.msb then ~~~w else w ||| BitVec.intMin n).toNat : ℤ) = (2 ^ (n - 1) : ℕ) + place w := by
  have hlt := Floats.magnitude_lt w
  have hword := toNat_eq_magnitude hn w
  unfold place
  split_ifs at hword ⊢
  · rw [BitVec.toNat_not, two_pow_width hn]
    omega
  · rw [zero_add] at hword
    rw [BitVec.toNat_or, BitVec.toNat_intMin_of_pos hn, hword, Nat.or_two_pow_eq_add_of_lt hlt,
      Nat.cast_add, add_comm]

theorem place_injective (hn : 0 < n) : Function.Injective (place (n := n)) := by
  intro v w h
  refine BitVec.eq_of_toNat_eq ?_
  rw [toNat_eq_magnitude hn v, toNat_eq_magnitude hn w]
  unfold place at h
  split_ifs at h ⊢ <;> omega

theorem eq_intMin_iff (hn : 0 < n) (w : BitVec n) :
    w = BitVec.intMin n ↔ w.msb = true ∧ Floats.magnitude w = 0 := by
  have hlt := Floats.magnitude_lt w
  rw [← BitVec.toNat_inj, BitVec.toNat_intMin_of_pos hn, toNat_eq_magnitude hn w]
  cases w.msb
  · simpa using hlt.ne
  · simp

theorem eq_zero_iff (hn : 0 < n) (w : BitVec n) :
    w = 0 ↔ w.msb = false ∧ Floats.magnitude w = 0 := by
  have hpos := Nat.two_pow_pos (n - 1)
  have hzero : (0 : BitVec n).toNat = 0 := rfl
  rw [← BitVec.toNat_inj, hzero, toNat_eq_magnitude hn w]
  cases w.msb <;> simp

/-- The two zeros are next to each other; apart from them the places are in the order of the signed
units. -/
theorem place_lt_place_iff (hn : 0 < n) (mantissaBits : ℕ) (v w : BitVec n) : place v < place w ↔
    Floats.signedUnits v mantissaBits < Floats.signedUnits w mantissaBits ∨
      v = BitVec.intMin n ∧ w = 0 := by
  have hmono := Floats.units_strictMono mantissaBits
  have hzero := Floats.units_zero mantissaBits
  rw [eq_intMin_iff hn, eq_zero_iff hn, place, place, Floats.signedUnits, Floats.signedUnits]
  generalize Floats.magnitude v = a, Floats.magnitude w = b
  have hlt := hmono.lt_iff_lt (a := a) (b := b)
  have hlt' := hmono.lt_iff_lt (a := b) (b := a)
  have ha := hmono.lt_iff_lt (a := 0) (b := a)
  have hb := hmono.lt_iff_lt (a := 0) (b := b)
  rw [hzero] at ha hb
  cases v.msb <;> cases w.msb <;> simp <;> omega

/-! ### Keys of floats -/

theorem bits_pos (f : NumberFormat) : 0 < f.bits := by cases f <;> decide

theorem isNaN_iff : f.isNaN mantissaBits w ↔
    Floats.infinity f.bits mantissaBits < Floats.magnitude w := decide_eq_true_iff

theorem number?_of_float (hf : f.kind = .float mantissaBits) :
    ∃ unit : ℚ, 0 < unit ∧ ∀ w : f.Word, f.number? w =
      if f.isNaN mantissaBits w then none
      else some (Floats.extended (Floats.limit f.bits mantissaBits) unit
        (Floats.signedUnits w mantissaBits)) := by
  cases f with
  | float32 =>
    cases hf
    refine ⟨Floats.unit .binary32, Floats.unit_pos _, fun w => ?_⟩
    simp only [isNaN_iff]
    exact Floats.numberOf?_unpack .binary32 w
  | float64 =>
    cases hf
    refine ⟨Floats.unit .binary64, Floats.unit_pos _, fun w => ?_⟩
    simp only [isNaN_iff]
    exact Floats.numberOf?_unpack .binary64 w
  | _ => cases hf

theorem place_canonicalNaN (hf : f.kind = .float mantissaBits) :
    place (BitVec.ofNat f.bits (f.canonicalNaN mantissaBits)) = f.canonicalNaN mantissaBits := by
  cases f with
  | float32 =>
    cases hf
    decide
  | float64 =>
    cases hf
    decide
  | _ => cases hf

theorem toNat_sortKey_of_isNaN (hf : f.kind = .float mantissaBits) (h : f.isNaN mantissaBits w) :
    ((f.sortKey w).toNat : ℤ) = (2 ^ (f.bits - 1) : ℕ) + f.canonicalNaN mantissaBits := by
  rw [← place_canonicalNaN hf, ← toNat_turnOver f.bits_pos]
  unfold sortKey
  simp only [hf, h, if_true]

theorem toNat_sortKey_of_not_isNaN (hf : f.kind = .float mantissaBits)
    (h : ¬f.isNaN mantissaBits w) :
    ((f.sortKey w).toNat : ℤ) = (2 ^ (f.bits - 1) : ℕ) + place w := by
  rw [← toNat_turnOver f.bits_pos]
  unfold sortKey
  simp only [hf, Bool.eq_false_of_not_eq_true h, Bool.false_eq_true, if_false]

theorem sortKey_eq_of_isNaN (hf : f.kind = .float mantissaBits) (hv : f.isNaN mantissaBits v)
    (hw : f.isNaN mantissaBits w) : f.sortKey v = f.sortKey w := by
  refine BitVec.eq_of_toNat_eq (Nat.cast_injective (R := ℤ) ?_)
  rw [toNat_sortKey_of_isNaN hf hv, toNat_sortKey_of_isNaN hf hw]

theorem sortKey_lt_of_isNaN (hf : f.kind = .float mantissaBits) (hv : ¬f.isNaN mantissaBits v)
    (hw : f.isNaN mantissaBits w) : f.sortKey v < f.sortKey w := by
  have hplace : place v ≤ Floats.magnitude v := by
    unfold place
    split_ifs <;> omega
  have hinfinity := not_lt.1 (mt isNaN_iff.2 hv)
  have hcanonical : Floats.infinity f.bits mantissaBits < f.canonicalNaN mantissaBits :=
    Nat.lt_add_of_pos_right (Nat.two_pow_pos _)
  rw [BitVec.lt_def, ← Nat.cast_lt (α := ℤ), toNat_sortKey_of_not_isNaN hf hv,
    toNat_sortKey_of_isNaN hf hw]
  omega

theorem sortKey_lt_iff_of_not_isNaN (hf : f.kind = .float mantissaBits)
    (hv : ¬f.isNaN mantissaBits v) (hw : ¬f.isNaN mantissaBits w) :
    f.sortKey v < f.sortKey w ↔
      Floats.signedUnits v mantissaBits < Floats.signedUnits w mantissaBits ∨
        v = BitVec.intMin f.bits ∧ w = 0 := by
  rw [BitVec.lt_def, ← Nat.cast_lt (α := ℤ), toNat_sortKey_of_not_isNaN hf hv,
    toNat_sortKey_of_not_isNaN hf hw, add_lt_add_iff_left, place_lt_place_iff f.bits_pos]

theorem sortKey_eq_iff_of_not_isNaN (hf : f.kind = .float mantissaBits)
    (hv : ¬f.isNaN mantissaBits v) (hw : ¬f.isNaN mantissaBits w) :
    f.sortKey v = f.sortKey w ↔ v = w := by
  rw [← BitVec.toNat_inj, ← Nat.cast_inj (R := ℤ), toNat_sortKey_of_not_isNaN hf hv,
    toNat_sortKey_of_not_isNaN hf hw, add_right_inj, (place_injective f.bits_pos).eq_iff]

/-! ### Keys of integers -/

theorem toNat_sortKey_of_signed (hf : f.kind = .signed) (w : f.Word) :
    ((f.sortKey w).toNat : ℤ) = (2 ^ (f.bits - 1) : ℕ) + w.toInt := by
  rw [← toNat_xor_intMin f.bits_pos w]
  unfold sortKey
  simp only [hf]

theorem sortKey_of_unsigned (hf : f.kind = .unsigned) (w : f.Word) : f.sortKey w = w := by
  unfold sortKey
  simp only [hf]

theorem value_injective (f : NumberFormat) : Function.Injective f.value := by
  intro v w h
  unfold value at h
  split at h
  · exact BitVec.toInt_inj.1 h
  · exact BitVec.toNat_inj.1 (Nat.cast_inj.1 h)

/-- The keys of integers are the integers, from the least one on. -/
theorem exists_toNat_sortKey (hf : ∀ mantissaBits, f.kind ≠ .float mantissaBits) :
    ∃ offset : ℤ, ∀ w : f.Word, ((f.sortKey w).toNat : ℤ) = offset + f.value w := by
  cases hkind : f.kind with
  | unsigned =>
    refine ⟨0, fun w => ?_⟩
    rw [sortKey_of_unsigned hkind, zero_add, value, hkind]
  | signed =>
    refine ⟨(2 ^ (f.bits - 1) : ℕ), fun w => ?_⟩
    rw [toNat_sortKey_of_signed hkind, value, hkind]
  | float mantissaBits => exact absurd hkind (hf mantissaBits)

theorem number?_of_integer (hf : ∀ mantissaBits, f.kind ≠ .float mantissaBits) (w : f.Word) :
    f.number? w = some (.ofRat (f.value w)) := by
  cases f with
  | float32 => exact absurd rfl (hf 23)
  | float64 => exact absurd rfl (hf 52)
  | _ => rfl

/-! ### Keys of all formats -/

/-- The sort keys of two words are in the order of what the words stand for. -/
def KeysFollow (f : NumberFormat) (v w : f.Word) : Prop :=
  match f.number? v, f.number? w with
  | none, none => f.sortKey v = f.sortKey w
  | some _, none => f.sortKey v < f.sortKey w
  | none, some _ => f.sortKey w < f.sortKey v
  | some x, some y =>
    (f.sortKey v < f.sortKey w ↔ x < y ∨ f.negativeZero? = some v ∧ w = 0) ∧
      (f.sortKey v = f.sortKey w ↔ v = w)

theorem keysFollow_of_integer (hf : ∀ mantissaBits, f.kind ≠ .float mantissaBits) (v w : f.Word) :
    f.KeysFollow v w := by
  obtain ⟨offset, hkey⟩ := exists_toNat_sortKey hf
  have hzero : f.negativeZero? = none := by
    unfold negativeZero?
    split
    · next hfloat => exact absurd hfloat (hf _)
    · rfl
  unfold KeysFollow
  rw [number?_of_integer hf, number?_of_integer hf, hzero]
  simp only [ExtendedRat.ofRat_lt_ofRat_iff, Int.cast_lt, reduceCtorEq, false_and, or_false]
  constructor
  · rw [BitVec.lt_def, ← Nat.cast_lt (α := ℤ), hkey, hkey, add_lt_add_iff_left]
  · rw [← BitVec.toNat_inj, ← Nat.cast_inj (R := ℤ), hkey, hkey, add_right_inj,
      f.value_injective.eq_iff]

theorem keysFollow_of_float (hf : f.kind = .float mantissaBits) (v w : f.Word) :
    f.KeysFollow v w := by
  obtain ⟨unit, hunit, hnumber⟩ := number?_of_float hf
  unfold KeysFollow
  rw [hnumber, hnumber]
  by_cases hv : f.isNaN mantissaBits v <;> by_cases hw : f.isNaN mantissaBits w
  · rw [if_pos hv, if_pos hw]
    exact sortKey_eq_of_isNaN hf hv hw
  · rw [if_pos hv, if_neg hw]
    exact sortKey_lt_of_isNaN hf hw hv
  · rw [if_neg hv, if_pos hw]
    exact sortKey_lt_of_isNaN hf hv hw
  · rw [if_neg hv, if_neg hw]
    have hlimit : ∀ u : f.Word, ¬f.isNaN mantissaBits u →
        |Floats.signedUnits u mantissaBits| ≤ Floats.limit f.bits mantissaBits :=
      fun u hu => Floats.abs_signedUnits_le_limit_iff.2 (not_lt.1 (mt isNaN_iff.2 hu))
    refine ⟨?_, sortKey_eq_iff_of_not_isNaN hf hv hw⟩
    rw [Floats.extended_lt_iff hunit (hlimit v hv) (hlimit w hw),
      sortKey_lt_iff_of_not_isNaN hf hv hw, negativeZero?, hf, Option.some_inj, eq_comm (a := v)]

theorem keysFollow (f : NumberFormat) (v w : f.Word) : f.KeysFollow v w := by
  by_cases hf : ∃ mantissaBits, f.kind = .float mantissaBits
  · obtain ⟨mantissaBits, hf⟩ := hf
    exact keysFollow_of_float hf v w
  · exact keysFollow_of_integer (not_exists.1 hf) v w

/-- Sort keys embed the order of numbers.  In every format two words that stand for numbers have
keys in the order of these numbers, where only the negative zero comes before the positive one and
no two words have the same key; floats that are not a number have one key, above all others.  For
signed integers that is the order in two's complement, and flags are in the order of their keys. -/
theorem sortKeys_embed_numbers :
    (∀ (f : NumberFormat) (v w : f.Word), f.KeysFollow v w) ∧
      (∀ f : NumberFormat, f.kind = .signed → ∀ v w : f.Word,
        f.sortKey v < f.sortKey w ↔ v.toInt < w.toInt) ∧
      ∀ a b : Bool, Layout.flag.order a b = compare a b := by
  refine ⟨keysFollow, fun f hf v w => ?_, fun a b => ?_⟩
  · rw [BitVec.lt_def, ← Nat.cast_lt (α := ℤ), toNat_sortKey_of_signed hf,
      toNat_sortKey_of_signed hf, add_lt_add_iff_left]
  · cases a <;> cases b <;> rfl

theorem sortKeys_of_zeros : NumberFormat.int128.kind = .signed ∧
    int128.sortKey (-1 : BitVec 128) < int128.sortKey (0 : BitVec 128) ∧
    float64.number? (BitVec.intMin 64) = some (.ofRat 0) ∧
    float64.number? (0 : BitVec 64) = some (.ofRat 0) ∧
    float64.sortKey (BitVec.intMin 64) < float64.sortKey (0 : BitVec 64) := by
  have hzeros : float64.KeysFollow (BitVec.intMin 64) (0 : BitVec 64) :=
    sortKeys_embed_numbers.1 float64 _ _
  exact ⟨rfl, (sortKeys_embed_numbers.2.1 int128 rfl _ _).2 (by decide), rfl, rfl,
    hzeros.1.2 (.inr ⟨rfl, rfl⟩)⟩

end NumberFormat

end Collate
