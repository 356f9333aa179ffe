/-!
# Little-endian numbers

A number as a fixed count of bytes, least significant first.  Below the limit of the count,
reading gives back what was written (`decode_encode`), and writing what was read
(`encode_decode`).
-/

namespace Collate.LittleEndian

-- Powers are those of the core library, whatever else is in scope.
attribute [local instance (2000)] instPowNat

/-- The lowest `count` bytes of `n`, least significant first. -/
def encode : (count n : Nat) → List UInt8
  | 0, _ => []
  | count + 1, n => UInt8.ofNat n :: encode count (n / 256)

/-- The number whose bytes, least significant first, are `bs`. -/
def decode : List UInt8 → Nat
  | [] => 0
  | b :: bs => b.toNat + 256 * decode bs

@[simp] theorem length_encode (count n : Nat) : (encode count n).length = count := by
  induction count generalizing n with
  | zero => rfl
  | succ count ih => simp [encode, ih]

theorem decode_lt (bs : List UInt8) : decode bs < 256 ^ bs.length := by
  induction bs with
  | nil => simp [decode]
  | cons b bs ih =>
    have := b.toNat_lt
    simp only [decode, List.length_cons, Nat.pow_succ]
    omega

theorem decode_encode (count n : Nat) : decode (encode count n) = n % 256 ^ count := by
  induction count generalizing n with
  | zero => simp [encode, decode, Nat.mod_one]
  | succ count ih =>
    have limit : 256 ^ (count + 1) = 256 * 256 ^ count := by rw [Nat.pow_succ, Nat.mul_comm]
    rw [encode, decode, ih, UInt8.toNat_ofNat', limit, Nat.mod_mul]

theorem encode_decode (bs : List UInt8) : encode bs.length (decode bs) = bs := by
  induction bs with
  | nil => rfl
  | cons b bs ih =>
    have hb := b.toNat_lt
    have tail : (b.toNat + 256 * decode bs) / 256 = decode bs := by omega
    have head : UInt8.ofNat (b.toNat + 256 * decode bs) = b := by
      apply UInt8.toNat_inj.1
      simp only [UInt8.toNat_ofNat']
      omega
    simp [encode, decode, tail, head, ih]

end Collate.LittleEndian
