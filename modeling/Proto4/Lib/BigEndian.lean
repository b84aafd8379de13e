/-
# `BigEndian` — fixed-width big-endian naturals over bytes

`encode w n` is the `w` bytes of `n`, most significant first; what does not
fit in `w` bytes is dropped, as a machine cast drops it.  `decode` reads any
byte list back.  The two laws a wire format needs are `decode_encode` (below
`256 ^ w`, nothing is lost) and `encode_decode` (every byte list of the width
is the encoding of what it decodes to); injectivity follows from the first.

The last section states the same at the two widths a format of 64-bit and
16-bit fields uses, with `UInt64` and `UInt16` in place of `Nat`.
-/
import Mathlib.Tactic.Ring

namespace BigEndian

/-- The `w` big-endian bytes of `n`. -/
def encode : Nat → Nat → List UInt8
  | 0, _ => []
  | w + 1, n => UInt8.ofNat (n / 256 ^ w) :: encode w n

/-- The natural a big-endian byte list stands for. -/
def decode : List UInt8 → Nat
  | [] => 0
  | b :: bs => b.toNat * 256 ^ bs.length + decode bs

@[simp] theorem length_encode (w n : Nat) : (encode w n).length = w := by
  induction w with
  | zero => rfl
  | succ w ih => simp only [encode, List.length_cons, ih]

theorem decode_lt (bs : List UInt8) : decode bs < 256 ^ bs.length := by
  induction bs with
  | nil => exact Nat.one_pos
  | cons b bs ih =>
      have hb : b.toNat + 1 ≤ 256 := b.toNat_lt
      calc decode (b :: bs)
          < b.toNat * 256 ^ bs.length + 256 ^ bs.length := Nat.add_lt_add_left ih _
        _ = (b.toNat + 1) * 256 ^ bs.length := by ring
        _ ≤ 256 * 256 ^ bs.length := Nat.mul_le_mul_right _ hb
        _ = 256 ^ (b :: bs).length := by rw [List.length_cons, pow_succ, mul_comm]

/-- Only the low `w` bytes of the number count. -/
theorem decode_encode_mod (w n : Nat) : decode (encode w n) = n % 256 ^ w := by
  induction w with
  | zero => simp [encode, decode, Nat.mod_one]
  | succ w ih =>
      have htop : (UInt8.ofNat (n / 256 ^ w)).toNat = n / 256 ^ w % 256 := by
        simp [UInt8.toNat_ofNat']
      rw [encode, decode, length_encode, ih, htop, pow_succ, Nat.mod_mul]
      ring

theorem decode_encode {w n : Nat} (h : n < 256 ^ w) : decode (encode w n) = n := by
  rw [decode_encode_mod, Nat.mod_eq_of_lt h]

/-- Adding a multiple of `256 ^ w` above the field does not change its bytes. -/
theorem encode_add_mul (w k n : Nat) : encode w (k * 256 ^ w + n) = encode w n := by
  induction w generalizing k with
  | zero => rfl
  | succ w ih =>
      have hsplit : k * 256 ^ (w + 1) + n = (k * 256) * 256 ^ w + n := by ring
      have hdiv : ((k * 256) * 256 ^ w + n) / 256 ^ w = k * 256 + n / 256 ^ w := by
        rw [Nat.add_comm, Nat.add_mul_div_right _ _ (Nat.pow_pos (by omega)), Nat.add_comm]
      have hbyte : UInt8.ofNat (k * 256 + n / 256 ^ w) = UInt8.ofNat (n / 256 ^ w) := by
        apply UInt8.toNat_inj.mp
        simp only [UInt8.toNat_ofNat']
        omega
      rw [hsplit, encode, encode, ih, hdiv, hbyte]

theorem encode_decode (bs : List UInt8) : encode bs.length (decode bs) = bs := by
  induction bs with
  | nil => rfl
  | cons b bs ih =>
      have hlt := decode_lt bs
      have hdiv : (b.toNat * 256 ^ bs.length + decode bs) / 256 ^ bs.length = b.toNat := by
        rw [Nat.add_comm, Nat.add_mul_div_right _ _ (Nat.pow_pos (by omega)),
          Nat.div_eq_of_lt hlt, Nat.zero_add]
      rw [List.length_cons, encode, decode, hdiv, encode_add_mul, ih, UInt8.ofNat_toNat]

/-! ## Machine words -/

/-- The eight bytes of a 64-bit word. -/
def ofU64 (x : UInt64) : List UInt8 := encode 8 x.toNat

/-- The 64-bit word of eight bytes. -/
def toU64 (bs : List UInt8) : UInt64 := UInt64.ofNat (decode bs)

/-- The two bytes of a 16-bit word. -/
def ofU16 (x : UInt16) : List UInt8 := encode 2 x.toNat

/-- The 16-bit word of two bytes. -/
def toU16 (bs : List UInt8) : UInt16 := UInt16.ofNat (decode bs)

@[simp] theorem length_ofU64 (x : UInt64) : (ofU64 x).length = 8 := length_encode 8 _

@[simp] theorem length_ofU16 (x : UInt16) : (ofU16 x).length = 2 := length_encode 2 _

@[simp] theorem toU64_ofU64 (x : UInt64) : toU64 (ofU64 x) = x := by
  have h : x.toNat < 256 ^ 8 := by simpa using x.toNat_lt
  rw [toU64, ofU64, decode_encode h, UInt64.ofNat_toNat]

@[simp] theorem toU16_ofU16 (x : UInt16) : toU16 (ofU16 x) = x := by
  have h : x.toNat < 256 ^ 2 := by simpa using x.toNat_lt
  rw [toU16, ofU16, decode_encode h, UInt16.ofNat_toNat]

theorem ofU64_toU64 {bs : List UInt8} (h : bs.length = 8) : ofU64 (toU64 bs) = bs := by
  have hlt : decode bs < 2 ^ 64 := by simpa [h] using decode_lt bs
  have hval : (UInt64.ofNat (decode bs)).toNat = decode bs := by
    rw [UInt64.toNat_ofNat']
    exact Nat.mod_eq_of_lt hlt
  have := encode_decode bs
  rw [h] at this
  rw [ofU64, toU64, hval, this]

theorem ofU16_toU16 {bs : List UInt8} (h : bs.length = 2) : ofU16 (toU16 bs) = bs := by
  have hlt : decode bs < 2 ^ 16 := by simpa [h] using decode_lt bs
  have hval : (UInt16.ofNat (decode bs)).toNat = decode bs := by
    rw [UInt16.toNat_ofNat']
    exact Nat.mod_eq_of_lt hlt
  have := encode_decode bs
  rw [h] at this
  rw [ofU16, toU16, hval, this]

theorem ofU64_injective {x y : UInt64} (h : ofU64 x = ofU64 y) : x = y := by
  rw [← toU64_ofU64 x, h, toU64_ofU64]

end BigEndian
