import Mathlib.Data.Nat.ModEq
import Mathlib.Tactic.Ring

/-!
# Big-endian integers

`encode w n` is the number `n` in `w` bytes, most significant first, and
`decode` reads a byte string back.  Encoding drops what does not fit, so the
round trip gives `n % 256 ^ w`.  A decoded string is always in range and
encodes back to itself.
-/

namespace BigEndian

/-- `n` in `w` bytes, most significant first. -/
def encode : Nat → Nat → List UInt8
  | 0, _ => []
  | w + 1, n => UInt8.ofNat (n / 256 ^ w) :: encode w n

/-- The number a byte string spells, most significant byte first. -/
def decode : List UInt8 → Nat
  | [] => 0
  | b :: bs => b.toNat * 256 ^ bs.length + decode bs

@[simp] theorem length_encode : ∀ w n : Nat, (encode w n).length = w
  | 0, _ => rfl
  | w + 1, n => by rw [encode, List.length_cons, length_encode w n]

theorem decode_lt : ∀ bs : List UInt8, decode bs < 256 ^ bs.length
  | [] => by simp [decode]
  | b :: bs => by
      have ih := decode_lt bs
      have hb : b.toNat + 1 ≤ 256 := b.toNat_lt
      calc decode (b :: bs) < b.toNat * 256 ^ bs.length + 256 ^ bs.length := by
            rw [decode]; omega
        _ = (b.toNat + 1) * 256 ^ bs.length := by ring
        _ ≤ 256 * 256 ^ bs.length := Nat.mul_le_mul_right _ hb
        _ = 256 ^ (b :: bs).length := by rw [List.length_cons, pow_succ, Nat.mul_comm]

/-- What does not fit in `w` bytes is lost. -/
theorem decode_encode : ∀ w n : Nat, decode (encode w n) = n % 256 ^ w
  | 0, n => by simp [encode, decode, Nat.mod_one]
  | w + 1, n => by
      rw [encode, decode, decode_encode w n, length_encode, Nat.mod_pow_succ]
      simp only [UInt8.toNat_ofNat']
      ring

theorem decode_encode_of_lt {w n : Nat} (h : n < 256 ^ w) : decode (encode w n) = n := by
  rw [decode_encode, Nat.mod_eq_of_lt h]

/-- A field is read back where it was written. -/
theorem take_drop_encode {before : List UInt8} {o : Nat} (ho : before.length = o) (w n : Nat)
    (rest : List UInt8) :
    ((before ++ (encode w n ++ rest)).drop o).take w = encode w n := by
  rw [List.drop_left' ho]
  exact List.take_left' (length_encode w n)

/-- Bytes above the encoded width do not matter. -/
theorem encode_add_mul (w : Nat) : ∀ (n k : Nat), encode w (n + k * 256 ^ w) = encode w n := by
  induction w with
  | zero => intro n k; rfl
  | succ w ih =>
      intro n k
      have hdiv : (n + k * 256 ^ (w + 1)) / 256 ^ w = n / 256 ^ w + 256 * k := by
        rw [show n + k * 256 ^ (w + 1) = n + 256 ^ w * (256 * k) by ring,
          Nat.add_mul_div_left _ _ (Nat.pow_pos (by decide))]
      rw [encode, encode, hdiv, show k * 256 ^ (w + 1) = (256 * k) * 256 ^ w by ring, ih]
      congr 1
      apply UInt8.toNat_inj.mp
      simp only [UInt8.toNat_ofNat']
      omega

/-- A byte string is the encoding of the number it spells. -/
theorem encode_decode : ∀ bs : List UInt8, encode bs.length (decode bs) = bs
  | [] => rfl
  | b :: bs => by
      have hlt := decode_lt bs
      have hdiv : (b.toNat * 256 ^ bs.length + decode bs) / 256 ^ bs.length = b.toNat := by
        rw [Nat.mul_comm, Nat.mul_add_div (Nat.pow_pos (by decide)), Nat.div_eq_of_lt hlt,
          Nat.add_zero]
      rw [List.length_cons, decode, encode, hdiv, Nat.add_comm, encode_add_mul,
        encode_decode bs, UInt8.ofNat_toNat]

theorem encode_decode_of_length {bs : List UInt8} {w : Nat} (h : bs.length = w) :
    encode w (decode bs) = bs :=
  h ▸ encode_decode bs

end BigEndian
