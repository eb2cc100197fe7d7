import Mathlib.Algebra.Ring.Nat

/-!
# Numbers as bytes, the highest first

`encode n v` writes the low `n` bytes of `v`, `decode` reads a number back: what was written of it
(`decode_encode`).
-/

namespace BigEndian

/-- The low `n` bytes of `v`, the highest first. -/
def encode : Nat → Nat → List UInt8
  | 0, _ => []
  | n + 1, v => .ofNat (v / 256 ^ n) :: encode n v

/-- The number that bytes spell, the highest first. -/
def decode : List UInt8 → Nat
  | [] => 0
  | b :: l => b.toNat * 256 ^ l.length + decode l

@[simp] theorem length_encode (n v : Nat) : (encode n v).length = n := by
  induction n with
  | zero => rfl
  | succ n ih => rw [encode, List.length_cons, ih]

/-- **Reading what was written.** The bytes give back what of the number they hold. -/
theorem decode_encode (n v : Nat) : decode (encode n v) = v % 256 ^ n := by
  induction n with
  | zero => rw [encode, decode, pow_zero, Nat.mod_one]
  | succ n ih =>
    have hb : (UInt8.ofNat (v / 256 ^ n)).toNat = v / 256 ^ n % 256 := UInt8.toNat_ofNat'
    rw [encode, decode, ih, length_encode, hb, pow_succ, Nat.mod_mul, Nat.mul_comm, Nat.add_comm]

end BigEndian
