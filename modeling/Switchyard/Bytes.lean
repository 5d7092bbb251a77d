/-!
# Byte strings

A byte string is a list of bytes. This module reads and writes numbers in big-endian order:
`BigEndian.value` is the number that a byte string spells, `BigEndian.encode k` spells a number in
`k` bytes. The two undo each other on numbers that fit.
-/

namespace Switchyard

/-- A byte string, first byte first. -/
abbrev Bytes := List UInt8

namespace BigEndian

/-- The number spelled by a byte string, most significant byte first. -/
def value : Bytes → Nat
  | [] => 0
  | b :: rest => b.toNat * Nat.pow 256 rest.length + value rest

/-- The number spelled by the `count` bytes from position `start` on. -/
def read (bs : Bytes) (start count : Nat) : Nat := value ((bs.drop start).take count)

/-- The `k` low bytes of `n`, most significant first. -/
def encode : Nat → Nat → Bytes
  | 0, _ => []
  | k + 1, n => UInt8.ofNat (n / Nat.pow 256 k) :: encode k n

@[simp] theorem length_encode (k n : Nat) : (encode k n).length = k := by
  induction k with
  | zero => rfl
  | succ k ih => simp [encode, ih]

/-- Reading back `k` bytes gives the number modulo `Nat.pow 256 k`. -/
theorem value_encode (k n : Nat) : value (encode k n) = n % Nat.pow 256 k := by
  induction k with
  | zero => simp [encode, value, Nat.mod_one]
  | succ k ih =>
    have hb : (UInt8.ofNat (n / 256 ^ k)).toNat = n / 256 ^ k % 256 := UInt8.toNat_ofNat'
    simp only [Nat.pow_eq] at ih ⊢
    rw [encode, value, length_encode, ih]
    simp only [Nat.pow_eq]
    rw [hb, Nat.pow_succ, Nat.mod_mul, Nat.mul_comm, Nat.add_comm]

theorem value_lt (bs : Bytes) : value bs < Nat.pow 256 bs.length := by
  induction bs with
  | nil => simp [value]
  | cons b rest ih =>
    have hb : b.toNat < 256 := b.toNat_lt
    simp only [Nat.pow_eq] at ih ⊢
    simp only [value, List.length_cons, Nat.pow_eq, Nat.pow_succ]
    calc b.toNat * 256 ^ rest.length + value rest
        < b.toNat * 256 ^ rest.length + 256 ^ rest.length := by omega
      _ = (b.toNat + 1) * 256 ^ rest.length := by rw [Nat.add_mul, Nat.one_mul]
      _ ≤ 256 * 256 ^ rest.length := Nat.mul_le_mul_right _ (by omega)
      _ = 256 ^ rest.length * 256 := Nat.mul_comm ..

/-- Higher bytes do not change the low `k` bytes. -/
theorem encode_add_mul (k n m : Nat) : encode k (m * Nat.pow 256 k + n) = encode k n := by
  induction k generalizing n m with
  | zero => rfl
  | succ k ih =>
    simp only [Nat.pow_eq] at ih ⊢
    have hm : m * 256 ^ (k + 1) = (m * 256) * 256 ^ k := by
      rw [Nat.pow_succ, Nat.mul_comm (256 ^ k), Nat.mul_assoc]
    simp only [encode, Nat.pow_eq, hm, ih, List.cons.injEq, and_true]
    rw [Nat.add_comm, Nat.add_mul_div_right _ _ (Nat.pow_pos (by decide))]
    apply UInt8.toNat_inj.mp
    simp only [UInt8.toNat_ofNat']
    omega

/-- Writing the number of a byte string in as many bytes gives the byte string. -/
theorem encode_value (bs : Bytes) : encode bs.length (value bs) = bs := by
  induction bs with
  | nil => rfl
  | cons b rest ih =>
    have hlt := value_lt rest
    simp only [List.length_cons, encode, value, encode_add_mul, ih, List.cons.injEq, and_true]
    simp only [Nat.pow_eq] at hlt ⊢
    rw [Nat.add_comm, Nat.add_mul_div_right _ _ (Nat.pow_pos (by decide)), Nat.div_eq_of_lt hlt,
      Nat.zero_add]
    exact UInt8.ofNat_toNat

end BigEndian

end Switchyard
