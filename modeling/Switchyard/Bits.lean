import Switchyard.Bytes

/-!
# Bit strings

A bit string is a list of bits, most significant first. Header fields are cut from packets and put
back at arbitrary bit positions, so both directions go through this view: `Bits.ofBytes` opens bytes
into bits, `Bits.toBytes` closes them again and fills the last byte with zeros.
-/

namespace Switchyard

/-- A bit string, most significant bit first. -/
abbrev Bits := List Bool

namespace Bits

/-- The `w` low bits of `n`. -/
def ofNat : Nat → Nat → Bits
  | 0, _ => []
  | w + 1, n => n.testBit w :: ofNat w n

/-- The number spelled by a bit string. -/
def toNat : Bits → Nat
  | [] => 0
  | b :: rest => b.toNat * Nat.pow 2 rest.length + toNat rest

/-- All bits of a byte string. -/
def ofBytes (bs : Bytes) : Bits := bs.flatMap fun b => ofNat 8 b.toNat

/-- The bit string in whole bytes, the last one filled up with zero bits. -/
def toBytes (bits : Bits) : Bytes :=
  if bits = [] then []
  else
    let head := bits.take 8
    UInt8.ofNat (toNat head * Nat.pow 2 (8 - head.length)) :: toBytes (bits.drop 8)
termination_by bits.length
decreasing_by
  have := List.length_pos_iff.mpr ‹¬bits = []›
  simp only [List.length_drop]
  omega

/-- The number in the `w` bits of `data` from bit position `pos` on. Only the bytes that hold them
are opened. -/
def read (data : Bytes) (pos w : Nat) : Nat :=
  let window := (data.drop (pos / 8)).take ((pos % 8 + w + 7) / 8)
  toNat (((ofBytes window).drop (pos % 8)).take w)

@[simp] theorem length_ofNat (w n : Nat) : (ofNat w n).length = w := by
  induction w with
  | zero => rfl
  | succ w ih => simp [ofNat, ih]

@[simp] theorem length_ofBytes (bs : Bytes) : (ofBytes bs).length = 8 * bs.length := by
  induction bs with
  | nil => rfl
  | cons b rest ih =>
    have h : ofBytes (b :: rest) = ofNat 8 b.toNat ++ ofBytes rest := by simp [ofBytes]
    rw [h, List.length_append, length_ofNat, ih, List.length_cons]
    omega

/-- Reading back `w` bits gives the number modulo `Nat.pow 2 w`. -/
theorem toNat_ofNat (w n : Nat) : toNat (ofNat w n) = n % Nat.pow 2 w := by
  induction w with
  | zero => simp [ofNat, toNat, Nat.mod_one]
  | succ w ih =>
    simp only [ofNat, toNat, length_ofNat, ih, Nat.pow_eq]
    rw [Nat.pow_succ, Nat.mod_mul, Nat.toNat_testBit, Nat.mul_comm, Nat.add_comm]

theorem toNat_lt (bits : Bits) : toNat bits < Nat.pow 2 bits.length := by
  induction bits with
  | nil => simp [toNat]
  | cons b rest ih =>
    have hb : b.toNat ≤ 1 := Bool.toNat_le b
    simp only [Nat.pow_eq] at ih ⊢
    simp only [toNat, List.length_cons, Nat.pow_eq, Nat.pow_succ]
    have : b.toNat * 2 ^ rest.length ≤ 1 * 2 ^ rest.length := Nat.mul_le_mul_right _ hb
    omega

end Bits

end Switchyard
