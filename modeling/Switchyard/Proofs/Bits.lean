import Switchyard.Bits
import Switchyard.Proofs.Bytes

/-!
# Bytes as bits

Opening bytes into bits and closing them again are inverse up to the zeros that fill the last byte.
A slice of bits at byte boundaries is a slice of bytes, so numbers read bit by bit are the big-endian
numbers of the byte view.
-/

namespace Switchyard

namespace Bits

@[simp] theorem ofBytes_nil : ofBytes [] = [] := rfl

theorem ofBytes_cons (b : UInt8) (bs : Bytes) : ofBytes (b :: bs) = ofNat 8 b.toNat ++ ofBytes bs := by
  simp only [ofBytes, List.flatMap_cons]

theorem ofBytes_append (as bs : Bytes) : ofBytes (as ++ bs) = ofBytes as ++ ofBytes bs := by
  simp only [ofBytes, List.flatMap_append]

theorem toNat_append (front back : Bits) :
    toNat (front ++ back) = toNat front * Nat.pow 2 back.length + toNat back := by
  induction front with
  | nil => simp [toNat]
  | cons b front ih =>
    simp only [List.cons_append, toNat, List.length_append, ih, Nat.pow_eq, Nat.pow_add]
    rw [Nat.add_mul, Nat.mul_assoc, Nat.add_assoc]

/-- A bit string of known length is known by its number. -/
theorem eq_of_toNat_eq {front back : Bits} (length : front.length = back.length)
    (number : toNat front = toNat back) : front = back := by
  induction front generalizing back with
  | nil => exact (List.eq_nil_of_length_eq_zero length.symm).symm
  | cons b front ih =>
    cases back with
    | nil => simp at length
    | cons c back =>
      have rest : front.length = back.length := by simpa using length
      have frontBound := toNat_lt front
      have backBound := toNat_lt back
      simp only [toNat, rest] at number frontBound
      have first : b = c := by
        cases b <;> cases c <;> simp only [Bool.toNat_true, Bool.toNat_false] at number <;>
          first | rfl | omega
      subst first
      rw [ih rest (by omega)]

/-- Writing the number of a bit string in as many bits gives the bit string. -/
theorem ofNat_toNat (bits : Bits) : ofNat bits.length (toNat bits) = bits := by
  apply eq_of_toNat_eq (length_ofNat _ _)
  rw [toNat_ofNat, Nat.mod_eq_of_lt (toNat_lt bits)]

/-- Only the low bits of a number are written. -/
theorem ofNat_mod (w n : Nat) : ofNat w (n % Nat.pow 2 w) = ofNat w n := by
  apply eq_of_toNat_eq (by rw [length_ofNat, length_ofNat])
  rw [toNat_ofNat, toNat_ofNat, Nat.mod_mod]

theorem toNat_ofNat_of_lt {w n : Nat} (fits : n < Nat.pow 2 w) : toNat (ofNat w n) = n := by
  rw [toNat_ofNat, Nat.mod_eq_of_lt fits]

theorem toNat_ofBytes (bs : Bytes) : toNat (ofBytes bs) = BigEndian.value bs := by
  induction bs with
  | nil => rfl
  | cons b bs ih =>
    have byte : b.toNat < Nat.pow 2 8 := b.toNat_lt
    have power : Nat.pow 2 (8 * bs.length) = Nat.pow 256 bs.length := by
      simp only [Nat.pow_eq]
      rw [Nat.pow_mul]
    rw [ofBytes_cons, toNat_append, toNat_ofNat_of_lt byte, length_ofBytes, ih, power,
      BigEndian.value]

/-- Whole bytes of a number are its big-endian spelling. -/
theorem ofNat_eight_mul (k n : Nat) : ofNat (8 * k) n = ofBytes (BigEndian.encode k n) := by
  apply eq_of_toNat_eq (by rw [length_ofNat, length_ofBytes, BigEndian.length_encode])
  have power : Nat.pow 2 (8 * k) = Nat.pow 256 k := by
    simp only [Nat.pow_eq]
    rw [Nat.pow_mul]
  rw [toNat_ofNat, toNat_ofBytes, BigEndian.value_encode, power]

theorem take_ofBytes (bs : Bytes) (n : Nat) : (ofBytes bs).take (8 * n) = ofBytes (bs.take n) := by
  by_cases short : bs.length ≤ n
  · rw [List.take_of_length_le (by rw [length_ofBytes]; omega), List.take_of_length_le short]
  · have length : (ofBytes (bs.take n)).length = 8 * n := by
      rw [length_ofBytes, List.length_take]
      omega
    calc (ofBytes bs).take (8 * n)
        = (ofBytes (bs.take n) ++ ofBytes (bs.drop n)).take (8 * n) := by
          rw [← ofBytes_append, List.take_append_drop]
      _ = ofBytes (bs.take n) := by rw [← length, List.take_left]

theorem drop_ofBytes (bs : Bytes) (n : Nat) : (ofBytes bs).drop (8 * n) = ofBytes (bs.drop n) := by
  by_cases short : bs.length ≤ n
  · rw [List.drop_of_length_le (by rw [length_ofBytes]; omega), List.drop_of_length_le short,
      ofBytes_nil]
  · have length : (ofBytes (bs.take n)).length = 8 * n := by
      rw [length_ofBytes, List.length_take]
      omega
    calc (ofBytes bs).drop (8 * n)
        = (ofBytes (bs.take n) ++ ofBytes (bs.drop n)).drop (8 * n) := by
          rw [← ofBytes_append, List.take_append_drop]
      _ = ofBytes (bs.drop n) := by rw [← length, List.drop_left]

/-- Reading opens only the bytes that matter, but means the bits of the whole byte string. -/
theorem read_eq (data : Bytes) (pos w : Nat) :
    read data pos w = toNat (((ofBytes data).drop pos).take w) := by
  have position : pos = 8 * (pos / 8) + pos % 8 := by omega
  simp only [read]
  rw [← take_ofBytes, ← drop_ofBytes]
  conv => rhs; rw [position]
  rw [← List.drop_drop, List.drop_take, List.take_take, Nat.min_eq_left (by omega)]

theorem read_lt (data : Bytes) (pos w : Nat) : read data pos w < Nat.pow 2 w := by
  rw [read_eq]
  have bound := toNat_lt (((ofBytes data).drop pos).take w)
  have length : (((ofBytes data).drop pos).take w).length ≤ w := by
    rw [List.length_take]
    omega
  exact Nat.lt_of_lt_of_le bound (Nat.pow_le_pow_right (by decide) length)

/-- Writing the number that was read gives the bits back. -/
theorem ofNat_read {data : Bytes} {pos w : Nat} (inside : pos + w ≤ 8 * data.length) :
    ofNat w (read data pos w) = ((ofBytes data).drop pos).take w := by
  have length : (((ofBytes data).drop pos).take w).length = w := by
    rw [List.length_take, List.length_drop, length_ofBytes]
    omega
  have written := ofNat_toNat (((ofBytes data).drop pos).take w)
  rwa [length, ← read_eq] at written

/-- Whole bytes read as a big-endian number. -/
theorem read_bytes (data : Bytes) (start count : Nat) :
    read data (8 * start) (8 * count) = BigEndian.read data start count := by
  rw [read_eq, drop_ofBytes, take_ofBytes, toNat_ofBytes, BigEndian.read]

theorem toNat_drop (bits : Bits) (n : Nat) :
    toNat (bits.drop n) = toNat bits % Nat.pow 2 (bits.length - n) := by
  have split := toNat_append (bits.take n) (bits.drop n)
  have bound := toNat_lt (bits.drop n)
  rw [List.take_append_drop, List.length_drop] at split
  rw [List.length_drop] at bound
  rw [split, Nat.add_comm, Nat.add_mul_mod_self_right, Nat.mod_eq_of_lt bound]

/-- The low bits of a byte. -/
theorem read_low {data : Bytes} {start w : Nat} (inside : start < data.length) (narrow : w ≤ 8) :
    read data (8 * start + (8 - w)) w = BigEndian.read data start 1 % Nat.pow 2 w := by
  have byte : (((ofBytes data).drop (8 * start)).take 8).length = 8 := by
    rw [List.length_take, List.length_drop, length_ofBytes]
    omega
  have window : ((ofBytes data).drop (8 * start + (8 - w))).take w =
      (((ofBytes data).drop (8 * start)).take 8).drop (8 - w) := by
    rw [List.drop_take, List.drop_drop]
    congr 1
    omega
  have number : toNat (((ofBytes data).drop (8 * start)).take 8) = BigEndian.read data start 1 := by
    rw [← read_bytes, read_eq]
  rw [read_eq, window, toNat_drop, byte, number, Nat.sub_sub_self narrow]

@[simp] theorem toBytes_nil : toBytes [] = [] := by
  rw [toBytes, if_pos rfl]

/-- A whole byte in front closes into that byte. -/
theorem toBytes_byte_append (b : UInt8) (bits : Bits) :
    toBytes (ofNat 8 b.toNat ++ bits) = b :: toBytes bits := by
  have eight : (ofNat 8 b.toNat).length = 8 := length_ofNat _ _
  have nonempty : ofNat 8 b.toNat ++ bits ≠ [] := by
    intro empty
    have := congrArg List.length empty
    rw [List.length_append, eight] at this
    simp at this
  have byte : b.toNat < Nat.pow 2 8 := b.toNat_lt
  have head : (ofNat 8 b.toNat ++ bits).take 8 = ofNat 8 b.toNat := List.take_left' eight
  have tail : (ofNat 8 b.toNat ++ bits).drop 8 = bits := List.drop_left' eight
  rw [toBytes, if_neg nonempty]
  simp only [head, tail, eight, toNat_ofNat_of_lt byte, Nat.sub_self, Nat.pow_eq, Nat.pow_zero,
    Nat.mul_one, UInt8.ofNat_toNat]

theorem toBytes_ofBytes_append (bs : Bytes) (bits : Bits) :
    toBytes (ofBytes bs ++ bits) = bs ++ toBytes bits := by
  induction bs with
  | nil => rfl
  | cons b bs ih =>
    rw [ofBytes_cons, List.append_assoc, toBytes_byte_append, ih, List.cons_append]

theorem toBytes_ofBytes (bs : Bytes) : toBytes (ofBytes bs) = bs := by
  have closed := toBytes_ofBytes_append bs []
  rwa [List.append_nil, toBytes_nil, List.append_nil] at closed

theorem toNat_replicate_false (n : Nat) : toNat (List.replicate n false) = 0 := by
  induction n with
  | zero => rfl
  | succ n ih => simp only [List.replicate_succ, toNat, ih, Bool.toNat_false, Nat.zero_mul]

/-- A number moved up is its bits with zeros behind. -/
theorem ofNat_shift (bits : Bits) (n : Nat) :
    ofNat (bits.length + n) (toNat bits * Nat.pow 2 n) = bits ++ List.replicate n false := by
  have number : toNat (bits ++ List.replicate n false) = toNat bits * Nat.pow 2 n := by
    rw [toNat_append, toNat_replicate_false, List.length_replicate, Nat.add_zero]
  have length : (bits ++ List.replicate n false).length = bits.length + n := by
    rw [List.length_append, List.length_replicate]
  rw [← number, ← length, ofNat_toNat]

/-- Closing bits into bytes loses none of them; the last byte is filled up with zeros. -/
theorem ofBytes_toBytes (bits : Bits) :
    ofBytes (toBytes bits) = bits ++ List.replicate ((8 - bits.length % 8) % 8) false := by
  fun_induction toBytes bits with
  | case1 => rfl
  | case2 bits nonempty head ih =>
    have positive := List.length_pos_iff.mpr nonempty
    have headLength : head.length = min 8 bits.length := List.length_take
    have padded : head.length + (8 - head.length) = 8 := by omega
    have small : toNat head * Nat.pow 2 (8 - head.length) < Nat.pow 2 8 := by
      have bound := toNat_lt (head ++ List.replicate (8 - head.length) false)
      rwa [toNat_append, toNat_replicate_false, List.length_append, List.length_replicate, padded]
        at bound
    have byte : ofNat 8 (UInt8.ofNat (toNat head * Nat.pow 2 (8 - head.length))).toNat =
        head ++ List.replicate (8 - head.length) false := by
      rw [← ofNat_shift, padded, UInt8.toNat_ofNat', Nat.mod_eq_of_lt small]
    rw [ofBytes_cons, byte, ih, List.length_drop]
    by_cases full : 8 ≤ bits.length
    · -- a whole byte is closed, and the padding is that of the rest
      have whole : 8 - head.length = 0 := by omega
      have rest : (bits.length - 8) % 8 = bits.length % 8 := by omega
      rw [whole, List.replicate_zero, List.append_nil, ← List.append_assoc, rest]
      rw [show head = bits.take 8 from rfl, List.take_append_drop]
    · -- the last byte takes all that is left
      have all : head = bits := List.take_of_length_le (by omega)
      have none : bits.drop 8 = [] := List.drop_of_length_le (by omega)
      have empty : bits.length - 8 = 0 := by omega
      have fill : (8 - bits.length % 8) % 8 = 8 - bits.length := by omega
      rw [all, none, empty, fill]
      simp

end Bits

end Switchyard
