import Switchyard.Bytes

/-!
# The internet checksum

The ones' complement sum of the 16-bit words of a byte string, complemented. An odd last byte is the
high half of a final word. The checksum of nothing is zero. One word can be left out of the sum: the one
where the checksum itself stands.
-/

namespace Switchyard

namespace InternetChecksum

/-- The plain sum of the big-endian 16-bit words. -/
def wordSum : Bytes → Nat
  | [] => 0
  | [high] => high.toNat * 256
  | high :: low :: rest => high.toNat * 256 + low.toNat + wordSum rest

/-- The plain sum of the words but the one with the number `skip`. Words are numbered from zero. -/
def wordSumWithout : Nat → Bytes → Nat
  | _, [] => 0
  | skip, [high] => if skip = 0 then 0 else high.toNat * 256
  | 0, _ :: _ :: rest => wordSum rest
  | skip + 1, high :: low :: rest => high.toNat * 256 + low.toNat + wordSumWithout skip rest

/-- The sum with its carries added back until it fits 16 bits. -/
def fold (sum : Nat) : Nat :=
  if sum < 65536 then sum else fold (sum / 65536 + sum % 65536)
termination_by sum
decreasing_by omega

theorem fold_lt (sum : Nat) : fold sum < 65536 := by
  fun_induction fold sum with
  | case1 sum h => exact h
  | case2 sum h ih => exact ih

end InternetChecksum

/-- The internet checksum of `data`. -/
def internetChecksum (data : Bytes) : UInt16 :=
  if data.isEmpty then 0
  else UInt16.ofNat (65535 - InternetChecksum.fold (InternetChecksum.wordSum data))

/-- The internet checksum of `data` without the word with the number `skip`. -/
def internetChecksumWithout (skip : Nat) (data : Bytes) : UInt16 :=
  if data.isEmpty then 0
  else UInt16.ofNat (65535 - InternetChecksum.fold (InternetChecksum.wordSumWithout skip data))

end Switchyard
