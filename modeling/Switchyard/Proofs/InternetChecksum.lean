import Switchyard.InternetChecksum
import Switchyard.Proofs.Bytes

/-!
# Verification of the internet checksum

Adding the carries back keeps a sum modulo 65535 and never turns a positive sum into zero. So a byte
string that carries the checksum of itself, taken with zeros in the place of the checksum, sums up to
all ones: its own checksum is zero. Leaving the word of the checksum out of the sum is as good as zeros in
its place.
-/

namespace Switchyard

namespace InternetChecksum

theorem fold_eq (sum : Nat) : fold sum = if sum = 0 then 0 else (sum - 1) % 65535 + 1 := by
  fun_induction fold sum with
  | case1 sum small => split <;> omega
  | case2 sum large ih =>
    have positive : sum / 65536 + sum % 65536 ≠ 0 := by omega
    rw [ih, if_neg positive, if_neg (by omega)]
    omega

/-- Words do not straddle a split after an even number of bytes. -/
theorem wordSum_append (front back : Bytes) (even : front.length % 2 = 0) :
    wordSum (front ++ back) = wordSum front + wordSum back := by
  fun_induction wordSum front with
  | case1 => simp
  | case2 high => simp at even
  | case3 high low rest ih =>
    simp only [List.length_cons] at even
    rw [List.cons_append, List.cons_append, wordSum, ih (by omega)]
    omega

theorem wordSum_encode (n : Nat) : wordSum (BigEndian.encode 2 n) = n % 65536 := by
  simp only [BigEndian.encode, wordSum, UInt8.toNat_ofNat']
  simp
  omega

/-- Behind an even number of bytes, a 16-bit field adds its number to the sum. -/
theorem wordSum_patch {bs : Bytes} {start : Nat} (n : Nat) (even : start % 2 = 0)
    (inside : start + 2 ≤ bs.length) :
    wordSum (Bytes.patch bs start (BigEndian.encode 2 n)) =
      wordSum (bs.take start) + n % 65536 + wordSum (bs.drop (start + 2)) := by
  have front : (bs.take start).length = start := by
    rw [List.length_take]
    omega
  rw [Bytes.patch, BigEndian.length_encode, List.append_assoc,
    wordSum_append _ _ (by rw [front]; exact even),
    wordSum_append _ _ (by rw [BigEndian.length_encode]), wordSum_encode, Nat.add_assoc]

/-- The words in front of the one that is left out and the words behind it. -/
theorem wordSumWithout_eq {skip : Nat} {data : Bytes} (inside : 2 * skip + 2 ≤ data.length) :
    wordSumWithout skip data =
      wordSum (data.take (2 * skip)) + wordSum (data.drop (2 * skip + 2)) := by
  fun_induction wordSumWithout skip data with
  | case1 => simp at inside
  | case2 high => simp at inside
  | case3 skip high isFirst =>
    rw [List.length_singleton] at inside
    omega
  | case4 high low rest => simp [wordSum]
  | case5 skip high low rest ih =>
    rw [List.length_cons, List.length_cons] at inside
    have front : (high :: low :: rest).take (2 * skip.succ) = high :: low :: rest.take (2 * skip) := rfl
    have behind : (high :: low :: rest).drop (2 * skip.succ + 2) = rest.drop (2 * skip + 2) := rfl
    rw [ih (by omega), front, behind, wordSum]
    omega

end InternetChecksum

open InternetChecksum in
/-- A word may be left out of the sum, or be zero. -/
theorem internetChecksumWithout_eq {skip : Nat} {data : Bytes} (inside : 2 * skip + 2 ≤ data.length) :
    internetChecksumWithout skip data = internetChecksum (Bytes.patch data (2 * skip) [0, 0]) := by
  have zeros : ([0, 0] : Bytes) = BigEndian.encode 2 0 := rfl
  have sums : wordSum (Bytes.patch data (2 * skip) [0, 0]) = wordSumWithout skip data := by
    rw [zeros, wordSum_patch _ (Nat.mul_mod_right 2 skip) inside, wordSumWithout_eq inside]
    rfl
  have length : (Bytes.patch data (2 * skip) [0, 0]).length = data.length :=
    Bytes.length_patch inside
  have filled {bs : Bytes} (long : 2 * skip + 2 ≤ bs.length) : bs.isEmpty = false :=
    List.isEmpty_eq_false_iff.mpr (List.ne_nil_of_length_pos (by omega))
  rw [internetChecksumWithout, internetChecksum, sums, filled inside, filled (length ▸ inside)]

open InternetChecksum in
theorem internetChecksum_toNat {data : Bytes} (nonempty : data ≠ []) :
    (internetChecksum data).toNat = 65535 - fold (wordSum data) := by
  have bound : 65535 - fold (wordSum data) < 65536 := by omega
  rw [internetChecksum, List.isEmpty_eq_false_iff.mpr nonempty, if_neg Bool.false_ne_true, UInt16.toNat_ofNat',
    Nat.mod_eq_of_lt bound]

open InternetChecksum in
theorem internetChecksumWithout_toNat {skip : Nat} {data : Bytes} (nonempty : data ≠ []) :
    (internetChecksumWithout skip data).toNat = 65535 - fold (wordSumWithout skip data) := by
  have bound : 65535 - fold (wordSumWithout skip data) < 65536 := by omega
  rw [internetChecksumWithout, List.isEmpty_eq_false_iff.mpr nonempty, if_neg Bool.false_ne_true,
    UInt16.toNat_ofNat', Nat.mod_eq_of_lt bound]

open InternetChecksum in
/-- A byte string with its checksum in place verifies. -/
theorem internetChecksum_patch {data : Bytes} {start : Nat} (even : start % 2 = 0)
    (inside : start + 2 ≤ data.length) :
    internetChecksum (Bytes.patch data start (BigEndian.encode 2
      (internetChecksum (Bytes.patch data start [0, 0])).toNat)) = 0 := by
  have zeros : ([0, 0] : Bytes) = BigEndian.encode 2 0 := rfl
  have nonempty (n : Nat) : Bytes.patch data start (BigEndian.encode 2 n) ≠ [] := by
    intro empty
    have within : start + (BigEndian.encode 2 n).length ≤ data.length := by
      rwa [BigEndian.length_encode]
    have length := Bytes.length_patch within
    rw [empty, List.length_nil] at length
    omega
  apply UInt16.toNat_inj.mp
  rw [internetChecksum_toNat (nonempty _), zeros, internetChecksum_toNat (nonempty _),
    wordSum_patch _ even inside, wordSum_patch _ even inside, fold_eq, fold_eq]
  simp only [UInt16.toNat_zero]
  split <;> split <;> omega

end Switchyard
