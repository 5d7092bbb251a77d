import Switchyard.Bytes

/-!
# Slices and patches of byte strings

Reading a slice of a byte string and writing the number back gives the slice. `Bytes.patch` writes
over a stretch of a byte string; a patch is read back where it stands and leaves everything else
alone, so patches at different places do not meet.
-/

namespace Switchyard

namespace BigEndian

theorem encode_read {bs : Bytes} {start count : Nat} (inside : start + count ≤ bs.length) :
    encode count (read bs start count) = (bs.drop start).take count := by
  have length : ((bs.drop start).take count).length = count := by
    rw [List.length_take, List.length_drop]
    omega
  have written := encode_value ((bs.drop start).take count)
  rw [length] at written
  exact written

theorem read_lt (bs : Bytes) (start count : Nat) : read bs start count < Nat.pow 256 count := by
  have bound := value_lt ((bs.drop start).take count)
  have length : ((bs.drop start).take count).length ≤ count := by
    rw [List.length_take]
    omega
  exact Nat.lt_of_lt_of_le bound (Nat.pow_le_pow_right (by decide) length)

/-- Byte strings that agree on a slice hold the same number there. -/
theorem read_congr {bs other : Bytes} {start count : Nat}
    (same : ∀ i, start ≤ i → i < start + count → bs[i]? = other[i]?) :
    read bs start count = read other start count := by
  have slices : (bs.drop start).take count = (other.drop start).take count := by
    apply List.ext_getElem?
    intro i
    rw [List.getElem?_take, List.getElem?_take, List.getElem?_drop, List.getElem?_drop]
    by_cases within : i < count
    · rw [if_pos within, if_pos within, same (start + i) (by omega) (by omega)]
    · rw [if_neg within, if_neg within]
  rw [read, read, slices]

/-- The first byte of a number is its highest. -/
theorem read_succ {bs : Bytes} {start count : Nat} {b : UInt8} (first : bs[start]? = some b)
    (inside : start + 1 + count ≤ bs.length) :
    read bs start (count + 1) = b.toNat * Nat.pow 256 count + read bs (start + 1) count := by
  have split : bs.drop start = b :: bs.drop (start + 1) := by
    obtain ⟨bound, rfl⟩ := List.getElem?_eq_some_iff.mp first
    exact List.drop_eq_getElem_cons bound
  have length : ((bs.drop (start + 1)).take count).length = count := by
    rw [List.length_take, List.length_drop]
    omega
  rw [read, split, List.take_succ_cons, value, length, read]

theorem read_one {bs : Bytes} {start : Nat} {b : UInt8} (first : bs[start]? = some b) :
    read bs start 1 = b.toNat := by
  have inside := (List.getElem?_eq_some_iff.mp first).1
  rw [read_succ first inside, Nat.pow_eq, Nat.pow_zero, Nat.mul_one]
  rfl

end BigEndian

namespace Bytes

/-- The byte string with `new` in place of as many bytes from position `start` on. -/
def patch (bs : Bytes) (start : Nat) (new : Bytes) : Bytes :=
  bs.take start ++ new ++ bs.drop (start + new.length)

variable {bs new other : Bytes} {start : Nat}

theorem length_patch (inside : start + new.length ≤ bs.length) :
    (patch bs start new).length = bs.length := by
  simp only [patch, List.length_append, List.length_take, List.length_drop]
  omega

/-- A patch decides the bytes where it stands and no others. -/
theorem getElem?_patch (inside : start + new.length ≤ bs.length) (i : Nat) :
    (patch bs start new)[i]? =
      if start ≤ i ∧ i < start + new.length then new[i - start]? else bs[i]? := by
  have front : (bs.take start).length = start := by
    rw [List.length_take]
    omega
  simp only [patch, List.append_assoc]
  by_cases before : i < start
  · rw [List.getElem?_append_left (by omega), List.getElem?_take_of_lt before, if_neg (by omega)]
  · rw [List.getElem?_append_right (by omega), front]
    by_cases within : i < start + new.length
    · rw [List.getElem?_append_left (by omega), if_pos (by omega)]
    · rw [List.getElem?_append_right (by omega), List.getElem?_drop, if_neg (by omega)]
      congr 1
      omega

/-- A patch in place of the middle one of three parts. -/
theorem patch_append {front middle behind : Bytes} (place : front.length = start)
    (same : new.length = middle.length) :
    patch (front ++ (middle ++ behind)) start new = front ++ (new ++ behind) := by
  have rest : (front ++ (middle ++ behind)).drop (start + new.length) = behind := by
    rw [← List.append_assoc]
    exact List.drop_left' (by rw [List.length_append, place, same])
  rw [patch, rest, List.take_left' place, List.append_assoc]

/-- A patch inside the middle one of three parts. -/
theorem patch_between {front middle behind : Bytes} {position : Nat}
    (place : front.length + position = start) (inside : position + new.length ≤ middle.length) :
    patch (front ++ (middle ++ behind)) start new =
      front ++ (patch middle position new ++ behind) := by
  have cut : middle = middle.take position ++
      ((middle.drop position).take new.length ++ middle.drop (position + new.length)) := by
    rw [← List.drop_drop, List.take_append_drop, List.take_append_drop]
  have lead : (front ++ middle.take position).length = start := by
    rw [List.length_append, List.length_take]
    omega
  have cutOut : new.length = ((middle.drop position).take new.length).length := by
    rw [List.length_take, List.length_drop]
    omega
  calc patch (front ++ (middle ++ behind)) start new
      = patch ((front ++ middle.take position) ++ ((middle.drop position).take new.length ++
          (middle.drop (position + new.length) ++ behind))) start new := by
        conv => lhs; rw [cut]
        simp only [List.append_assoc]
    _ = (front ++ middle.take position) ++ (new ++ (middle.drop (position + new.length) ++ behind)) :=
        patch_append lead cutOut
    _ = front ++ (patch middle position new ++ behind) := by simp only [patch, List.append_assoc]

/-- Writing the bytes that stand there changes nothing. -/
theorem patch_take_drop {count : Nat} (inside : start + count ≤ bs.length) :
    patch bs start ((bs.drop start).take count) = bs := by
  have length : ((bs.drop start).take count).length = count := by
    rw [List.length_take, List.length_drop]
    omega
  rw [patch, length, List.append_assoc, ← List.drop_drop, List.take_append_drop,
    List.take_append_drop]

/-- Of two patches at one place the later one counts. -/
theorem patch_patch (inside : start + new.length ≤ bs.length) (same : other.length = new.length) :
    patch (patch bs start other) start new = patch bs start new := by
  apply List.ext_getElem?
  intro i
  rw [getElem?_patch (by rw [length_patch (by omega)]; omega), getElem?_patch inside,
    getElem?_patch (by omega), same]
  split <;> rfl

/-- The slice under a patch is the patch. -/
theorem take_drop_patch (inside : start + new.length ≤ bs.length) :
    ((patch bs start new).drop start).take new.length = new := by
  have front : (bs.take start).length = start := by
    rw [List.length_take]
    omega
  have dropped : (patch bs start new).drop start = new ++ bs.drop (start + new.length) := by
    rw [patch, List.append_assoc, List.drop_append_of_le_length (by omega),
      List.drop_of_length_le (by omega), List.nil_append]
  rw [dropped, List.take_left]

/-- A slice beside a patch is as before. -/
theorem take_drop_patch_of_disjoint {position count : Nat}
    (inside : start + new.length ≤ bs.length)
    (apart : position + count ≤ start ∨ start + new.length ≤ position) :
    ((patch bs start new).drop position).take count = (bs.drop position).take count := by
  apply List.ext_getElem?
  intro i
  by_cases within : i < count
  · rw [List.getElem?_take_of_lt within, List.getElem?_take_of_lt within, List.getElem?_drop,
      List.getElem?_drop, getElem?_patch inside, if_neg (by omega)]
  · rw [List.getElem?_eq_none (by rw [List.length_take]; omega),
      List.getElem?_eq_none (by rw [List.length_take]; omega)]

/-- Behind a patch everything is as before. -/
theorem drop_patch {position : Nat} (inside : start + new.length ≤ bs.length)
    (behind : start + new.length ≤ position) :
    (patch bs start new).drop position = bs.drop position := by
  apply List.ext_getElem?
  intro i
  rw [List.getElem?_drop, List.getElem?_drop, getElem?_patch inside, if_neg (by omega)]

/-- Cutting off a front that the patch does not touch. -/
theorem drop_patch_of_le {position : Nat} (inside : start + new.length ≤ bs.length)
    (before : position ≤ start) :
    (patch bs start new).drop position = patch (bs.drop position) (start - position) new := by
  apply List.ext_getElem?
  intro i
  rw [List.getElem?_drop, getElem?_patch inside, getElem?_patch (by rw [List.length_drop]; omega),
    List.getElem?_drop]
  by_cases within : start ≤ position + i ∧ position + i < start + new.length
  · rw [if_pos within, if_pos (by omega)]
    congr 1
    omega
  · rw [if_neg within, if_neg (by omega)]

/-- Cutting off an end that the patch does not touch. -/
theorem take_patch_of_le {length : Nat} (inside : start + new.length ≤ bs.length)
    (within : start + new.length ≤ length) :
    (patch bs start new).take length = patch (bs.take length) start new := by
  apply List.ext_getElem?
  intro i
  have insideTaken : start + new.length ≤ (bs.take length).length := by
    rw [List.length_take]
    omega
  rw [getElem?_patch insideTaken]
  by_cases kept : i < length
  · rw [List.getElem?_take_of_lt kept, List.getElem?_take_of_lt kept, getElem?_patch inside]
  · rw [List.getElem?_eq_none (by rw [List.length_take]; omega), if_neg (by omega),
      List.getElem?_eq_none (by rw [List.length_take]; omega)]

/-- A number beside a patch reads as before. -/
theorem read_patch_of_disjoint {position count : Nat} (inside : start + new.length ≤ bs.length)
    (apart : position + count ≤ start ∨ start + new.length ≤ position) :
    BigEndian.read (patch bs start new) position count = BigEndian.read bs position count := by
  unfold BigEndian.read
  rw [take_drop_patch_of_disjoint inside apart]

/-- A number written over a byte string reads back. -/
theorem read_patch_encode {count n : Nat} (inside : start + count ≤ bs.length) :
    BigEndian.read (patch bs start (BigEndian.encode count n)) start count =
      n % Nat.pow 256 count := by
  have within : start + (BigEndian.encode count n).length ≤ bs.length := by
    rwa [BigEndian.length_encode]
  have slice := take_drop_patch within
  rw [BigEndian.length_encode] at slice
  rw [BigEndian.read, slice, BigEndian.value_encode]

/-- Writing the number that stands there changes nothing. -/
theorem patch_encode_read {count : Nat} (inside : start + count ≤ bs.length) :
    patch bs start (BigEndian.encode count (BigEndian.read bs start count)) = bs := by
  rw [BigEndian.encode_read inside, patch_take_drop inside]

end Bytes

end Switchyard
