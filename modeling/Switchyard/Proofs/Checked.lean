import Switchyard.Bits
import Switchyard.Proofs.Sequencing

/-!
# Checked accesses

The lists of a program answer every position, if need be with a default. A checked access answers only
where there is something: an element and a place inside a list, a slice whose ends are in order inside a
list, a number of 1 to 128 bits, a count that is a 64-bit word. Anything else is a breach, and a breach
ends the run. A checked run that comes through therefore shows that no default was called for.
-/

namespace Switchyard

/-- What a checked run can break. -/
inductive Breach where
  | position (index size : Nat)
  | slice (start stop size : Nat)
  | lengths (room size : Nat)
  | width (bits : Nat)
  | word (value : Nat)
  deriving DecidableEq

/-- A run that checks its accesses. -/
abbrev Checked := Except Breach

namespace Checked

open Sequencing

variable {α : Type}

def require (breach : Breach) (holds : Prop) [Decidable holds] : Checked Unit :=
  if holds then .ok () else .error breach

/-- The element at a position. -/
def item (xs : List α) (index : Nat) : Checked α :=
  xs[index]?.elim (.error (.position index xs.length)) .ok

/-- Another element at a position. -/
def put (xs : List α) (index : Nat) (x : α) : Checked (List α) := do
  require (.position index xs.length) (index < xs.length)
  return xs.set index x

/-- The elements from one position up to another. -/
def slice (xs : List α) (start stop : Nat) : Checked (List α) := do
  require (.slice start stop xs.length) (start ≤ stop ∧ stop ≤ xs.length)
  return (xs.drop start).take (stop - start)

/-- The elements from a position on. -/
def rest (xs : List α) (start : Nat) : Checked (List α) := slice xs start xs.length

/-- The number in some bits. -/
def load (bits : Bits) : Checked Nat := do
  require (.width bits.length) (1 ≤ bits.length ∧ bits.length ≤ 128)
  return Bits.toNat bits

/-- A number as so many bits. -/
def store (width value : Nat) : Checked Bits := do
  require (.width width) (1 ≤ width ∧ width ≤ 128)
  return Bits.ofNat width value

/-- A count that fits a word. -/
def word (value : Nat) : Checked Nat := do
  require (.word value) (value < UInt64.size)
  return value

variable {xs : List α} {index start stop value width : Nat} {x : α} {bits : Bits}

theorem require_ok {breach : Breach} {holds : Prop} [Decidable holds] (true : holds) :
    require breach holds = .ok () :=
  if_pos true

theorem item_eq_ok : item xs index = .ok x ↔ xs[index]? = some x :=
  elim_eq_ok

theorem put_ok (inside : index < xs.length) (x : α) : put xs index x = .ok (xs.set index x) := by
  rw [put, require_ok inside]
  rfl

theorem slice_ok (ordered : start ≤ stop) (inside : stop ≤ xs.length) :
    slice xs start stop = .ok ((xs.drop start).take (stop - start)) := by
  rw [slice, require_ok ⟨ordered, inside⟩]
  rfl

theorem rest_ok (inside : start ≤ xs.length) : rest xs start = .ok (xs.drop start) := by
  rw [rest, slice_ok inside Nat.le.refl, List.take_of_length_le (Nat.le_of_eq List.length_drop)]

/-- There is a rest only behind a position inside the list. -/
theorem rest_eq_ok {left : List α} (taken : rest xs start = .ok left) :
    start ≤ xs.length ∧ left = xs.drop start := by
  by_cases inside : start ≤ xs.length
  · rw [rest_ok inside] at taken
    exact ⟨inside, (Except.ok.inj taken).symm⟩
  · rw [rest, slice, require, if_neg fun both => inside both.1] at taken
    cases taken

theorem load_ok (narrow : 1 ≤ bits.length ∧ bits.length ≤ 128) : load bits = .ok (Bits.toNat bits) := by
  rw [load, require_ok narrow]
  rfl

theorem store_ok (narrow : 1 ≤ width ∧ width ≤ 128) (value : Nat) :
    store width value = .ok (Bits.ofNat width value) := by
  rw [store, require_ok narrow]
  rfl

/-- A count comes through exactly if it fits a word. -/
theorem word_eq (value : Nat) :
    word value = if value < UInt64.size then .ok value else .error (.word value) := by
  unfold word require
  split <;> rfl

end Checked

end Switchyard
