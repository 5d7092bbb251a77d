/-!
# Simulated time

Times and durations are counts of nanoseconds that fit 64 bits. Whatever would be larger is the
largest time instead, so that time never wraps around.
-/

namespace Switchyard

/-- An instant, or a span of time, in nanoseconds. -/
structure Time where
  word : UInt64
  deriving DecidableEq, Inhabited

namespace Time

/-- The largest number of nanoseconds. -/
def maxNanos : Nat := UInt64.size - 1

def toNat (t : Time) : Nat := t.word.toNat

/-- So many nanoseconds, or the largest time. -/
def ofNanos (n : Nat) : Time := ⟨UInt64.ofNat (min n maxNanos)⟩

def zero : Time := ofNanos 0

def ofMicros (n : Nat) : Time := ofNanos (n * 1000)

def ofMillis (n : Nat) : Time := ofNanos (n * 1000000)

def ofSeconds (n : Nat) : Time := ofNanos (n * 1000000000)

/-- The later of two instants. -/
def later (s t : Time) : Time := if s.toNat ≤ t.toNat then t else s

instance : Add Time := ⟨fun s t => ofNanos (s.toNat + t.toNat)⟩

instance : LE Time := ⟨fun s t => s.toNat ≤ t.toNat⟩

instance : LT Time := ⟨fun s t => s.toNat < t.toNat⟩

instance (s t : Time) : Decidable (s ≤ t) := inferInstanceAs (Decidable (s.toNat ≤ t.toNat))

instance (s t : Time) : Decidable (s < t) := inferInstanceAs (Decidable (s.toNat < t.toNat))

instance : ToString Time := ⟨fun t => s!"{t.toNat}ns"⟩

@[simp] theorem toNat_ofNanos (n : Nat) : (ofNanos n).toNat = min n maxNanos := by
  have h : min n maxNanos < UInt64.size := by simp only [maxNanos, UInt64.size]; omega
  simp only [toNat, ofNanos]
  rw [UInt64.toNat_ofNat', Nat.mod_eq_of_lt h]

@[simp] theorem toNat_add (s t : Time) : (s + t).toNat = min (s.toNat + t.toNat) maxNanos :=
  toNat_ofNanos _

@[simp] theorem toNat_later (s t : Time) : (later s t).toNat = max s.toNat t.toNat := by
  simp only [later]
  split <;> omega

theorem le_iff {s t : Time} : s ≤ t ↔ s.toNat ≤ t.toNat := Iff.rfl

theorem lt_iff {s t : Time} : s < t ↔ s.toNat < t.toNat := Iff.rfl

theorem toNat_ofNanos_of_le {n : Nat} (fits : n ≤ maxNanos) : (ofNanos n).toNat = n := by
  rw [toNat_ofNanos, Nat.min_eq_left fits]

theorem ofNanos_le_ofNanos {m n : Nat} (order : m ≤ n) : ofNanos m ≤ ofNanos n := by
  rw [le_iff, toNat_ofNanos, toNat_ofNanos]
  omega

theorem toNat_le (t : Time) : t.toNat ≤ maxNanos := by
  have := t.word.toNat_lt
  simp only [toNat, maxNanos, UInt64.size]
  omega

theorem toNat_inj {s t : Time} : s.toNat = t.toNat ↔ s = t := by
  refine ⟨fun h => ?_, fun h => by rw [h]⟩
  cases s
  cases t
  simp only [mk.injEq]
  exact UInt64.toNat_inj.mp h

end Time

end Switchyard
