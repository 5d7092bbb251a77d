import Switchyard.Proofs.Star.Lookup

/-!
# The hosts of a star

As long as the numbers of the hosts have 16 bits, no two hosts share an address. The names of the hosts are
all different.
-/

namespace Switchyard

namespace Star

variable {i j count : Nat} {ipv6 : Bool}

/-! ## Addresses -/

@[simp] theorem isV4_hostIp (i : Nat) (ipv6 : Bool) : (hostIp i ipv6).isV4 = !ipv6 := by
  cases ipv6 <;> rfl

/-- What comes before the number of a host in its address. -/
def networkNumber (ipv6 : Bool) : Nat := if ipv6 then 0x20010db8 * 2 ^ 96 else 0x0a000000

theorem number_hostIp (narrow : i + 1 < 65536) (ipv6 : Bool) :
    (hostIp i ipv6).number = networkNumber ipv6 + (i + 1) := by
  have whole : (i + 1) % 65536 = i + 1 := Nat.mod_eq_of_lt narrow
  cases ipv6 with
  | false =>
    have bound : 0x0a000000 + (i + 1) < 2 ^ 32 := by omega
    show (BitVec.ofNat 32 (0x0a000000 + (i + 1) % 65536)).toNat = _
    rw [whole, BitVec.toNat_ofNat, Nat.mod_eq_of_lt bound]
    rfl
  | true =>
    have value : [0x2001, 0xdb8, 0, 0, 0, 0, 0, i + 1].foldl (fun n g => n * 65536 + g) 0 =
        0x20010db8 * 2 ^ 96 + (i + 1) := by
      simp only [List.foldl_cons, List.foldl_nil]
      omega
    have bound : 0x20010db8 * 2 ^ 96 + (i + 1) < 2 ^ 128 := by omega
    show (BitVec.ofNat 128
      ([0x2001, 0xdb8, 0, 0, 0, 0, 0, (i + 1) % 65536].foldl (fun n g => n * 65536 + g) 0)).toNat = _
    rw [whole, value, BitVec.toNat_ofNat, Nat.mod_eq_of_lt bound]
    rfl

theorem hostIp_inj (iNarrow : i + 1 < 65536) (jNarrow : j + 1 < 65536) :
    hostIp i ipv6 = hostIp j ipv6 ↔ i = j := by
  constructor
  · intro same
    have numbers := congrArg IpAddr.number same
    rw [number_hostIp iNarrow, number_hostIp jNarrow] at numbers
    omega
  · rintro rfl
    rfl

@[simp] theorem length_hostIps (count : Nat) (ipv6 : Bool) : (hostIps count ipv6).length = count := by
  rw [hostIps, List.length_map, List.length_range]

/-- The address of a host stands at the place of the host, and not before. -/
theorem idxOf?_hostIps (narrow : count < 65536) (inside : j < count) :
    (hostIps count ipv6).idxOf? (hostIp j ipv6) = some j := by
  refine List.findIdx?_eq_some_iff_getElem.mpr ⟨by rwa [length_hostIps], ?_, ?_⟩
  · simp [hostIps]
  · intro i before
    have apart : hostIp i ipv6 ≠ hostIp j ipv6 := fun same =>
      Nat.ne_of_lt before ((hostIp_inj (by omega) (by omega)).mp same)
    simpa [hostIps] using apart

/-! ## Names -/

/-- The name of a host. -/
def hostName (i : Nat) : String := s!"h{i}"

theorem hostName_inj : hostName i = hostName j ↔ i = j := by
  constructor
  · intro same
    have written (n : Nat) : (hostName n).toList = 'h' :: Nat.toDigits 10 n := by
      show ("h" ++ toString n).toList = _
      rw [String.toList_append, toList_toString_nat]
      rfl
    have digits := congrArg String.toList same
    rw [written, written, List.cons.injEq] at digits
    have values := congrArg (Numeral.ofDigits? 10) digits.2
    rwa [Numeral.ofDigits?_toDigits (by decide) (by decide),
      Numeral.ofDigits?_toDigits (by decide) (by decide), Option.some.injEq] at values
  · rintro rfl
    rfl

end Star

end Switchyard
