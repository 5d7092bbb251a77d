import Switchyard.Proofs.Control.Syntax

/-!
# Spelling addresses and numbers

What is written for an address or a number is an operand of a command: a value, the number of the address,
and with a prefix length behind a slash a key.
-/

namespace Switchyard

open Numeral Text

/-- What is written for an address is a value, the number of the address. -/
structure IpAddr.Spells (ip : IpAddr) (n : Nat) : Prop where
  chars : ∀ c ∈ (toString ip).toList, IsAddressChar c
  read : Literal.read (toString ip).toList = .ok n

variable {ip : IpAddr} {n : Nat}

namespace IpAddr

/-- Every IPv4 address is a value. -/
theorem spells_v4 (a : Ipv4Addr) : Spells (.v4 a) a.toNat where
  chars := (AddressReader.isQuad_toString a).isAddressChar
  read := Literal.read_eq_ok_iff.mpr (.ipv4 (AddressReader.isQuad_toString a))

/-- So is every IPv6 address. -/
theorem spells_v6 (a : Ipv6Addr) : Spells (.v6 a) a.toNat where
  chars := (AddressReader.isIpv6_toString a).isAddressChar
  read := Literal.read_eq_ok_iff.mpr (.ipv6 (AddressReader.isIpv6_toString a))

/-- An address is written without a plus sign, and so in one of the plain forms of a value. -/
theorem Spells.operand (spells : ip.Spells n) : Operand valueBound (toString ip) n := by
  have unsigned : '+' ∉ (toString ip).toList := fun member => absurd (spells.chars _ member) (by decide)
  refine ⟨(Literal.read_eq_ok_iff.mp spells.read).spells unsigned, ?_⟩
  cases ip with
  | v4 a =>
    have same : a.toNat = n := Except.ok.inj ((spells_v4 a).read.symm.trans spells.read)
    exact same ▸ Nat.lt_trans a.bits.isLt (by decide)
  | v6 a =>
    have same : a.toNat = n := Except.ok.inj ((spells_v6 a).read.symm.trans spells.read)
    exact same ▸ a.bits.isLt

end IpAddr

theorem isWord_toString_nat (n : Nat) : IsWord (toString n).toList :=
  ⟨(spells_toString n).ne_nil, fun c member => ((spells_toString n).isAddressChar (by decide) c member).solid⟩

/-- An address with the length of a prefix. -/
def prefixWord (ip : IpAddr) (length : Nat) : String := s!"{ip}/{length}"

/-- An address with a length is a key. -/
theorem IpAddr.Spells.written_prefixWord (spells : ip.Spells n) {length : Nat}
    (below : length < UInt16.size) :
    KeyMatch.Written (Numeral.Spells 10) (prefixWord ip length) (.lpm n length) :=
  .lpm spells.operand (spells_toString length) below

end Switchyard
