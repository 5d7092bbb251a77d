import Mathlib.Data.List.Induction
import Switchyard.Proofs.BasicSwitch.Decision
import Switchyard.Proofs.Star.Plane

/-!
# Looking up in the tables of a star

An address is sent to the port of the first host that has it. All other addresses of the groups go to the
group of all hosts, and the rest is dropped.
-/

namespace Switchyard

open Sequencing

namespace Star

open ControlPlane BasicSwitch

/-! ## One table -/

section Table

variable {name : String} {field : FieldId} {bits x : Nat} {routes : List (Nat × Nat)}

/-- An entry for a prefix that matches is better than one for a shorter prefix. -/
theorem better_lpm (entries : List TableEntry) (handle n length : Nat) (call : ActionCall)
    (best : Option (Nat × TableEntry)) :
    (prefixTable name field bits entries).better [x] ⟨handle, [.lpm n length], call⟩ best =
      if KeyMatch.topBits bits length n = KeyMatch.topBits bits length x ∧
        ∀ other ∈ best, other.1 < length then some (length, ⟨handle, [.lpm n length], call⟩)
      else best := by
  have score : Table.totalScore? (prefixTable name field bits entries).keys [.lpm n length] [x] =
      if KeyMatch.topBits bits length n = KeyMatch.topBits bits length x then some length
      else none := by
    show (do
      let score ← (KeyMatch.lpm n length).score? bits x
      let rest ← some 0
      return score + rest) = _
    rw [KeyMatch.score?]
    split <;> rfl
  unfold Table.better
  rw [score]
  by_cases matching : KeyMatch.topBits bits length n = KeyMatch.topBits bits length x
  · rw [if_pos matching]
    cases best with
    | none => simp [matching]
    | some other => simp [matching]
  · simp [matching]

/-- An entry for one address matches that address alone. -/
theorem topBits_full (below : x < 2 ^ bits) {n : Nat} (nBelow : n < 2 ^ bits) :
    KeyMatch.topBits bits bits n = KeyMatch.topBits bits bits x ↔ n = x := by
  simp [KeyMatch.topBits, Nat.mod_eq_of_lt below, Nat.mod_eq_of_lt nBelow]

/-- The best entry among those for addresses is the oldest one for the address. -/
theorem best_routeEntries (entries : List TableEntry) (below : x < 2 ^ bits)
    (fits : ∀ route ∈ routes, route.1 < 2 ^ bits) :
    ((routeEntries bits routes).foldr ((prefixTable name field bits entries).better [x]) none).map
        (fun best => (best.1, best.2.call)) =
      (routes.find? (·.1 == x)).map fun route => (bits, ⟨"forward", [route.2]⟩) := by
  induction routes using List.reverseRecOn with
  | nil => rfl
  | append_singleton routes route ih =>
    obtain ⟨n, port⟩ := route
    obtain ⟨front, last⟩ := List.forall_mem_append.mp fits
    have nBelow : n < 2 ^ bits := last (n, port) (List.mem_singleton_self _)
    have before := ih front
    rw [routeEntries_concat, List.foldr_cons, List.find?_append, better_lpm]
    simp only [topBits_full below nBelow]
    cases older : routes.find? (·.1 == x) with
    | some route =>
      rw [older] at before
      obtain ⟨best, found, same⟩ := Option.map_eq_some_iff.mp before
      obtain ⟨full, call⟩ := Prod.mk.inj same
      rw [found]
      simp [full, call]
    | none =>
      rw [older] at before
      rw [Option.map_eq_none_iff.mp before]
      by_cases own : n = x <;> simp [own]

/-- What the table answers when the entry for the group addresses has been added. -/
theorem lookup_prefixTable (handle : Nat) {address length : Nat} (short : length < bits)
    (below : x < 2 ^ bits) (fits : ∀ route ∈ routes, route.1 < 2 ^ bits) :
    (prefixTable name field bits (groupEntry handle address length :: routeEntries bits routes)).lookup
        [x] =
      match routes.find? (·.1 == x) with
      | some route => some ⟨"forward", [route.2]⟩
      | none =>
        if KeyMatch.topBits bits length address = KeyMatch.topBits bits length x then
          some ⟨"multicast", [group]⟩
        else some ⟨"drop", []⟩ := by
  let t := prefixTable name field bits (groupEntry handle address length :: routeEntries bits routes)
  have before : ((routeEntries bits routes).foldr (t.better [x]) none).map
      (fun best => (best.1, best.2.call)) = _ := best_routeEntries _ below fits
  have answer : t.lookup [x] = (((t.better [x] (groupEntry handle address length)
      ((routeEntries bits routes).foldr (t.better [x]) none)).map (·.2.call)).or
        (some ⟨"drop", []⟩)) := by
    rw [Table.lookup, Table.bestEntry?, Option.map_map]
    rfl
  show t.lookup [x] = _
  rw [answer, groupEntry, better_lpm]
  cases full : routes.find? (·.1 == x) with
  | some route =>
    rw [full] at before
    obtain ⟨best, found, same⟩ := Option.map_eq_some_iff.mp before
    obtain ⟨score, call⟩ := Prod.mk.inj same
    have worse : ¬(KeyMatch.topBits bits length address = KeyMatch.topBits bits length x ∧
        ∀ other ∈ some best, other.1 < length) := by
      rintro ⟨-, better⟩
      have := better best rfl
      omega
    rw [found, if_neg worse]
    simp [call]
  | none =>
    rw [full] at before
    rw [Option.map_eq_none_iff.mp before]
    by_cases matching : KeyMatch.topBits bits length address = KeyMatch.topBits bits length x <;>
      simp [matching]

end Table

/-! ## Routes -/

section Routes

variable {isV4 : Bool} {ips : List IpAddr}

/-- The numbers of addresses have as many bits as addresses of their family. -/
theorem number_lt (ip : IpAddr) : ip.number < 2 ^ addressBits ip := by
  cases ip with
  | v4 a => exact a.bits.isLt
  | v6 a => exact a.bits.isLt

/-- Addresses of one family are told apart by their numbers. -/
theorem number_inj {ip other : IpAddr} (family : ip.isV4 = other.isV4) :
    ip.number = other.number ↔ ip = other := by
  cases ip with
  | v4 a =>
    cases other with
    | v4 b => exact ⟨fun same => by cases a; cases b; exact congrArg (IpAddr.v4 ⟨·⟩) (BitVec.eq_of_toNat_eq same),
        fun same => by rw [same]⟩
    | v6 b => cases family
  | v6 a =>
    cases other with
    | v4 b => cases family
    | v6 b => exact ⟨fun same => by cases a; cases b; exact congrArg (IpAddr.v6 ⟨·⟩) (BitVec.eq_of_toNat_eq same),
        fun same => by rw [same]⟩

theorem mem_routes {route : Nat × Nat} (member : route ∈ routes isV4 ips) :
    ∃ ip ∈ ips, ip.isV4 = isV4 ∧ ip.number = route.1 := by
  obtain ⟨⟨ip, i⟩, entry, same⟩ := List.mem_filterMap.mp member
  by_cases family : ip.isV4 = isV4
  · simp only [family, if_true, Option.some.injEq] at same
    exact ⟨ip, List.fst_mem_of_mem_zipIdx entry, family, congrArg Prod.fst same⟩
  · simp [family] at same

/-- The oldest route for an address is that of the first place where the address stands. -/
theorem find?_routes (ip : IpAddr) (ips : List IpAddr) :
    (routes ip.isV4 ips).find? (·.1 == ip.number) =
      (ips.idxOf? ip).map fun i => (ip.number, i + 1) := by
  induction ips using List.reverseRecOn with
  | nil => rfl
  | append_singleton ips last ih =>
    rw [routes_concat, List.find?_append, ih]
    unfold List.idxOf?
    rw [List.findIdx?_append, Option.map_or]
    congr 1
    by_cases same : last = ip
    · subst same
      simp
    · by_cases family : last.isV4 = ip.isV4
      · have apart : ¬last.number = ip.number := mt (number_inj family).mp same
        simp [family, apart, same]
      · simp [family, same]

theorem routes_fit (ip : IpAddr) : ∀ route ∈ routes ip.isV4 ips, route.1 < 2 ^ addressBits ip := by
  intro route member
  obtain ⟨other, -, family, same⟩ := mem_routes member
  have bits : addressBits other = addressBits ip := by
    cases ip <;> cases other <;> first | rfl | cases family
  rw [← same, ← bits]
  exact number_lt other

end Routes

/-- The addresses of the groups: what they start with, and how many bits that is. -/
def groupPrefix : IpAddr → Nat × Nat
  | .v4 _ => (0x0a00ff00, 24)
  | .v6 _ => (0xff0e * 2 ^ 112, 16)

/-- Does the address start like those of the groups? -/
def IsGroupAddress (ip : IpAddr) : Prop :=
  KeyMatch.topBits (addressBits ip) (groupPrefix ip).2 (groupPrefix ip).1 =
    KeyMatch.topBits (addressBits ip) (groupPrefix ip).2 ip.number

instance (ip : IpAddr) : Decidable (IsGroupAddress ip) := inferInstanceAs (Decidable (_ = _))

/-- What the tables of a star answer for an address. -/
theorem lookup_plane (ips : List IpAddr) (ip : IpAddr) :
    (plane ips).tables.lookup (tableName ip) [ip.number] =
      match ips.idxOf? ip with
      | some i => some ⟨"forward", [i + 1]⟩
      | none => if IsGroupAddress ip then some ⟨"multicast", [group]⟩ else some ⟨"drop", []⟩ := by
  have found : (plane ips).tables.table? (tableName ip) =
      some (prefixTable (tableName ip) (if ip.isV4 then 27 else 35) (addressBits ip)
        (groupEntry (routeEntries (addressBits ip) (routes ip.isV4 ips)).length (groupPrefix ip).1
          (groupPrefix ip).2 :: routeEntries (addressBits ip) (routes ip.isV4 ips))) := by
    cases ip <;> rfl
  have short : (groupPrefix ip).2 < addressBits ip := by
    cases ip with
    | v4 a => exact show 24 < 32 by decide
    | v6 a => exact show 16 < 128 by decide
  rw [TableStore.lookup, found, Option.bind_some, lookup_prefixTable _ short (number_lt ip)
    (routes_fit ip), find?_routes]
  cases ips.idxOf? ip <;> rfl

/-- The plane of a star is one that the program can come to. -/
theorem reachable_of_leads {lines : List String} {before after : ControlPlane}
    (reached : ControlPlane.Reachable program before) (leads : Leads lines before after) :
    ControlPlane.Reachable program after := by
  induction lines generalizing before with
  | nil =>
    rw [← leads_nil.mp leads]
    exact reached
  | cons line lines ih =>
    obtain ⟨answer, middle, first, others⟩ := leads_cons.mp leads
    obtain ⟨command, -, done⟩ := ofExcept_bind_eq_ok.mp first
    exact ih (reached.done command done) others

theorem reachable_plane {ips : List IpAddr} (narrow : ips.length < UInt16.size) :
    ControlPlane.Reachable program (plane ips) :=
  reachable_of_leads .loaded (leads_rows narrow)

end Star

end Switchyard
