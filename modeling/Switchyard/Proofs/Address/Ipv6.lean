import Switchyard.Proofs.Address

/-!
# The grammar of IPv6 addresses

The text of an IPv6 address is eight groups between colons, or fewer with a gap among them that stands for
zeros; a dotted quad may stand for the last two. What is read as an address is such a text. Every address is
written as one: with a gap for a run of zero groups, with all of its eight groups, or with a dotted quad
behind the prefix of the mapped IPv4 addresses.
-/

namespace Switchyard

namespace Ipv6Addr

/-! ## Groups -/

/-- Digits read first to last, the first of them the highest. -/
theorem foldl_digits (n acc count : Nat) :
    ((List.range count).reverse.map fun i => n / 65536 ^ i % 65536).foldl (fun n g => n * 65536 + g) acc =
      acc * 65536 ^ count + n % 65536 ^ count := by
  induction count generalizing acc with
  | zero => simp [Nat.mod_one]
  | succ count ih =>
    rw [List.range_succ, List.reverse_append, List.reverse_singleton, List.singleton_append,
      List.map_cons, List.foldl_cons, ih, Nat.mod_pow_succ, Nat.pow_succ]
    ring

/-- An address is made of its groups. -/
theorem ofGroups_groups (a : Ipv6Addr) : ofGroups a.groups = a := by
  have places : a.groups = (List.range 8).reverse.map fun i => a.toNat / 65536 ^ i % 65536 := rfl
  have bound : a.toNat < 65536 ^ 8 := a.bits.isLt
  rw [ofGroups, places, foldl_digits, Nat.zero_mul, Nat.zero_add, Nat.mod_eq_of_lt bound, ofNat, toNat,
    BitVec.ofNat_toNat, BitVec.setWidth_eq]

/-- A mapped address is made of its prefix and the two halves of the IPv4 address. -/
theorem ofGroups_mapped {a : Ipv6Addr} (mapped : a.toNat / UInt32.size = 0xffff) :
    ofGroups [0, 0, 0, 0, 0, 0xffff, (Ipv4Addr.ofNat a.toNat).toNat / 65536,
      (Ipv4Addr.ofNat a.toNat).toNat % 65536] = a := by
  have low : (Ipv4Addr.ofNat a.toNat).toNat = a.toNat % UInt32.size := BitVec.toNat_ofNat _ _
  have value : [0, 0, 0, 0, 0, 0xffff, a.toNat % UInt32.size / 65536,
      a.toNat % UInt32.size % 65536].foldl (fun n g => n * 65536 + g) 0 = a.toNat := by
    have size : UInt32.size = 4294967296 := rfl
    rw [size] at mapped ⊢
    simp only [List.foldl_cons, List.foldl_nil]
    omega
  rw [low, ofGroups, value, ofNat, toNat, BitVec.ofNat_toNat, BitVec.setWidth_eq]

@[simp] theorem length_groups (a : Ipv6Addr) : a.groups.length = 8 := rfl

theorem groups_lt (a : Ipv6Addr) : ∀ g ∈ a.groups, g < 65536 := by
  intro g member
  obtain ⟨i, -, rfl⟩ := List.mem_map.mp member
  exact Nat.mod_lt _ (by decide)

/-! ## Runs of zero groups -/

variable {gs front back : List Nat} {start length : Nat}

/-- As many groups as the run in front has, or fewer, are zero. -/
theorem replicate_append_drop (inside : length ≤ zeroRun gs) :
    List.replicate length 0 ++ gs.drop length = gs := by
  induction length generalizing gs with
  | zero => rfl
  | succ length ih =>
    cases gs with
    | nil => exact absurd inside (Nat.not_succ_le_zero length)
    | cons g gs =>
      rcases Nat.eq_zero_or_pos g with rfl | positive
      · have rest : length ≤ zeroRun gs := Nat.le_of_succ_le_succ inside
        rw [List.replicate_succ, List.cons_append, List.drop_succ_cons, ih rest]
      · have none : zeroRun (g :: gs) = 0 := by
          rw [zeroRun, List.takeWhile_cons_of_neg (by simpa using Nat.ne_of_gt positive)]
          rfl
        omega

/-- The longest run is a run. -/
theorem le_zeroRun_of_longest (longest : longestZeroRun gs = (start, length)) :
    length ≤ zeroRun (gs.drop start) := by
  have run : (longestZeroRun gs).2 ≤ zeroRun (gs.drop (longestZeroRun gs).1) := by
    unfold longestZeroRun
    apply List.foldlRecOn (motive := fun best : Nat × Nat => best.2 ≤ zeroRun (gs.drop best.1))
    case _ => exact Nat.zero_le _
    case _ =>
      intro best inside i _
      split
      · exact Nat.le_refl _
      · exact inside
  rwa [longest] at run

/-- The groups around the longest run, and the run between them. -/
theorem split_at_longest (longest : longestZeroRun gs = (start, length)) :
    gs.take start ++ List.replicate length 0 ++ gs.drop (start + length) = gs := by
  rw [← List.drop_drop, List.append_assoc, replicate_append_drop (le_zeroRun_of_longest longest),
    List.take_append_drop]

end Ipv6Addr

namespace AddressReader

open Numeral Ipv6Addr

variable {room n : Nat} {first : Bool} {text part rest front more : List Char} {parts : List (List Char)}
  {gs : List Nat} {dotted : Bool}

/-! ## Groups between colons -/

/-- One to four hexadecimal digits. -/
def IsGroup (text : List Char) (g : Nat) : Prop := Spells 16 text g ∧ text.length ≤ 4

/-- The parts are groups, or the last of them is a dotted quad, which makes two groups; and which of both. -/
inductive SpellGroups : List (List Char) → List Nat → Bool → Prop where
  | nil : SpellGroups [] [] false
  | group {part : List Char} {parts : List (List Char)} {g : Nat} {gs : List Nat} {dotted : Bool}
      (own : IsGroup part g) (others : SpellGroups parts gs dotted) :
      SpellGroups (part :: parts) (g :: gs) dotted
  | quad {part : List Char} {n : Nat} (own : IsQuad part n) :
      SpellGroups [part] [n / 65536, n % 65536] true

/-- A dotted quad makes one group more than it has parts. -/
theorem SpellGroups.length_eq (spelled : SpellGroups parts gs dotted) :
    gs.length = parts.length + if dotted then 1 else 0 := by
  induction spelled with
  | nil => rfl
  | group _ _ ih =>
    rw [List.length_cons, List.length_cons, ih]
    omega
  | quad => rfl

theorem SpellGroups.colon_not_mem (spelled : SpellGroups parts gs dotted) :
    ∀ part ∈ parts, ':' ∉ part := by
  induction spelled with
  | nil => simp
  | group own _ ih => exact List.forall_mem_cons.mpr ⟨own.1.not_mem (by decide) (by decide), ih⟩
  | quad own => exact List.forall_mem_singleton.mpr own.colon_not_mem

/-- Parts with colons between them. -/
def colons (parts : List (List Char)) : List Char := [':'].intercalate parts

theorem colons_cons_cons (part next : List Char) (parts : List (List Char)) :
    colons (part :: next :: parts) = part ++ ':' :: colons (next :: parts) := by
  simp [colons]

theorem mem_colons {c : Char} (member : part ∈ parts) (inside : c ∈ part) : c ∈ colons parts := by
  induction parts with
  | nil => cases member
  | cons first parts ih =>
    cases parts with
    | nil =>
      rw [List.mem_singleton.mp member] at inside
      simpa [colons] using inside
    | cons next parts =>
      rw [colons_cons_cons, List.mem_append]
      rcases List.mem_cons.mp member with rfl | member
      · exact .inl inside
      · exact .inr (List.mem_cons_of_mem _ (ih member))

theorem forall_mem_colons {P : Char → Prop} (colon : P ':') (each : ∀ part ∈ parts, ∀ c ∈ part, P c) :
    ∀ c ∈ colons parts, P c := by
  induction parts with
  | nil => simp [colons]
  | cons first parts ih =>
    obtain ⟨own, others⟩ := List.forall_mem_cons.mp each
    cases parts with
    | nil => simpa [colons] using own
    | cons next parts =>
      rw [colons_cons_cons]
      exact List.forall_mem_append.mpr ⟨own, List.forall_mem_cons.mpr ⟨colon, ih others⟩⟩

/-- Where a colon is due, it stands in front. -/
def lead (first : Bool) : List Char := if first then [] else [':']

/-- The same, where a colon may be due before the first of them as well. -/
def behind (first : Bool) (parts : List (List Char)) : List Char :=
  if first then colons parts else parts.flatMap (':' :: ·)

theorem behind_nil (first : Bool) : behind first [] = [] := by
  cases first <;> rfl

theorem behind_cons (first : Bool) (part : List Char) (parts : List (List Char)) :
    behind first (part :: parts) = lead first ++ (part ++ behind false parts) := by
  cases first with
  | false => rfl
  | true =>
    simp only [behind, lead, if_true, Bool.false_eq_true, if_false, List.nil_append]
    induction parts generalizing part with
    | nil => simp [colons]
    | cons next parts ih => rw [colons_cons_cons, ih next, List.flatMap_cons, List.cons_append]

/-- The text starts with a colon, if it is not empty. -/
def OnlyColon (text : List Char) : Prop := ∀ c ∈ text.head?, c = ':'

theorem onlyColon_behind (after : OnlyColon rest) : OnlyColon (behind false parts ++ rest) := by
  cases parts with
  | nil => exact after
  | cons part parts =>
    rintro _ ⟨⟩
    rfl

theorem OnlyColon.ends (after : OnlyColon rest) : Ends 16 rest := by
  intro c member
  rw [after c member]
  decide

/-- Where a colon comes first, no dot does. -/
theorem append_ne_of_colon (noColon : ':' ∉ front) (noDot : '.' ∉ part) (after : OnlyColon rest) :
    part ++ rest ≠ front ++ '.' :: more := by
  intro same
  have starts {c : Char} {more : List Char} (begun : rest = c :: more) : c = ':' :=
    after c (by rw [begun]; rfl)
  rcases List.append_eq_append_iff.mp same with ⟨between, grown, left⟩ | ⟨between, grown, left⟩
  · cases between with
    | nil => exact absurd (starts left) (by decide)
    | cons c between =>
      rw [starts left] at grown
      exact noColon (by simp [grown])
  · cases between with
    | nil => exact absurd (starts left.symm) (by decide)
    | cons c between =>
      rw [List.cons_append] at left
      obtain rfl := (List.cons.inj left).1
      exact noDot (by simp [grown])

/-- A group is not the beginning of a dotted quad. -/
theorem quad?_eq_none {g : Nat} (own : IsGroup part g) (after : OnlyColon rest) :
    quad? (part ++ rest) = none := by
  rw [Option.eq_none_iff_forall_ne_some]
  rintro ⟨n, left⟩ taken
  obtain ⟨_, ⟨w, x, y, z, -, -, rfl⟩, same, -⟩ := quad?_eq_some_iff.mp taken
  have noColon : ':' ∉ Nat.toDigits 10 w :=
    (spells_toDigits (by decide) w).not_mem (by decide) (by decide)
  have noDot : '.' ∉ part := own.1.not_mem (by decide) (by decide)
  rw [List.append_assoc, List.cons_append] at same
  exact append_ne_of_colon noColon noDot after same

theorem group?_eq_some_iff {g : Nat} :
    group? text = some (g, rest) ↔ ∃ part, IsGroup part g ∧ text = part ++ rest ∧ Ends 16 rest :=
  digits?_eq_some_iff (by decide)

theorem start_eq_some_iff {start : List Char} :
    (if first then some text else exactly ':' text) = some start ↔ text = lead first ++ start := by
  cases first with
  | true => simp [lead]
  | false => simp [lead, exactly_eq_some_iff]

/-- What is taken as groups are groups. -/
theorem spellGroups_groups (room : Nat) (first : Bool) (text : List Char) :
    (groups room first text).groups.length ≤ room ∧
      ∃ parts, SpellGroups parts (groups room first text).groups (groups room first text).endsInQuad ∧
        text = behind first parts ++ (groups room first text).rest := by
  have none (first : Bool) (text : List Char) : text = behind first [] ++ text := by
    rw [behind_nil, List.nil_append]
  induction room generalizing first text with
  | zero => exact ⟨Nat.le_refl _, [], .nil, none first text⟩
  | succ room ih =>
    rw [groups]
    cases begun : (if first then some text else exactly ':' text) with
    | none => exact ⟨Nat.zero_le _, [], .nil, none first text⟩
    | some start =>
      have placed := start_eq_some_iff.mp begun
      cases quad : (if room = 0 then Option.none else quad? start) with
      | some taken =>
        simp only [quad]
        obtain ⟨wide, quad⟩ := Option.ite_none_left_eq_some.mp quad
        obtain ⟨part, own, rfl, -⟩ := quad?_eq_some_iff.mp quad
        refine ⟨Nat.succ_le_succ (Nat.one_le_iff_ne_zero.mpr wide), [part], .quad own, ?_⟩
        rw [placed, behind_cons, behind_nil, List.append_nil, List.append_assoc]
      | none =>
        cases group : group? start with
        | none =>
          simp only [quad, group]
          exact ⟨Nat.zero_le _, [], .nil, none first text⟩
        | some taken =>
          simp only [quad, group]
          obtain ⟨part, own, rfl, -⟩ := group?_eq_some_iff.mp group
          obtain ⟨fits, parts, spelled, others⟩ := ih false taken.2
          refine ⟨Nat.succ_le_succ fits, part :: parts, .group own spelled, ?_⟩
          rw [placed, behind_cons, List.append_assoc, List.append_assoc, ← others]

/-- The text ends here, or a gap follows. -/
def Closes (rest : List Char) : Prop := rest = [] ∨ ∃ back, rest = ':' :: ':' :: back

theorem Closes.onlyColon (closes : Closes rest) : OnlyColon rest := by
  rcases closes with rfl | ⟨back, rfl⟩
  · simp [OnlyColon]
  · rintro _ ⟨⟩
    rfl

/-- No group is taken from here. -/
theorem Closes.groups_eq (closes : Closes rest) (room : Nat) (first : Bool) :
    groups room first rest = ⟨[], false, rest⟩ := by
  have noQuad (back : List Char) : quad? (':' :: back) = none := by
    have noOctet : octet? (':' :: back) = none := rfl
    rw [quad?, noOctet]
    rfl
  have noGroup (back : List Char) : group? (':' :: back) = none := rfl
  cases room with
  | zero => rfl
  | succ room =>
    rcases closes with rfl | ⟨back, rfl⟩
    · cases first <;> cases room <;> rfl
    · rw [groups]
      cases first <;> simp [exactly, noQuad, noGroup]

/-- Groups are taken as they are spelled. -/
theorem SpellGroups.groups_eq (spelled : SpellGroups parts gs dotted) (fits : gs.length ≤ room)
    (closes : Closes rest) (first : Bool) :
    groups room first (behind first parts ++ rest) = ⟨gs, dotted, rest⟩ := by
  induction spelled generalizing room first with
  | nil =>
    rw [behind_nil]
    exact closes.groups_eq room first
  | @group part parts g gs dotted own _ ih =>
    cases room with
    | zero => exact absurd fits (Nat.not_succ_le_zero _)
    | succ room =>
      have after : OnlyColon (behind false parts ++ rest) := onlyColon_behind closes.onlyColon
      have taken : group? (part ++ (behind false parts ++ rest)) = some (g, behind false parts ++ rest) :=
        group?_eq_some_iff.mpr ⟨part, own, rfl, after.ends⟩
      have noQuad : (if room = 0 then none else quad? (part ++ (behind false parts ++ rest))) = none := by
        rw [quad?_eq_none own after, ite_self]
      rw [behind_cons, List.append_assoc, List.append_assoc, groups, start_eq_some_iff.mpr rfl]
      simp only [noQuad, taken, ih (Nat.le_of_succ_le_succ fits) false]
  | @quad part n own =>
    cases room with
    | zero => exact absurd fits (Nat.not_succ_le_zero _)
    | succ room =>
      have wide : room ≠ 0 := Nat.one_le_iff_ne_zero.mp (Nat.le_of_succ_le_succ fits)
      have ends : Ends 10 rest := by
        intro c member
        rw [closes.onlyColon c member]
        decide
      have taken : (if room = 0 then none else quad? (part ++ rest)) = some (n, rest) := by
        rw [if_neg wide]
        exact quad?_eq_some_iff.mpr ⟨part, own, rfl, ends⟩
      rw [behind_cons, behind_nil, List.append_nil, List.append_assoc, groups, start_eq_some_iff.mpr rfl]
      simp only [taken]

/-! ## Addresses -/

/-- The text of an address: eight groups, or fewer, with a gap that stands for as many zeros as are missing,
for one at least. A dotted quad stands at the end only. -/
inductive IsIpv6 : List Char → Ipv6Addr → Prop where
  | full {parts : List (List Char)} {gs : List Nat} {dotted : Bool}
      (spelled : SpellGroups parts gs dotted) (all : gs.length = 8) :
      IsIpv6 (colons parts) (.ofGroups gs)
  | gap {front back : List (List Char)} {gs hs : List Nat} {dotted : Bool}
      (first : SpellGroups front gs false) (last : SpellGroups back hs dotted)
      (room : gs.length + hs.length < 8) :
      IsIpv6 (colons front ++ ':' :: ':' :: colons back)
        (.ofGroups (gs ++ List.replicate (8 - gs.length - hs.length) 0 ++ hs))

/-- What is read as an IPv6 address. -/
theorem ipv6?_eq_some_iff {a : Ipv6Addr} : ipv6? text = some a ↔ IsIpv6 text a := by
  constructor
  · intro read
    obtain ⟨headFits, front, first, placed⟩ := spellGroups_groups 8 true text
    unfold ipv6? at read
    generalize groups 8 true text = head at headFits first placed read
    obtain ⟨gs, dotted, rest⟩ := head
    simp only [Option.bind_eq_bind, Option.pure_def] at headFits first placed read
    split at read
    case isTrue all =>
      simp only [Option.bind_eq_some_iff, guard_eq_some, exists_const, Option.some.injEq,
        List.isEmpty_iff] at read
      obtain ⟨rfl, rfl⟩ := read
      rw [placed, List.append_nil]
      exact .full first all
    case isFalse short =>
      simp only [Option.bind_eq_some_iff, guard_eq_some, exists_const, Option.some.injEq,
        List.isEmpty_iff, exactly_eq_some_iff, Bool.not_eq_true'] at read
      obtain ⟨rfl, _, rfl, start, rfl, nothing, rfl⟩ := read
      obtain ⟨tailFits, back, last, tail⟩ := spellGroups_groups (7 - gs.length) true start
      rw [nothing, List.append_nil] at tail
      have gap := IsIpv6.gap first last (by omega)
      rw [placed]
      rwa [show colons back = start from tail.symm] at gap
  · intro spelled
    cases spelled with
    | @full parts gs dotted spelled all =>
      have head : groups 8 true (colons parts) = ⟨gs, dotted, []⟩ := by
        have run := spelled.groups_eq (Nat.le_of_eq all) (.inl rfl) true
        rwa [List.append_nil] at run
      unfold ipv6?
      simp only [head, all, if_true]
      rfl
    | @gap front back gs hs dotted first last room =>
      have head : groups 8 true (colons front ++ ':' :: ':' :: colons back) =
          ⟨gs, false, ':' :: ':' :: colons back⟩ :=
        first.groups_eq (by omega) (.inr ⟨_, rfl⟩) true
      have tail : groups (7 - gs.length) true (colons back) = ⟨hs, dotted, []⟩ := by
        have fits : hs.length ≤ 7 - gs.length := by omega
        have run := last.groups_eq fits (.inl rfl) true
        rwa [List.append_nil] at run
      have short : gs.length ≠ 8 := by omega
      unfold ipv6?
      simp only [head, if_neg short, exactly_eq_some_iff.mpr rfl, Option.bind_eq_bind, Option.bind_some,
        tail]
      rfl

theorem SpellGroups.isAddressChar (spelled : SpellGroups parts gs dotted) :
    ∀ c ∈ colons parts, IsAddressChar c := by
  refine forall_mem_colons (.inr (.inr rfl)) ?_
  induction spelled with
  | nil => simp
  | group own _ ih => exact List.forall_mem_cons.mpr ⟨own.1.isAddressChar (by decide), ih⟩
  | quad own => exact List.forall_mem_singleton.mpr own.isAddressChar

theorem IsIpv6.isAddressChar {a : Ipv6Addr} (spelled : IsIpv6 text a) : ∀ c ∈ text, IsAddressChar c := by
  have colon : IsAddressChar ':' := .inr (.inr rfl)
  cases spelled with
  | full spelled => exact spelled.isAddressChar
  | gap first last =>
    simp only [List.forall_mem_append, List.forall_mem_cons]
    exact ⟨first.isAddressChar, colon, colon, last.isAddressChar⟩

theorem IsIpv6.colon_mem {a : Ipv6Addr} (spelled : IsIpv6 text a) : ':' ∈ text := by
  cases spelled with
  | gap => simp
  | @full parts gs dotted spelled all =>
    cases spelled with
    | nil => cases all
    | quad => cases all
    | @group part parts g gs dotted own others =>
      cases parts with
      | nil =>
        cases others
        cases all
      | cons next parts => simp [colons]

/-! ## Addresses as they are written -/

theorem toList_groupsText (gs : List Nat) :
    (groupsText gs).toList = colons (gs.map (Nat.toDigits 16)) := by
  rw [groupsText, String.toList_intercalate, List.map_map]
  unfold colons
  congr 1
  exact List.map_congr_left fun g _ => String.toList_ofList

theorem isGroup_toDigits {g : Nat} (narrow : g < 65536) : IsGroup (Nat.toDigits 16 g) g :=
  ⟨spells_toDigits (by decide) g, (Nat.length_toDigits_le_iff (by decide) (by decide)).mpr narrow⟩

theorem spellGroups_toDigits (narrow : ∀ g ∈ gs, g < 65536) :
    SpellGroups (gs.map (Nat.toDigits 16)) gs false := by
  induction gs with
  | nil => exact .nil
  | cons g gs ih =>
    obtain ⟨own, others⟩ := List.forall_mem_cons.mp narrow
    exact .group (isGroup_toDigits own) (ih others)

/-- Addresses are written so. -/
theorem isIpv6_toString (a : Ipv6Addr) : IsIpv6 (toString a).toList a := by
  have narrow := groups_lt a
  show IsIpv6 (Ipv6Addr.toString a).toList a
  unfold Ipv6Addr.toString
  cases mapped : a.mapped? with
  | some quad =>
    obtain ⟨high, same⟩ := Option.ite_none_right_eq_some.mp mapped
    obtain rfl := Option.some.inj same
    have mark : "::ffff:".toList = ':' :: ':' :: (Nat.toDigits 16 0xffff ++ [':']) := by decide
    have written := IsIpv6.gap .nil
      (.group (isGroup_toDigits (show 0xffff < 65536 by decide))
        (.quad (isQuad_toString (Ipv4Addr.ofNat a.toNat)))) (by simp)
    have address := ofGroups_mapped high
    simp only [String.toList_append, mark]
    simpa [colons, List.replicate, address] using written
  | none =>
    rcases longest : longestZeroRun a.groups with ⟨start, length⟩
    simp only [longest]
    by_cases long : 1 < length
    · have whole := split_at_longest longest
      have size := congrArg List.length whole
      simp only [List.length_append, List.length_replicate, length_groups] at size
      have gap : 8 - (a.groups.take start).length - (a.groups.drop (start + length)).length = length := by
        omega
      have room : (a.groups.take start).length + (a.groups.drop (start + length)).length < 8 := by omega
      have written := IsIpv6.gap
        (spellGroups_toDigits fun g member => narrow g (List.mem_of_mem_take member))
        (spellGroups_toDigits fun g member => narrow g (List.mem_of_mem_drop member)) room
      have colons : "::".toList = [':', ':'] := by decide
      rw [gap, whole, ofGroups_groups] at written
      rw [if_pos long, String.toList_append, String.toList_append, colons, toList_groupsText,
        toList_groupsText, List.append_assoc]
      exact written
    · have written := IsIpv6.full (spellGroups_toDigits narrow) (length_groups a)
      rw [ofGroups_groups] at written
      rw [if_neg long, toList_groupsText]
      exact written

/-- Every IPv6 address is read as it is written. -/
theorem ipv6?_toString (a : Ipv6Addr) : ipv6? (toString a).toList = some a :=
  ipv6?_eq_some_iff.mpr (isIpv6_toString a)

end AddressReader

end Switchyard
