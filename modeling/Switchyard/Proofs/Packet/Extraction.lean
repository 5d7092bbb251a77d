import Switchyard.Packet.Parse
import Switchyard.Proofs.Packet.Holding

/-!
# Walking the parse graph

A walk only edits the packet that it starts with, whatever the graph. `Passed` says where its cursor is,
and that the flags of the headers in front of it are set. `Extracted` says more where no header repeats:
the headers are the bits in front of the cursor, and all other fields are as at the start. Extracting one
more header keeps that, and a walk that stops at a whole byte leaves a packet that holds its bytes.
-/

namespace Switchyard

namespace ParseCursor

open Packet

variable {start pkt : Packet} {c : ParseCursor} {headers : List HeaderId} {header : HeaderId}

theorem fillFields_edits (pkt : Packet) (position : Nat) (ids : List FieldId) :
    Edits pkt (fillFields pkt position ids) := by
  induction ids generalizing pkt position with
  | nil => exact Edits.refl
  | cons id ids ih => exact (Edits.refl.set _ _).trans (ih _ _)

theorem fillFields_valid (pkt : Packet) (position : Nat) (ids : List FieldId) :
    (fillFields pkt position ids).valid = pkt.valid := by
  induction ids generalizing pkt position with
  | nil => rfl
  | cons id ids ih => rw [fillFields, ih, set_valid]

/-- Filling fields leaves the others alone. -/
theorem fillFields_get {position : Nat} {ids : List FieldId} {id : FieldId} (apart : id ∉ ids) :
    (fillFields pkt position ids).get id = pkt.get id := by
  induction ids generalizing pkt position with
  | nil => rfl
  | cons other ids ih =>
    simp only [List.mem_cons, not_or] at apart
    obtain ⟨different, rest⟩ := apart
    rw [fillFields, ih rest, get_set_ne fun same => different same.symm]

/-- A filled field reads the bits behind those of the fields before it. -/
theorem fillFields_get_of_split {position : Nat} {ids front back : List FieldId} {id : FieldId}
    (split : ids = front ++ id :: back) (notBack : id ∉ back) (declared : id < pkt.values.length) :
    (fillFields pkt position ids).get id =
      Bits.read pkt.data (position + pkt.layout.totalBits front) (pkt.layout.width id) := by
  subst split
  induction front generalizing pkt position with
  | nil =>
    rw [List.nil_append, fillFields, fillFields_get notBack, get_set_self declared,
      Nat.mod_eq_of_lt (Bits.read_lt _ _ _)]
    rfl
  | cons other front ih =>
    rw [List.cons_append, fillFields, ih (by rw [length_set_values]; exact declared), set_data,
      set_layout, Layout.totalBits_cons, Nat.add_assoc]

/-- Filled fields hold the bits that they were filled from. -/
theorem fillFields_bits {position : Nat} {ids : List FieldId} (distinct : ids.Nodup)
    (declared : ∀ id ∈ ids, id < pkt.values.length)
    (inside : position + pkt.layout.totalBits ids ≤ 8 * pkt.data.length) :
    ids.flatMap (fillFields pkt position ids).fieldBits =
      ((Bits.ofBytes pkt.data).drop position).take (pkt.layout.totalBits ids) := by
  induction ids generalizing pkt position with
  | nil => rfl
  | cons id ids ih =>
    obtain ⟨apart, others⟩ := List.nodup_cons.mp distinct
    rw [Layout.totalBits_cons] at inside ⊢
    rw [← Nat.add_assoc] at inside
    have first : (fillFields pkt position (id :: ids)).fieldBits id =
        ((Bits.ofBytes pkt.data).drop position).take (pkt.layout.width id) := by
      rw [fieldBits, fillFields, fillFields_get apart, (fillFields_edits _ _ _).layout_eq,
        get_set_self (declared id List.mem_cons_self), set_layout, Bits.ofNat_mod,
        Bits.ofNat_read (by omega)]
    have declaredAfter : ∀ other ∈ ids, other <
        (pkt.set id (Bits.read pkt.data position (pkt.layout.width id))).values.length := by
      intro other member
      rw [length_set_values]
      exact declared other (List.mem_cons_of_mem _ member)
    have rest := ih others declaredAfter inside
    rw [set_layout, set_data] at rest
    rw [List.flatMap_cons, first, List.take_add, List.drop_drop, ← rest, fillFields]

theorem fits_iff : c.fits header = true ↔
    c.position + c.packet.layout.headerBits header ≤ 8 * c.packet.data.length :=
  decide_eq_true_iff

theorem extract_edits (c : ParseCursor) (header : HeaderId) :
    Edits c.packet (c.extract header).packet :=
  (fillFields_edits _ _ _).setValid header true

theorem extractAll_edits (c : ParseCursor) (headers : List HeaderId) :
    Edits c.packet (c.extractAll headers).1.packet := by
  induction headers generalizing c with
  | nil => exact Edits.refl
  | cons header headers ih =>
    unfold extractAll
    split
    · exact (c.extract_edits header).trans (ih _)
    · exact Edits.refl

/-! ## Extracting one header -/

theorem extract_position (c : ParseCursor) (header : HeaderId) :
    (c.extract header).position = c.position + c.packet.layout.headerBits header := rfl

/-- Extracting a header leaves the fields of others alone. -/
theorem extract_get {id : FieldId} (notOwn : id ∉ c.packet.layout.fieldIds header) :
    (c.extract header).packet.get id = c.packet.get id := by
  rw [extract, setValid_get, fillFields_get notOwn]

/-- An extracted field reads its bits behind the cursor. -/
theorem extract_get_of_split {front back : List FieldId} {id : FieldId}
    (layout : c.packet.layout.WellFormed) (wf : c.packet.WellFormed)
    (split : c.packet.layout.fieldIds header = front ++ id :: back) :
    (c.extract header).packet.get id = Bits.read c.packet.data
      (c.position + c.packet.layout.totalBits front) (c.packet.layout.width id) := by
  have distinct := c.packet.layout.fieldIds_nodup header
  have member : id ∈ c.packet.layout.fieldIds header := by
    rw [split]
    exact List.mem_append_right _ List.mem_cons_self
  rw [split] at distinct
  obtain ⟨-, later, -⟩ := List.nodup_append.mp distinct
  rw [extract, setValid_get]
  exact fillFields_get_of_split split (List.nodup_cons.mp later).1
    (wf.lt_values (layout.fieldIds_lt id member))

theorem extract_isValid_self (declared : header < c.packet.valid.length) :
    (c.extract header).packet.isValid header = true := by
  rw [extract, isValid_setValid_self]
  rw [fillFields_valid]
  exact declared

theorem extract_isValid_ne {other : HeaderId} (different : header ≠ other) :
    (c.extract header).packet.isValid other = c.packet.isValid other := by
  rw [extract, isValid_setValid_ne different, isValid, fillFields_valid, isValid]

/-- An extracted header holds the bits behind the cursor. -/
theorem extract_bits (layout : c.packet.layout.WellFormed) (wf : c.packet.WellFormed)
    (fits : c.fits header = true) :
    (c.packet.layout.fieldIds header).flatMap (c.extract header).packet.fieldBits =
      ((Bits.ofBytes c.packet.data).drop c.position).take (c.packet.layout.headerBits header) := by
  have room := fits_iff.mp fits
  rw [layout.headerBits_eq header] at room ⊢
  have known : ∀ id ∈ c.packet.layout.fieldIds header, id < c.packet.values.length := by
    intro id member
    exact wf.lt_values (layout.fieldIds_lt id member)
  rw [← fillFields_bits (c.packet.layout.fieldIds_nodup header) known room]
  rfl

/-- Where a cursor is when it has passed the given headers, and which flags it has set. -/
structure Passed (start : Packet) (headers : List HeaderId) (c : ParseCursor) : Prop where
  edits : Edits start c.packet
  position : c.position = start.layout.totalBits (start.layout.fieldsOf headers)
  inside : c.position ≤ 8 * start.data.length
  valid : ∀ header, c.packet.isValid header = (start.isValid header || decide (header ∈ headers))

namespace Passed

theorem nil (start : Packet) : Passed start [] ⟨start, 0⟩ :=
  ⟨Edits.refl, rfl, Nat.zero_le _, fun _ => (Bool.or_false _).symm⟩

/-- Passing one more header that fits. -/
theorem extract (passed : Passed start headers c) (layout : start.layout.WellFormed)
    (wf : start.WellFormed) (declared : header < start.layout.headers.length)
    (fits : c.fits header = true) : Passed start (headers ++ [header]) (c.extract header) := by
  have same := passed.edits.layout_eq
  have kept := passed.edits.wellFormed wf
  refine ⟨passed.edits.trans (c.extract_edits header), ?_, ?_, ?_⟩
  · rw [extract_position, same, layout.headerBits_eq, passed.position, Layout.fieldsOf_concat,
      Layout.totalBits_append]
  · have room := ParseCursor.fits_iff.mp fits
    rw [passed.edits.data_eq] at room
    exact room
  · intro another
    by_cases new : header = another
    · subst new
      rw [extract_isValid_self (by rw [kept.valid, same]; exact declared)]
      simp
    · have old : another ∈ headers ++ [header] ↔ another ∈ headers := by
        rw [List.mem_append, List.mem_singleton, or_iff_left (Ne.symm new)]
      rw [extract_isValid_ne new]
      simp only [old]
      exact passed.valid another

theorem fits_iff (passed : Passed start headers c) : c.fits header = true ↔
    c.position + start.layout.headerBits header ≤ 8 * start.data.length := by
  rw [ParseCursor.fits_iff, passed.edits.layout_eq, passed.edits.data_eq]

end Passed

/-- What a walk has done when it has extracted the given headers. -/
structure Extracted (start : Packet) (headers : List HeaderId) (c : ParseCursor) : Prop where
  edits : Edits start c.packet
  position : c.position = start.layout.totalBits (start.layout.fieldsOf headers)
  inside : c.position ≤ 8 * start.data.length
  bits : (start.layout.fieldsOf headers).flatMap c.packet.fieldBits =
    (Bits.ofBytes start.data).take c.position
  others : ∀ id : Nat, id ∉ start.layout.fieldsOf headers → c.packet.get id = start.get id
  valid : ∀ header, c.packet.isValid header = (start.isValid header || decide (header ∈ headers))

namespace Extracted

theorem nil (start : Packet) : Extracted start [] ⟨start, 0⟩ :=
  ⟨Edits.refl, rfl, Nat.zero_le _, rfl, fun _ _ => rfl, fun _ => (Bool.or_false _).symm⟩

theorem passed (extracted : Extracted start headers c) : Passed start headers c :=
  ⟨extracted.edits, extracted.position, extracted.inside, extracted.valid⟩

/-- Extracting one more header that fits. -/
theorem extract (extracted : Extracted start headers c) (layout : start.layout.WellFormed)
    (wf : start.WellFormed) (declared : header < start.layout.headers.length)
    (distinct : (headers ++ [header]).Nodup) (fits : c.fits header = true) :
    Extracted start (headers ++ [header]) (c.extract header) := by
  have same := extracted.edits.layout_eq
  have bytes := extracted.edits.data_eq
  have kept := extracted.edits.wellFormed wf
  have width := layout.headerBits_eq header
  obtain ⟨edits, position, inside, valid⟩ := extracted.passed.extract layout wf declared fits
  have fieldsNodup := layout.fieldsOf_nodup distinct
  rw [Layout.fieldsOf_concat] at fieldsNodup
  obtain ⟨-, -, apart⟩ := List.nodup_append.mp fieldsNodup
  have notOwn : ∀ id ∈ start.layout.fieldsOf headers, id ∉ c.packet.layout.fieldIds header := by
    rw [same]
    intro id member own
    exact apart id member id own rfl
  refine ⟨edits, position, inside, ?_, ?_, valid⟩
  · -- the earlier headers keep their bits, and the new one has those behind them
    have earlier : (start.layout.fieldsOf headers).flatMap (c.extract header).packet.fieldBits =
        (start.layout.fieldsOf headers).flatMap c.packet.fieldBits := by
      apply flatMap_fieldBits_congr
      intro id member
      rw [fieldBits, fieldBits, extract_get (notOwn id member), (c.extract_edits header).layout_eq]
    have own := c.extract_bits (by rw [same]; exact layout) kept fits
    rw [same, bytes] at own
    rw [Layout.fieldsOf_concat, List.flatMap_append, earlier,
      extracted.bits, own, extract_position, same, List.take_add]
  · intro id notMember
    rw [Layout.fieldsOf_concat, List.mem_append, not_or] at notMember
    rw [extract_get (by rw [same]; exact notMember.2), extracted.others id notMember.1]

/-- The extracted headers are the first bits of the bytes. -/
theorem leads (extracted : Extracted start headers c) :
    c.packet.Leads (c.packet.layout.fieldsOf headers) start.data := by
  rw [Leads, extracted.edits.layout_eq, extracted.bits]
  exact List.take_prefix _ _

end Extracted

end ParseCursor

namespace Program

open Packet ParseCursor

variable {p : Program} {pkt : Packet}

@[simp] theorem walk_accept (p : Program) (steps : Nat) (c : ParseCursor) :
    p.walk steps .accept c = (.noError, c) := by
  cases steps <;> rfl

@[simp] theorem walk_reject (p : Program) (steps : Nat) (c : ParseCursor) :
    p.walk steps .reject c = (.noError, c) := by
  cases steps <;> rfl

section States

variable {i steps : Nat} {state : ParseState} {c : ParseCursor} {header : HeaderId}
  {left : List HeaderId} {target : Target}

/-- What a walk does from within a state that has headers left to extract. -/
def finish (p : Program) (steps : Nat) (state : ParseState) (left : List HeaderId) (c : ParseCursor) :
    ParserError × ParseCursor :=
  match c.extractAll left with
  | (c, false) => (.packetTooShort, c)
  | (c, true) =>
    match state.next? c.packet with
    | none => (.noMatch, c)
    | some target => p.walk steps target c

theorem walk_state (found : p.states[i]? = some state) :
    p.walk (steps + 1) (.state i) c = p.finish steps state state.extract c := by
  rw [walk, found]
  rfl

theorem finish_fits (fits : c.fits header = true) :
    p.finish steps state (header :: left) c = p.finish steps state left (c.extract header) := by
  rw [finish, extractAll, if_pos fits, finish]

theorem finish_short (short : ¬ c.fits header = true) :
    p.finish steps state (header :: left) c = (.packetTooShort, c) := by
  rw [finish, extractAll, if_neg short]

theorem finish_go (next : state.next? c.packet = some target) :
    p.finish steps state [] c = p.walk steps target c := by
  simp only [finish, extractAll, next]

theorem finish_stuck (stuck : state.next? c.packet = none) :
    p.finish steps state [] c = (.noMatch, c) := by
  simp only [finish, extractAll, stuck]

/-- A state whose header does not fit ends the walk. -/
theorem walk_of_short (found : p.states[i]? = some state) (single : state.extract = [header])
    (short : c.fits header = false) : p.walk (steps + 1) (.state i) c = (.packetTooShort, c) := by
  rw [walk_state found, single, finish_short (Bool.eq_false_iff.mp short)]

/-- A state whose header fits extracts it and goes on. -/
theorem walk_of_fits (found : p.states[i]? = some state) (single : state.extract = [header])
    (fits : c.fits header = true) (next : state.next? (c.extract header).packet = some target) :
    p.walk (steps + 1) (.state i) c = p.walk steps target (c.extract header) := by
  rw [walk_state found, single, finish_fits fits, finish_go next]

/-- A state without headers goes on at once. -/
theorem walk_of_empty (found : p.states[i]? = some state) (empty : state.extract = [])
    (next : state.next? c.packet = some target) :
    p.walk (steps + 1) (.state i) c = p.walk steps target c := by
  rw [walk_state found, empty, finish_go next]

end States

theorem walk_edits (p : Program) (steps : Nat) (target : Target) (c : ParseCursor) :
    Edits c.packet (p.walk steps target c).2.packet := by
  fun_induction p.walk steps target c with
  | case1 => exact Edits.refl
  | case2 => exact Edits.refl
  | case3 => exact Edits.refl
  | case4 => exact Edits.refl
  | case5 steps i c state found cut stopped =>
    have step := c.extractAll_edits state.extract
    rwa [stopped] at step
  | case6 steps i c state found after stopped none =>
    have step := c.extractAll_edits state.extract
    rwa [stopped] at step
  | case7 steps i c state found after stopped target next ih =>
    have step := c.extractAll_edits state.extract
    rw [stopped] at step
    exact step.trans ih

theorem parse_descends (p : Program) (pkt : Packet) : Descends pkt (p.parse pkt) := by
  have edits := p.walk_edits maxParseSteps p.start ⟨pkt, 0⟩
  refine ⟨?_, ?_, ?_, ?_⟩
  · show (p.walk maxParseSteps p.start ⟨pkt, 0⟩).2.packet.id = pkt.id
    rw [edits.eq]
  · exact edits.layout_eq
  · exact edits.data_eq
  · intro wf
    have kept := (edits.wellFormed wf).setPayloadOffset
      (((p.walk maxParseSteps p.start ⟨pkt, 0⟩).2.position + 7) / 8)
    exact ⟨kept.values, kept.valid, kept.fits, kept.offset⟩

theorem isValid_parse (p : Program) (pkt : Packet) : (p.parse pkt).isValid =
    (p.walk maxParseSteps p.start ⟨pkt, 0⟩).2.packet.isValid := rfl

theorem get_parse (p : Program) (pkt : Packet) : (p.parse pkt).get =
    (p.walk maxParseSteps p.start ⟨pkt, 0⟩).2.packet.get := rfl

/-- The flag that a parse leaves is what the checksum rules say of the parsed packet. -/
theorem checksumError_parse (p : Program) (pkt : Packet) :
    (p.parse pkt).checksumError = p.checksums.any (p.parse pkt).hasBadChecksum := rfl

/-- A walk that extracts whole bytes leaves a packet that holds its bytes. -/
theorem parse_holds {headers : List HeaderId} {size : Nat}
    (extracted : Extracted pkt headers (p.walk maxParseSteps p.start ⟨pkt, 0⟩).2)
    (whole : pkt.layout.totalBits (pkt.layout.fieldsOf headers) = 8 * size)
    (order : p.deparseOrder.filter (p.parse pkt).isValid = headers) :
    Holds p (p.parse pkt) headers pkt.data := by
  have layout := (p.parse_descends pkt).layout
  have data := (p.parse_descends pkt).data
  have position := extracted.position.trans whole
  have inside := extracted.inside
  have offset : (p.parse pkt).payloadOffset = size := by
    show min (((p.walk maxParseSteps p.start ⟨pkt, 0⟩).2.position + 7) / 8)
      (p.walk maxParseSteps p.start ⟨pkt, 0⟩).2.packet.data.length = size
    rw [extracted.edits.data_eq]
    omega
  refine ⟨order, ?_, ?_, ?_⟩
  · have bits : (p.parse pkt).fieldBits =
        (p.walk maxParseSteps p.start ⟨pkt, 0⟩).2.packet.fieldBits := rfl
    rw [Leads, layout, bits, extracted.bits]
    exact List.take_prefix _ _
  · rw [layout, offset, whole]
  · rw [payload, data]

end Program

end Switchyard
