import Switchyard.Proofs.Checked.Fields
import Switchyard.Proofs.Packet.Walk

/-!
# The parse graph, checked

The walk of the parse graph with every access checked: the state that is entered, the definition of a header,
the bits of a field, the place where its value goes and the field that a state selects on. In a program whose
names resolve, a walk over a well-formed packet comes through and is the plain walk, however long it goes
round and wherever the packet is cut off.
-/

namespace Switchyard

namespace Checked

open ParseCursor Sequencing

/-- Fills fields from the bits behind the cursor, and moves the cursor behind them. -/
def fillFields (c : ParseCursor) : List (FieldId × Nat) → Checked ParseCursor
  | [] => .ok c
  | (id, width) :: fields => do
    let bits ← slice (Bits.ofBytes c.packet.data) c.position (c.position + width)
    let pkt ← set c.packet id (← load bits)
    fillFields ⟨pkt, c.position + width⟩ fields

/-- Extracts a header. -/
def extract (c : ParseCursor) (header : HeaderId) : Checked ParseCursor := do
  let filled ← fillFields c (← headerFields c.packet.layout header)
  let pkt ← setValid filled.packet header true
  return { filled with packet := pkt }

/-- Extracts headers until one does not fit. The flag says that all did. -/
def extractAll (c : ParseCursor) : List HeaderId → Checked (ParseCursor × Bool)
  | [] => .ok (c, true)
  | header :: headers => do
    let h ← item c.packet.layout.headers header
    if c.position + h.bits ≤ 8 * c.packet.data.length then
      extractAll (← extract c header) headers
    else return (c, false)

/-- Where a state goes from a packet. -/
def next? (state : ParseState) (pkt : Packet) : Checked (Option Target) :=
  match state.select with
  | none => .ok (some (state.fallback.getD .accept))
  | some id => do
    let value ← get pkt id
    return (state.transitions.lookup value).or state.fallback

/-- Walks the parse graph, entering at most `steps` states. -/
def walk (p : Program) : Nat → Target → ParseCursor → Checked (ParserError × ParseCursor)
  | _, .accept, c => .ok (.noError, c)
  | _, .reject, c => .ok (.noError, c)
  | 0, .state _, c => .ok (.parserTimeout, c)
  | steps + 1, .state i, c => do
    let state ← item p.states i
    match ← extractAll c state.extract with
    | (c, false) => return (.packetTooShort, c)
    | (c, true) =>
      match ← next? state c.packet with
      | none => return (.noMatch, c)
      | some target => walk p steps target c

variable {c : ParseCursor} {header : HeaderId} {headers : List HeaderId}

/-- Fields whose bits are all there are filled one after another. -/
theorem fillFields_ok (layout : c.packet.layout.WellFormed) (wf : c.packet.WellFormed) {ids : List FieldId}
    (declared : ∀ id ∈ ids, id < c.packet.layout.fields.length)
    (inside : c.position + c.packet.layout.totalBits ids ≤ 8 * c.packet.data.length) :
    fillFields c (ids.map fun id => (id, c.packet.layout.width id)) =
      .ok ⟨ParseCursor.fillFields c.packet c.position ids,
        c.position + c.packet.layout.totalBits ids⟩ := by
  induction ids generalizing c with
  | nil => rfl
  | cons id ids ih =>
    obtain ⟨own, others⟩ := List.forall_mem_cons.mp declared
    rw [Layout.totalBits_cons, ← Nat.add_assoc] at inside
    have narrow := layout.width_bounds own
    have room : c.position + c.packet.layout.width id ≤ (Bits.ofBytes c.packet.data).length := by
      rw [Bits.length_ofBytes]
      omega
    have bits := slice_ok (Nat.le_add_right c.position (c.packet.layout.width id)) room
    rw [Nat.add_sub_cancel_left] at bits
    have length : (((Bits.ofBytes c.packet.data).drop c.position).take (c.packet.layout.width id)).length =
        c.packet.layout.width id := by
      rw [List.length_take, List.length_drop]
      omega
    have value := load_ok (length.symm ▸ narrow)
    rw [← Bits.read_eq] at value
    have stored := set_ok wf own (Bits.read c.packet.data c.position (c.packet.layout.width id))
    have rest := ih (c := ⟨c.packet.set id (Bits.read c.packet.data c.position (c.packet.layout.width id)),
      c.position + c.packet.layout.width id⟩) layout (wf.set _ _) others inside
    rw [List.map_cons, fillFields, bits]
    simp only [bind, Except.bind, value, stored]
    rw [Layout.totalBits_cons, ← Nat.add_assoc]
    exact rest

/-- A declared header that fits is extracted. -/
theorem extract_ok (layout : c.packet.layout.WellFormed) (wf : c.packet.WellFormed)
    (declared : header < c.packet.layout.headers.length) (fits : c.fits header = true) :
    extract c header = .ok (c.extract header) := by
  have inside := fits_iff.mp fits
  rw [layout.headerBits_eq] at inside
  have filled := fillFields_ok layout wf (fun id member => layout.fieldIds_lt id member) inside
  have edits := fillFields_edits c.packet c.position (c.packet.layout.fieldIds header)
  have flagged := setValid_ok (edits.wellFormed wf) (edits.layout_eq ▸ declared) true
  refine bind_eq_ok.mpr ⟨_, headerFields_ok layout declared, ?_⟩
  refine bind_eq_ok.mpr ⟨_, filled, bind_eq_ok.mpr ⟨_, flagged, ?_⟩⟩
  rw [ParseCursor.extract, layout.headerBits_eq]
  rfl

theorem extractAll_ok (layout : c.packet.layout.WellFormed) (wf : c.packet.WellFormed)
    (declared : ∀ header ∈ headers, header < c.packet.layout.headers.length) :
    extractAll c headers = .ok (c.extractAll headers) := by
  induction headers generalizing c with
  | nil => rfl
  | cons header headers ih =>
    obtain ⟨own, others⟩ := List.forall_mem_cons.mp declared
    have found := List.getElem?_eq_getElem own
    have bits : c.packet.layout.headerBits header = c.packet.layout.headers[header].bits := by
      rw [Layout.headerBits, found, Option.map_some, Option.getD_some]
    refine bind_eq_ok.mpr ⟨_, item_eq_ok.mpr found, ?_⟩
    rw [ParseCursor.extractAll, ← bits]
    by_cases fits : c.fits header = true
    · have edits := c.extract_edits header
      rw [if_pos (fits_iff.mp fits), if_pos fits]
      refine bind_eq_ok.mpr ⟨_, extract_ok layout wf own fits, ?_⟩
      exact ih (edits.layout_eq ▸ layout) (edits.wellFormed wf) (edits.layout_eq ▸ others)
    · rw [if_neg (mt fits_iff.mpr fits), if_neg fits]
      rfl

theorem next?_ok {state : ParseState} {pkt : Packet} (wf : pkt.WellFormed)
    (declared : ∀ id, state.select = some id → id < pkt.layout.fields.length) :
    next? state pkt = .ok (state.next? pkt) := by
  unfold next? ParseState.next?
  cases select : state.select with
  | none => rfl
  | some id => exact bind_eq_ok.mpr ⟨_, get_ok wf (declared id select), rfl⟩

/-- From any target that is there, a walk comes through. -/
theorem walk_ok {p : Program} (declared : p.Declared) {steps : Nat} {target : Target}
    (known : ∀ i, target = .state i → i < p.states.length) (same : c.packet.layout = p.layout)
    (wf : c.packet.WellFormed) : walk p steps target c = .ok (p.walk steps target c) := by
  induction steps generalizing target c with
  | zero => cases target <;> rfl
  | succ steps ih =>
    cases target with
    | accept => rfl
    | reject => rfl
    | state i =>
      obtain ⟨state, found⟩ : ∃ state, p.states[i]? = some state :=
        ⟨_, List.getElem?_eq_getElem (known i rfl)⟩
      have member := List.mem_of_getElem? found
      have layout : c.packet.layout.WellFormed := same ▸ declared.layout
      have extracted := extractAll_ok layout wf (same ▸ declared.headers state member)
      have edits := c.extractAll_edits state.extract
      rcases stopped : c.extractAll state.extract with ⟨after, all⟩
      rw [stopped] at extracted edits
      have still : after.packet.layout = p.layout := edits.layout_eq.trans same
      have kept : after.packet.WellFormed := edits.wellFormed wf
      rw [Program.walk_state found, Program.finish, stopped]
      refine bind_eq_ok.mpr ⟨_, item_eq_ok.mpr found, bind_eq_ok.mpr ⟨_, extracted, ?_⟩⟩
      cases all with
      | false => rfl
      | true =>
        refine bind_eq_ok.mpr ⟨_, next?_ok kept (still ▸ declared.selects state member), ?_⟩
        dsimp only
        cases next : state.next? after.packet with
        | none => rfl
        | some target =>
          refine ih ?_ still kept
          rintro i rfl
          exact declared.targets state member i (ParseState.next?_eq_some_iff.mp next).mem_targets

end Checked

end Switchyard
