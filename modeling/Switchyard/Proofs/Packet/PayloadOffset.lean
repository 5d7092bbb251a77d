import Mathlib.Data.List.Induction
import Switchyard.Proofs.Packet.RoundTrip

/-!
# Payloads past the end

Wherever an operation on a packet places the payload offset, it places it inside the bytes, and most
operations touch neither. Replacing the bytes leaves the offset where it was: fewer bytes than that leave
the payload past the end, and there it stays until an operation places the offset anew or brings other
bytes. Deparsing such a packet fails, and deparsing any other succeeds.
-/

namespace Switchyard

open Sequencing

namespace Packet

/-- What can be done to a packet under way, by controls and by the program. -/
inductive Operation where
  | set (id : FieldId) (value : Nat)
  | setField (name : String) (value : Nat)
  | setValid (header : HeaderId) (flag : Bool)
  | resetMetadata
  | copy (copyId : Nat)
  | recordError (error : ParserError)
  | recordChecksumError (flag : Bool)
  | recordExit (flag : Bool)
  | setData (data : Bytes)
  | setPayloadOffset (offset : Nat)
  | parse
  | deparse
  deriving DecidableEq

namespace Operation

/-- Carries out an operation. A field that is not declared is not stored; only deparsing can fail. -/
def run (p : Program) (pkt : Packet) : Operation → Except PipelineError Packet
  | set id value => .ok (pkt.set id value)
  | setField name value =>
    match pkt.setField name value with
    | .ok stored => .ok stored
    | .error _ => .ok pkt
  | setValid header flag => .ok (pkt.setValid header flag)
  | resetMetadata => .ok pkt.resetMetadata
  | copy copyId => .ok (pkt.copy copyId)
  | recordError error => .ok { pkt with parserError := error }
  | recordChecksumError flag => .ok { pkt with checksumError := flag }
  | recordExit flag => .ok { pkt with exited := flag }
  | setData data => .ok (pkt.setData data)
  | setPayloadOffset offset => .ok (pkt.setPayloadOffset offset)
  | parse => .ok (p.parse pkt)
  | deparse => p.deparse pkt

/-- Carries out operations one after another. -/
def runAll (p : Program) (pkt : Packet) (ops : List Operation) : Except PipelineError Packet :=
  ops.foldlM (run p) pkt

/-- Does the operation replace the bytes or place the payload offset? -/
def movesPayload : Operation → Bool
  | setData _ | setPayloadOffset _ | parse | deparse => true
  | _ => false

/-- The bytes were last replaced by fewer than the payload offset was then, and nothing has moved the
payload since. -/
def CutShort (p : Program) (start : Packet) (ops : List Operation) : Prop :=
  ∃ before data after mid, ops = before ++ setData data :: after ∧
    (∀ op ∈ after, op.movesPayload = false) ∧ runAll p start before = .ok mid ∧
    data.length < mid.payloadOffset

variable {p : Program} {start pkt next : Packet} {op : Operation} {ops : List Operation}

theorem runAll_concat : runAll p start (ops ++ [op]) = .ok next ↔
    ∃ pkt, runAll p start ops = .ok pkt ∧ op.run p pkt = .ok next := by
  rw [runAll, List.foldlM_append, bind_eq_ok]
  simp only [List.foldlM_cons, List.foldlM_nil, bind_pure, runAll]

/-- What holds of the first packet and is kept by every operation holds after all of them. -/
theorem keeps_of_runAll (Keeps : Packet → Prop) (holds : Keeps start)
    (step : ∀ before (op : Operation) after, Keeps before → op.run p before = .ok after → Keeps after)
    (ran : runAll p start ops = .ok pkt) : Keeps pkt := by
  induction ops using List.reverseRecOn generalizing pkt with
  | nil =>
    cases ran
    exact holds
  | append_singleton ops op ih =>
    obtain ⟨mid, earlier, last⟩ := runAll_concat.mp ran
    exact step mid op pkt (ih earlier) last

/-- An operation that does not move the payload leaves bytes and offset alone. -/
theorem run_unmoved (unmoved : op.movesPayload = false) (ran : op.run p pkt = .ok next) :
    next.data = pkt.data ∧ next.payloadOffset = pkt.payloadOffset := by
  cases op with
  | setField name value =>
    unfold run at ran
    dsimp only at ran
    split at ran
    case h_1 stored found =>
      cases ran
      obtain ⟨id, -, same⟩ := bind_eq_ok.mp found
      cases same
      exact ⟨rfl, rfl⟩
    case h_2 =>
      cases ran
      exact ⟨rfl, rfl⟩
  | setData | setPayloadOffset | parse | deparse => cases unmoved
  | _ =>
    cases ran
    exact ⟨rfl, rfl⟩

/-- Deparsing places the payload behind the headers, inside the bytes. -/
theorem offset_of_deparse (deparsed : p.deparse pkt = .ok next) :
    next.payloadOffset ≤ next.data.length := by
  unfold Program.deparse at deparsed
  split at deparsed
  case isTrue => cases deparsed
  case isFalse =>
    cases deparsed
    exact Nat.min_le_right _ _

/-- After an operation the payload is past the end if the operation replaced the bytes by too few, or if
it was before and the operation did not move it. -/
theorem past_end_of_run (ran : op.run p pkt = .ok next) :
    next.data.length < next.payloadOffset ↔
      (∃ data, op = setData data ∧ data.length < pkt.payloadOffset) ∨
        op.movesPayload = false ∧ pkt.data.length < pkt.payloadOffset := by
  by_cases moves : op.movesPayload = true
  · cases op with
    | setData data =>
      cases ran
      simp [movesPayload, Packet.setData]
    | setPayloadOffset offset =>
      cases ran
      have inside : (pkt.setPayloadOffset offset).payloadOffset ≤ (pkt.setPayloadOffset offset).data.length :=
        Nat.min_le_right _ _
      simp [movesPayload, inside]
    | parse =>
      cases ran
      have inside : (p.parse pkt).payloadOffset ≤ (p.parse pkt).data.length := Nat.min_le_right _ _
      simp [movesPayload, inside]
    | deparse =>
      have inside := offset_of_deparse ran
      simp [movesPayload, inside]
    | _ => cases moves
  · have unmoved : op.movesPayload = false := Bool.eq_false_iff.mpr moves
    obtain ⟨data, offset⟩ := run_unmoved unmoved ran
    have keeps : ∀ data, op ≠ setData data := by
      rintro data rfl
      exact moves rfl
    simp [unmoved, data, offset, keeps]

/-- One more operation cuts the bytes short, or leaves them cut short. -/
theorem cutShort_concat (ran : runAll p start ops = .ok pkt) :
    CutShort p start (ops ++ [op]) ↔
      (∃ data, op = setData data ∧ data.length < pkt.payloadOffset) ∨
        op.movesPayload = false ∧ CutShort p start ops := by
  constructor
  · rintro ⟨before, data, after, mid, split, unmoved, reached, short⟩
    rcases List.eq_nil_or_concat after with rfl | ⟨after, last, rfl⟩
    · obtain ⟨rfl, same⟩ := List.append_inj' split rfl
      cases same
      cases ran.symm.trans reached
      exact .inl ⟨data, rfl, short⟩
    · rw [List.concat_eq_append] at split unmoved
      rw [← List.cons_append, ← List.append_assoc] at split
      obtain ⟨rfl, same⟩ := List.append_inj' split rfl
      cases same
      obtain ⟨unmoved, lastUnmoved⟩ := List.forall_mem_append.mp unmoved
      exact .inr ⟨lastUnmoved _ List.mem_cons_self, before, data, after, mid, rfl, unmoved, reached, short⟩
  · rintro (⟨data, rfl, short⟩ | ⟨lastUnmoved, before, data, after, mid, rfl, unmoved, reached, short⟩)
    · exact ⟨ops, data, [], pkt, rfl, List.forall_mem_nil _, ran, short⟩
    · refine ⟨before, data, after ++ [op], mid, by simp, ?_, reached, short⟩
      exact List.forall_mem_append.mpr ⟨unmoved, List.forall_mem_singleton.mpr lastUnmoved⟩

/-- From a packet whose payload is inside its bytes, operations lead to one whose payload is past the end
exactly if they have cut its bytes short. -/
theorem past_end_iff_cutShort (inside : start.payloadOffset ≤ start.data.length)
    (ran : runAll p start ops = .ok pkt) :
    pkt.data.length < pkt.payloadOffset ↔ CutShort p start ops := by
  induction ops using List.reverseRecOn generalizing pkt with
  | nil =>
    cases ran
    constructor
    · intro past
      exact absurd inside (Nat.not_le.mpr past)
    · rintro ⟨before, data, after, mid, split, -⟩
      simp at split
  | append_singleton ops op ih =>
    obtain ⟨mid, earlier, last⟩ := runAll_concat.mp ran
    rw [past_end_of_run last, cutShort_concat earlier, ih earlier]

/-- Whatever is done to a new packet, its payload is past the end of its bytes exactly if its bytes were
last replaced by fewer than the payload offset was then, and nothing has placed the offset since. Deparsing
reads the payload where the offset is: it fails there, and succeeds everywhere else. -/
theorem payload_past_end_iff {id port : Nat} {data : Bytes} {layout : Layout}
    (ran : runAll p (.new id port data layout) ops = .ok pkt) :
    (pkt.payloadOffset ≤ pkt.data.length ↔ ¬ CutShort p (.new id port data layout) ops) ∧
      ((∃ out, p.deparse pkt = .ok out) ↔ ¬ CutShort p (.new id port data layout) ops) ∧
      (CutShort p (.new id port data layout) ops →
        p.deparse pkt = .error (.payloadOutOfRange pkt.payloadOffset pkt.data.length)) := by
  have past := past_end_iff_cutShort (Nat.zero_le _) ran
  refine ⟨by rw [← past, Nat.not_lt], ⟨?_, fun uncut => ?_⟩, fun cut => if_pos (past.mpr cut)⟩
  · rintro ⟨out, deparsed⟩ cut
    rw [Program.deparse, if_pos (past.mpr cut)] at deparsed
    cases deparsed
  · exact ⟨_, if_neg (mt past.mp uncut)⟩

/-- The bytes that the odd packet was parsed from are replaced by a single one, and a field is stored: the
payload still begins at the third byte, and the packet cannot be deparsed. -/
theorem payload_past_end_iff_shortened :
    ∃ pkt, runAll Program.oddProgram Program.oddPacket [parse, setData [9], set 0 3] = .ok pkt ∧
      CutShort Program.oddProgram Program.oddPacket [parse, setData [9], set 0 3] ∧
      ¬ pkt.payloadOffset ≤ pkt.data.length ∧
      Program.oddProgram.deparse pkt = .error (.payloadOutOfRange 2 1) := by
  have ran : runAll Program.oddProgram (.new 0 3 [0xfb, 0x5f, 0xaa] Program.oddProgram.layout)
      [parse, setData [9], set 0 3] = .ok _ := rfl
  have cut : CutShort Program.oddProgram Program.oddPacket [parse, setData [9], set 0 3] :=
    ⟨[parse], [9], [set 0 3], _, rfl, by decide, rfl, by decide⟩
  obtain ⟨inside, -, fails⟩ := payload_past_end_iff ran
  exact ⟨_, ran, cut, fun offset => inside.mp offset cut, fails cut⟩

end Operation

end Packet

end Switchyard
