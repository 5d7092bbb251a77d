import Mathlib.Data.List.Induction
import Mathlib.Logic.Relation
import Switchyard.Proofs.Packet.Extraction
import Switchyard.Proofs.Program.Resolution

/-!
# The parse graph, step by step

A walk enters a state, extracts its headers one by one, and goes on by the value that a field has then.
`Walk.Step` says what a walk may do, in terms of the bits of the packet alone, and `Walk.Ends` where it
can do no more and what the parse then reports. `Walk.Tracks` ties a walk to the parser: the cursor holds
what the walk has extracted, and what is left to do has the outcome of the whole parse. Every step keeps
that, every walk ends, and so the parser does what the walks say.
-/

namespace Switchyard

/-- The value of a field when headers have been extracted from the front of a packet: the bits where the
last extraction has the field, and where no header has it, the value from before. -/
inductive Packet.Reads (pkt : Packet) (extracted : List HeaderId) (id : FieldId) : Nat → Prop where
  | bits {before after : List HeaderId} {header : HeaderId} {front back : List FieldId}
      (last : extracted = before ++ header :: after) (notAgain : header ∉ after)
      (place : pkt.layout.fieldIds header = front ++ id :: back) :
      Reads pkt extracted id (Bits.toNat (((Bits.ofBytes pkt.data).drop
        (pkt.layout.totalBits (pkt.layout.fieldsOf before ++ front))).take (pkt.layout.width id)))
  | kept (untouched : id ∉ pkt.layout.fieldsOf extracted) : Reads pkt extracted id (pkt.get id)

/-- A state goes on by its default if it selects on nothing. Otherwise it takes the first transition for
the value of its field, and its default if there is none. -/
inductive ParseState.Goes (state : ParseState) (reads : FieldId → Nat → Prop) : Target → Prop where
  | always (noSelect : state.select = none) : Goes state reads (state.fallback.getD .accept)
  | taken {id : FieldId} {value : Nat} {front back : List (Nat × Target)} {target : Target}
      (select : state.select = some id) (read : reads id value)
      (split : state.transitions = front ++ (value, target) :: back)
      (first : ∀ t ∈ front, t.1 ≠ value) : Goes state reads target
  | otherwise {id : FieldId} {value : Nat} {target : Target}
      (select : state.select = some id) (read : reads id value)
      (unmet : ∀ t ∈ state.transitions, t.1 ≠ value) (fallback : state.fallback = some target) :
      Goes state reads target

/-- Where a walk stands: in front of a target, or in a state with headers left to extract. -/
inductive Stand where
  | before (target : Target)
  | within (state : ParseState) (left : List HeaderId)

/-- A walk of the parse graph: the states that it has entered and the headers that it has extracted, in
order, and where it stands. -/
structure Walk where
  entered : List Nat
  extracted : List HeaderId
  stand : Stand

namespace Walk

/-- The walk that has done nothing yet. -/
def start (p : Program) : Walk := ⟨[], [], .before p.start⟩

/-- What a walk may do. -/
inductive Step (p : Program) (pkt : Packet) : Walk → Walk → Prop where
  | enter {entered : List Nat} {extracted : List HeaderId} {i : Nat} {state : ParseState}
      (known : p.states[i]? = some state) (more : entered.length < 256) :
      Step p pkt ⟨entered, extracted, .before (.state i)⟩
        ⟨entered ++ [i], extracted, .within state state.extract⟩
  | extract {entered : List Nat} {extracted left : List HeaderId} {header : HeaderId}
      {state : ParseState}
      (fits : pkt.layout.totalBits (pkt.layout.fieldsOf (extracted ++ [header])) ≤
        8 * pkt.data.length) :
      Step p pkt ⟨entered, extracted, .within state (header :: left)⟩
        ⟨entered, extracted ++ [header], .within state left⟩
  | go {entered : List Nat} {extracted : List HeaderId} {state : ParseState} {target : Target}
      (goes : state.Goes (pkt.Reads extracted) target) :
      Step p pkt ⟨entered, extracted, .within state []⟩ ⟨entered, extracted, .before target⟩

/-- Where a walk can do no more, and what the parse then reports. -/
inductive Ends (pkt : Packet) : Walk → ParserError → Prop where
  | accept {entered : List Nat} {extracted : List HeaderId} :
      Ends pkt ⟨entered, extracted, .before .accept⟩ .noError
  | reject {entered : List Nat} {extracted : List HeaderId} :
      Ends pkt ⟨entered, extracted, .before .reject⟩ .noError
  | short {entered : List Nat} {extracted left : List HeaderId} {header : HeaderId}
      {state : ParseState}
      (short : 8 * pkt.data.length <
        pkt.layout.totalBits (pkt.layout.fieldsOf (extracted ++ [header]))) :
      Ends pkt ⟨entered, extracted, .within state (header :: left)⟩ .packetTooShort
  | noMatch {entered : List Nat} {extracted : List HeaderId} {state : ParseState} {id : FieldId}
      {value : Nat} (select : state.select = some id) (read : pkt.Reads extracted id value)
      (unmet : ∀ t ∈ state.transitions, t.1 ≠ value) (noFallback : state.fallback = none) :
      Ends pkt ⟨entered, extracted, .within state []⟩ .noMatch
  | timeout {entered : List Nat} {extracted : List HeaderId} {i : Nat} (spent : entered.length = 256) :
      Ends pkt ⟨entered, extracted, .before (.state i)⟩ .parserTimeout

/-- Somewhere on the way of a walk. -/
def Reached (p : Program) (pkt : Packet) : Walk → Prop :=
  Relation.ReflTransGen (Step p pkt) (Walk.start p)

end Walk

/-! ## The value of a field -/

namespace Packet.Reads

variable {pkt : Packet} {extracted : List HeaderId} {header : HeaderId} {id : FieldId} {value : Nat}

/-- Every field has a value. -/
theorem exists_value (pkt : Packet) (extracted : List HeaderId) (id : FieldId) :
    ∃ value, pkt.Reads extracted id value := by
  induction extracted using List.reverseRecOn with
  | nil => exact ⟨_, .kept List.not_mem_nil⟩
  | append_singleton extracted header ih =>
    by_cases own : id ∈ pkt.layout.fieldIds header
    · obtain ⟨front, back, place⟩ := List.append_of_mem own
      exact ⟨_, .bits rfl List.not_mem_nil place⟩
    · obtain ⟨value, reads⟩ := ih
      cases reads with
      | @bits before after another front back last notAgain place =>
        have different : another ≠ header := by
          rintro rfl
          apply own
          rw [place]
          exact List.mem_append_right _ List.mem_cons_self
        have longer : extracted ++ [header] = before ++ another :: (after ++ [header]) := by
          rw [last, List.append_assoc, List.cons_append]
        have notLater : another ∉ after ++ [header] := by
          rw [List.mem_append, List.mem_singleton, not_or]
          exact ⟨notAgain, different⟩
        exact ⟨_, .bits longer notLater place⟩
      | kept untouched =>
        refine ⟨_, .kept ?_⟩
        rw [Layout.fieldsOf_concat, List.mem_append, not_or]
        exact ⟨untouched, own⟩

/-- The value after one more extraction is that of the header, or is as before. -/
theorem of_concat (layout : pkt.layout.WellFormed)
    (reads : pkt.Reads (extracted ++ [header]) id value) :
    (∃ front back, pkt.layout.fieldIds header = front ++ id :: back ∧
      value = Bits.read pkt.data
        (pkt.layout.totalBits (pkt.layout.fieldsOf extracted) + pkt.layout.totalBits front)
        (pkt.layout.width id)) ∨
    id ∉ pkt.layout.fieldIds header ∧ pkt.Reads extracted id value := by
  cases reads with
  | @bits before after another front back last notAgain place =>
    rcases List.eq_nil_or_concat after with rfl | ⟨between, final, rfl⟩
    · obtain ⟨rfl, same⟩ := List.append_inj' last rfl
      obtain rfl := List.head_eq_of_cons_eq same
      refine .inl ⟨front, back, place, ?_⟩
      rw [Bits.read_eq, Layout.totalBits_append]
    · rw [List.concat_eq_append] at last notAgain
      rw [← List.cons_append, ← List.append_assoc] at last
      obtain ⟨rfl, same⟩ := List.append_inj' last rfl
      obtain rfl := List.head_eq_of_cons_eq same
      rw [List.mem_append, List.mem_singleton, not_or] at notAgain
      refine .inr ⟨fun own => ?_, .bits rfl notAgain.1 place⟩
      refine layout.fieldIds_disjoint notAgain.2 id ?_ id own rfl
      rw [place]
      exact List.mem_append_right _ List.mem_cons_self
  | kept untouched =>
    rw [Layout.fieldsOf_concat, List.mem_append, not_or] at untouched
    exact .inr ⟨untouched.2, .kept untouched.1⟩

end Packet.Reads

/-! ## What the cursor holds -/

namespace ParseCursor

open Packet

variable {start : Packet} {extracted : List HeaderId} {header : HeaderId} {c : ParseCursor}

/-- What a cursor holds when headers have been extracted, some of them perhaps repeatedly. -/
structure Follows (start : Packet) (extracted : List HeaderId) (c : ParseCursor) : Prop
    extends Passed start extracted c where
  reads : ∀ id value, start.Reads extracted id value → c.packet.get id = value
  distinct : extracted.Nodup → Extracted start extracted c

namespace Follows

theorem nil (start : Packet) : Follows start [] ⟨start, 0⟩ := by
  refine ⟨.nil start, ?_, fun _ => .nil start⟩
  intro id value reads
  cases reads with
  | bits last _ _ => exact absurd last (by simp)
  | kept _ => rfl

/-- A field of the packet has the value that it should have, and no other. -/
theorem reads_eq (follows : Follows start extracted c) :
    start.Reads extracted = fun id value => c.packet.get id = value := by
  funext id value
  refine propext ⟨follows.reads id value, ?_⟩
  rintro rfl
  obtain ⟨value, reads⟩ := Reads.exists_value start extracted id
  rwa [follows.reads id value reads]

/-- A header fits where the bits of all headers with it are there. -/
theorem fits_iff (follows : Follows start extracted c) (layout : start.layout.WellFormed) :
    c.fits header = true ↔
      start.layout.totalBits (start.layout.fieldsOf (extracted ++ [header])) ≤
        8 * start.data.length := by
  rw [follows.toPassed.fits_iff, follows.position, layout.headerBits_eq, Layout.fieldsOf_concat,
    Layout.totalBits_append]

/-- Extracting one more header that fits. -/
theorem extract (follows : Follows start extracted c) (layout : start.layout.WellFormed)
    (wf : start.WellFormed) (declared : header < start.layout.headers.length)
    (fits : c.fits header = true) : Follows start (extracted ++ [header]) (c.extract header) := by
  have same := follows.edits.layout_eq
  have kept := follows.edits.wellFormed wf
  refine ⟨follows.toPassed.extract layout wf declared fits, ?_, fun distinct => ?_⟩
  · intro id value reads
    rcases reads.of_concat layout with ⟨front, back, place, rfl⟩ | ⟨notOwn, before⟩
    · rw [extract_get_of_split (by rw [same]; exact layout) kept (by rw [same]; exact place), same,
        follows.edits.data_eq, follows.position]
    · rw [extract_get (by rw [same]; exact notOwn)]
      exact follows.reads id value before
  · have before := follows.distinct (List.nodup_append.mp distinct).1
    exact before.extract layout wf declared distinct fits

end Follows

end ParseCursor

/-! ## Where a state goes -/

namespace ParseState

variable {state : ParseState} {pkt : Packet} {target : Target} {id : FieldId} {value : Nat}

theorem lookup_eq_some_iff : state.transitions.lookup value = some target ↔
    ∃ front back, state.transitions = front ++ (value, target) :: back ∧ ∀ t ∈ front, t.1 ≠ value := by
  simp only [List.lookup_eq_some_iff, bne_iff_ne, ne_comm]

theorem lookup_eq_none_iff :
    state.transitions.lookup value = none ↔ ∀ t ∈ state.transitions, t.1 ≠ value := by
  simp only [List.lookup_eq_none_iff, bne_iff_ne, ne_comm]

theorem next?_of_noSelect (noSelect : state.select = none) :
    state.next? pkt = some (state.fallback.getD .accept) := by
  rw [next?, noSelect]

theorem next?_of_select (select : state.select = some id) :
    state.next? pkt = (state.transitions.lookup (pkt.get id)).or state.fallback := by
  rw [next?, select]

/-- A state goes on by the values that the fields of the packet have. -/
theorem next?_eq_some_iff :
    state.next? pkt = some target ↔ state.Goes (fun id value => pkt.get id = value) target := by
  constructor
  · intro next
    cases select : state.select with
    | none =>
      rw [next?_of_noSelect select] at next
      obtain rfl := Option.some.inj next
      exact .always select
    | some id =>
      rw [next?_of_select select] at next
      rcases Option.or_eq_some_iff.mp next with met | ⟨unmet, fallback⟩
      · obtain ⟨front, back, split, first⟩ := lookup_eq_some_iff.mp met
        exact .taken select rfl split first
      · exact .otherwise select rfl (lookup_eq_none_iff.mp unmet) fallback
  · intro goes
    cases goes with
    | always noSelect => exact next?_of_noSelect noSelect
    | taken select read split first =>
      rw [next?_of_select select, read, lookup_eq_some_iff.mpr ⟨_, _, split, first⟩, Option.some_or]
    | otherwise select read unmet fallback =>
      rw [next?_of_select select, read, lookup_eq_none_iff.mpr unmet, Option.none_or, fallback]

/-- A state goes nowhere only by a value that it does not name, and without a default. -/
theorem next?_eq_none_iff : state.next? pkt = none ↔
    ∃ id, state.select = some id ∧ (∀ t ∈ state.transitions, t.1 ≠ pkt.get id) ∧
      state.fallback = none := by
  constructor
  · intro stuck
    cases select : state.select with
    | none =>
      rw [next?_of_noSelect select] at stuck
      cases stuck
    | some id =>
      rw [next?_of_select select] at stuck
      obtain ⟨unmet, noFallback⟩ := Option.or_eq_none_iff.mp stuck
      exact ⟨id, rfl, lookup_eq_none_iff.mp unmet, noFallback⟩
  · rintro ⟨id, select, unmet, noFallback⟩
    rw [next?_of_select select, lookup_eq_none_iff.mpr unmet, noFallback, Option.none_or]

/-- A state goes on to a state that it names. -/
theorem Goes.mem_targets {reads : FieldId → Nat → Prop} {i : Nat}
    (goes : state.Goes reads (.state i)) : .state i ∈ state.targets := by
  rw [targets, List.mem_append]
  generalize aim : Target.state i = target at goes
  cases goes with
  | always noSelect =>
    cases fallback : state.fallback with
    | none =>
      rw [fallback] at aim
      cases aim
    | some target => exact .inr (Option.mem_toList.mpr rfl)
  | @taken _ value front back _ _ _ split _ =>
    have member : (value, target) ∈ state.transitions := by
      rw [split]
      exact List.mem_append_right _ List.mem_cons_self
    exact .inl (List.mem_map.mpr ⟨_, member, rfl⟩)
  | otherwise _ _ _ fallback => exact .inr (Option.mem_toList.mpr fallback)

end ParseState

/-! ## Walks and the parser -/

/-- A parse starts at a state only if there is one. -/
theorem Program.start_lt {p : Program} {i : Nat} (first : p.start = .state i) : i < p.states.length := by
  unfold start at first
  split at first
  case isTrue => cases first
  case isFalse some =>
    cases first
    exact List.length_pos_iff.mpr (by simpa using some)

/-- A packet that the program has not parsed yet. Only its metadata is valid. -/
structure Packet.Fresh (pkt : Packet) (p : Program) : Prop where
  layout : pkt.layout = p.layout
  wellFormed : pkt.WellFormed
  metadata : pkt.valid = p.layout.headers.map (·.metadata)

theorem Packet.fresh_new (p : Program) (id port : Nat) (data : Bytes) :
    (Packet.new id port data p.layout).Fresh p :=
  ⟨rfl, wellFormed_new id port data p.layout, rfl⟩

/-- What a walk stands at is there. -/
def Stand.Known (p : Program) : Stand → Prop
  | .before target => ∀ i, target = .state i → i < p.states.length
  | .within state left => state ∈ p.states ∧ ∀ header ∈ left, header < p.layout.headers.length

/-- What is left of a stand: a state counts more than the target behind it, and a header more than none. -/
def Stand.size : Stand → Nat
  | .before _ => 0
  | .within _ left => left.length + 1

namespace Walk

variable {p : Program} {pkt : Packet} {w w' : Walk} {c : ParseCursor} {error : ParserError}

/-- What the parser does from where a walk is. -/
def outcome (p : Program) (w : Walk) (c : ParseCursor) : ParserError × ParseCursor :=
  match w.stand with
  | .before target => p.walk (256 - w.entered.length) target c
  | .within state left => p.finish (256 - w.entered.length) state left c

/-- The cursor holds what the walk has extracted, and what is left to do has the outcome of the whole
parse. -/
structure Tracks (p : Program) (pkt : Packet) (w : Walk) (c : ParseCursor) : Prop where
  follows : ParseCursor.Follows pkt w.extracted c
  steps : w.entered.length ≤ 256
  known : w.stand.Known p
  outcome : w.outcome p c = p.walk Program.maxParseSteps p.start ⟨pkt, 0⟩

/-- A step uses up a state or a part of one. -/
theorem Step.shrinks (step : Step p pkt w w') :
    Prod.Lex (· < ·) (· < ·) (256 - w'.entered.length, w'.stand.size)
      (256 - w.entered.length, w.stand.size) := by
  cases step with
  | @enter entered _ i _ _ more =>
    have fewer : 256 - (entered ++ [i]).length < 256 - entered.length := by
      rw [List.length_append, List.length_singleton]
      omega
    exact .left _ _ fewer
  | extract _ => exact .right _ (Nat.lt_succ_self _)
  | go _ => exact .right _ (Nat.lt_succ_self _)

namespace Tracks

theorem start (p : Program) (pkt : Packet) : Tracks p pkt (Walk.start p) ⟨pkt, 0⟩ :=
  ⟨.nil pkt, Nat.zero_le _, fun _ => Program.start_lt, rfl⟩

section

variable (layout : p.layout.WellFormed) (resolved : p.Resolved) (fresh : pkt.Fresh p)
include layout resolved fresh

/-- One step of a walk is a step of the parser. -/
theorem step (tracks : Tracks p pkt w c) (step : Step p pkt w w') : ∃ c', Tracks p pkt w' c' := by
  obtain ⟨follows, steps, known, outcome⟩ := tracks
  have own : pkt.layout.WellFormed := by rw [fresh.layout]; exact layout
  cases step with
  | @enter entered extracted i state found more =>
    have left : 256 - entered.length = 256 - (entered.length + 1) + 1 := by omega
    refine ⟨c, follows, ?_, ⟨List.mem_of_getElem? found, ?_⟩, ?_⟩
    · rw [List.length_append, List.length_singleton]
      exact more
    · exact resolved.headers state (List.mem_of_getElem? found)
    · rw [← outcome]
      simp only [Walk.outcome, List.length_append, List.length_singleton]
      rw [left, Program.walk_state found]
  | @extract entered extracted left header state fits =>
    obtain ⟨there, declared⟩ := known
    obtain ⟨headerDeclared, leftDeclared⟩ := List.forall_mem_cons.mp declared
    have fitting := (follows.fits_iff own).mpr fits
    refine ⟨c.extract header, ?_, steps, ⟨there, leftDeclared⟩, ?_⟩
    · exact follows.extract own fresh.wellFormed (by rw [fresh.layout]; exact headerDeclared) fitting
    · rw [← outcome]
      exact (Program.finish_fits fitting).symm
  | @go entered extracted state target goes =>
    refine ⟨c, follows, steps, ?_, ?_⟩
    · rintro i rfl
      exact resolved.targets state known.1 i goes.mem_targets
    · rw [follows.reads_eq] at goes
      rw [← outcome]
      exact (Program.finish_go (ParseState.next?_eq_some_iff.mpr goes)).symm

omit layout resolved fresh in
/-- A walk that is not at its end can do a step. -/
theorem progress (tracks : Tracks p pkt w c) :
    (∃ error, w.Ends pkt error) ∨ ∃ w', Step p pkt w w' := by
  obtain ⟨follows, steps, known, -⟩ := tracks
  obtain ⟨entered, extracted, stand⟩ := w
  cases stand with
  | before target =>
    cases target with
    | accept => exact .inl ⟨_, .accept⟩
    | reject => exact .inl ⟨_, .reject⟩
    | state i =>
      have found := List.getElem?_eq_getElem (known i rfl)
      rcases Nat.lt_or_eq_of_le steps with more | spent
      · exact .inr ⟨_, .enter found more⟩
      · exact .inl ⟨_, .timeout spent⟩
  | within state left =>
    cases left with
    | cons header left =>
      rcases Nat.lt_or_ge (8 * pkt.data.length)
        (pkt.layout.totalBits (pkt.layout.fieldsOf (extracted ++ [header]))) with short | fits
      · exact .inl ⟨_, .short short⟩
      · exact .inr ⟨_, .extract fits⟩
    | nil =>
      cases next : state.next? c.packet with
      | some target =>
        have goes := ParseState.next?_eq_some_iff.mp next
        rw [← follows.reads_eq] at goes
        exact .inr ⟨_, .go goes⟩
      | none =>
        obtain ⟨id, select, unmet, noFallback⟩ := ParseState.next?_eq_none_iff.mp next
        have read : pkt.Reads extracted id (c.packet.get id) := by rw [follows.reads_eq]
        exact .inl ⟨_, .noMatch select read unmet noFallback⟩

omit resolved in
/-- A walk that ends says how the parse ends, and what it leaves. -/
theorem ends (tracks : Tracks p pkt w c) (ends : w.Ends pkt error) :
    p.walk Program.maxParseSteps p.start ⟨pkt, 0⟩ = (error, c) := by
  obtain ⟨follows, -, -, outcome⟩ := tracks
  have own : pkt.layout.WellFormed := by rw [fresh.layout]; exact layout
  rw [← outcome]
  cases ends with
  | accept => exact Program.walk_accept _ _ _
  | reject => exact Program.walk_reject _ _ _
  | @short entered extracted left header state short =>
    refine Program.finish_short fun fits => ?_
    exact Nat.not_lt.mpr ((follows.fits_iff own).mp fits) short
  | @noMatch entered extracted state id value select read unmet noFallback =>
    obtain rfl := follows.reads id value read
    exact Program.finish_stuck (ParseState.next?_eq_none_iff.mpr ⟨id, select, unmet, noFallback⟩)
  | @timeout entered extracted i spent =>
    simp only [Walk.outcome, spent]
    rfl

theorem reached (reached : Reached p pkt w) : ∃ c, Tracks p pkt w c := by
  induction reached with
  | refl => exact ⟨_, .start p pkt⟩
  | tail _ step ih =>
    obtain ⟨c, tracks⟩ := ih
    exact tracks.step layout resolved fresh step

/-- Every walk goes on to its end. -/
theorem exists_end {w : Walk} {c : ParseCursor} (tracks : Tracks p pkt w c) :
    ∃ w' error, Relation.ReflTransGen (Step p pkt) w w' ∧ w'.Ends pkt error := by
  rcases tracks.progress with ⟨error, ends⟩ | ⟨w', step⟩
  · exact ⟨w, error, .refl, ends⟩
  · have smaller := step.shrinks
    obtain ⟨c', next⟩ := tracks.step layout resolved fresh step
    obtain ⟨last, error, reached, ends⟩ := exists_end next
    exact ⟨last, error, .head step reached, ends⟩
termination_by (256 - w.entered.length, w.stand.size)
decreasing_by exact smaller

end

end Tracks

end Walk

end Switchyard
