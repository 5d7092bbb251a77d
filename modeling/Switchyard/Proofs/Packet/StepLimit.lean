import Mathlib.Data.List.Chain
import Mathlib.Data.List.Perm.Subperm
import Mathlib.Logic.Relation
import Switchyard.Proofs.Packet.Walk

/-!
# The limit on parser steps

A parse is cut off when it has entered as many states as it may and is about to enter one more. If there are no
more states than that, one of them comes twice, so the parse has gone round in a cycle of the parse graph. Where
no cycle can be come to, no packet is cut off.
-/

namespace Switchyard

open Sequencing

namespace Program

/-- An edge of the parse graph: a state names another one in a transition or as its default. -/
def Edge (p : Program) (i j : Nat) : Prop :=
  ∃ state, p.states[i]? = some state ∧ .state j ∈ state.targets

/-- No state that can be come to from the first one leads back to itself. -/
def Acyclic (p : Program) : Prop :=
  ∀ i, Relation.ReflTransGen p.Edge 0 i → ¬Relation.TransGen p.Edge i i

/-- The parse of a packet passes through the states, first to last, and then stands before a target. -/
inductive Enters (p : Program) (pkt : Packet) : List Nat → Target → ParseCursor → Prop where
  | start : Enters p pkt [] p.start ⟨pkt, 0⟩
  | enter {entered : List Nat} {i : Nat} {state : ParseState} {target : Target} {c c' : ParseCursor}
      (before : Enters p pkt entered (.state i) c) (known : p.states[i]? = some state)
      (extracted : c.extractAll state.extract = (c', true))
      (goes : state.next? c'.packet = some target) : Enters p pkt (entered ++ [i]) target c'

variable {p : Program} {pkt : Packet} {entered : List Nat} {i : Nat} {target : Target}
  {c last : ParseCursor} {steps : Nat}

/-! ## How a parse is cut off -/

/-- A state that lets the parse go on takes one step of it. -/
theorem walk_enter {state : ParseState} {c' : ParseCursor} (known : p.states[i]? = some state)
    (extracted : c.extractAll state.extract = (c', true)) (goes : state.next? c'.packet = some target) :
    p.walk (steps + 1) (.state i) c = p.walk steps target c' := by
  rw [walk]
  simp only [known, extracted, goes]

/-- What is left of a parse when it has entered some states has the outcome of the whole. -/
theorem Enters.walk_eq (enters : p.Enters pkt entered target c) :
    p.walk steps target c = p.walk (steps + entered.length) p.start ⟨pkt, 0⟩ := by
  induction enters generalizing steps with
  | start => rfl
  | enter _ known extracted goes ih =>
    rw [← walk_enter known extracted goes, ih, List.length_append, List.length_singleton]
    congr 1
    omega

/-- A parse that is cut off has used up its steps, and stands before a state. -/
theorem Enters.exists_of_timeout (enters : p.Enters pkt entered target c)
    (cut : p.walk steps target c = (.parserTimeout, last)) :
    ∃ more j, p.Enters pkt (entered ++ more) (.state j) last ∧ more.length = steps := by
  induction steps generalizing entered target c with
  | zero =>
    cases target with
    | state j =>
      cases cut
      exact ⟨[], j, by rwa [List.append_nil], rfl⟩
    | accept | reject => cases cut
  | succ steps ih =>
    cases target with
    | accept | reject => cases cut
    | state j =>
      -- only a state that is there, whose headers all fit and that has a way to go, is passed
      rw [walk] at cut
      split at cut
      case h_1 => cases cut
      case h_2 state known =>
        split at cut
        case h_1 => cases cut
        case h_2 c' extracted =>
          split at cut
          case h_1 => cases cut
          case h_2 next goes =>
            obtain ⟨more, k, further, counted⟩ := ih (.enter enters known extracted goes) cut
            rw [List.append_assoc] at further
            exact ⟨[j] ++ more, k, further, by rw [← counted, List.singleton_append, List.length_cons]⟩

theorem parserError_parse (p : Program) (pkt : Packet) :
    (p.parse pkt).parserError = (p.walk maxParseSteps p.start ⟨pkt, 0⟩).1 := rfl

/-- A parse is cut off exactly if it has entered 256 states and is about to enter another one. -/
theorem parserTimeout_iff : (p.parse pkt).parserError = .parserTimeout ↔
    ∃ entered i c, p.Enters pkt entered (.state i) c ∧ entered.length = 256 := by
  rw [parserError_parse]
  constructor
  · intro cut
    obtain ⟨entered, i, enters, spent⟩ := Enters.start.exists_of_timeout (Prod.ext cut rfl)
    exact ⟨entered, i, _, enters, spent⟩
  · rintro ⟨entered, i, c, enters, spent⟩
    have rest : p.walk 0 (.state i) c = p.walk (0 + entered.length) p.start ⟨pkt, 0⟩ := enters.walk_eq
    rw [spent] at rest
    show (p.walk (0 + 256) p.start ⟨pkt, 0⟩).1 = _
    rw [← rest]
    rfl

/-! ## The states that a parse enters -/

/-- The states follow the edges of the parse graph, from the first state on. -/
theorem Enters.follows_edges (enters : p.Enters pkt entered target c) (next : target = .state i) :
    (entered ++ [i]).IsChain p.Edge ∧ (entered ++ [i]).head? = some 0 := by
  induction enters generalizing i with
  | start =>
    unfold Program.start at next
    split at next
    case isTrue => cases next
    case isFalse =>
      cases next
      exact ⟨.singleton 0, rfl⟩
  | @enter entered j state target c c' _ known _ goes ih =>
    subst next
    obtain ⟨chain, first⟩ := ih rfl
    have edge : p.Edge j i := ⟨state, known, (ParseState.next?_eq_some_iff.mp goes).mem_targets⟩
    refine ⟨List.isChain_append.mpr ⟨chain, .singleton i, ?_⟩, ?_⟩
    · rintro x last y ⟨⟩
      rw [List.getLast?_concat] at last
      cases last
      exact edge
    · rw [List.head?_append, first, Option.some_or]

/-- All of them are there. -/
theorem Enters.lt_length (resolved : p.Resolved) (enters : p.Enters pkt entered target c)
    (next : target = .state i) : ∀ j ∈ entered ++ [i], j < p.states.length := by
  induction enters generalizing i with
  | start => exact List.forall_mem_singleton.mpr (start_lt next)
  | @enter entered j state target c c' _ known _ goes ih =>
    subst next
    refine List.forall_mem_append.mpr ⟨ih rfl, List.forall_mem_singleton.mpr ?_⟩
    exact resolved.targets state (List.mem_of_getElem? known) i
      (ParseState.next?_eq_some_iff.mp goes).mem_targets

/-- More entries than there are states: one comes twice. -/
theorem Enters.not_nodup (resolved : p.Resolved) (enters : p.Enters pkt entered (.state i) c)
    (many : p.states.length ≤ entered.length) : ¬(entered ++ [i]).Nodup := by
  intro distinct
  have inside : entered ++ [i] ⊆ List.range p.states.length :=
    fun j member => List.mem_range.mpr (enters.lt_length resolved rfl j member)
  have fewer := (distinct.subperm inside).length_le
  rw [List.length_append, List.length_singleton, List.length_range] at fewer
  omega

/-- In a graph without cycles, no state comes twice. -/
theorem Enters.nodup (acyclic : p.Acyclic) (enters : p.Enters pkt entered (.state i) c) :
    (entered ++ [i]).Nodup := by
  obtain ⟨chain, first⟩ := enters.follows_edges rfl
  have ahead := (chain.imp fun _ _ edge => Relation.TransGen.single edge).pairwise
  generalize entered ++ [i] = visited at ahead first
  cases visited with
  | nil => exact List.nodup_nil
  | cons start rest =>
    cases first
    have fromFirst : ∀ j ∈ 0 :: rest, Relation.ReflTransGen p.Edge 0 j := by
      refine List.forall_mem_cons.mpr ⟨.refl, fun j member => ?_⟩
      exact (List.rel_of_pairwise_cons ahead member).to_reflTransGen
    refine ahead.imp_of_mem fun {j k} member _ leads => ?_
    rintro rfl
    exact acyclic j (fromFirst j member) leads

/-- A program in which states only lead to later ones has no cycles. -/
theorem acyclic_of_forward (forward : ∀ i j, p.Edge i j → i < j) : p.Acyclic := by
  have later {i j : Nat} (leads : Relation.TransGen p.Edge i j) : i < j := by
    induction leads with
    | single edge => exact forward _ _ edge
    | tail _ edge ih => exact Nat.lt_trans ih (forward _ _ edge)
  exact fun i _ back => Nat.lt_irrefl i (later back)

/-- A program has a state for each one declared. -/
theorem length_states_of_load {d : Description} (loaded : load d = .ok p) :
    p.states.length = d.parser.length :=
  length_of_mapM_eq_ok (load_eq_ok_iff.mp loaded).states

/-- The limit on steps stops cycles only. A program with at most 256 parser states, none of which can be come to
and leads back to itself, cuts no packet off. Any program with so many states cuts a packet off just when the
parse has entered 256 states and is about to enter another one, and then one of these has come twice. -/
theorem parserTimeout_only_in_cycles {d : Description} (loaded : load d = .ok p)
    (few : d.parser.length ≤ 256) :
    (p.Acyclic → ∀ pkt, (p.parse pkt).parserError ≠ .parserTimeout) ∧
    ∀ pkt, ((p.parse pkt).parserError = .parserTimeout ↔
        ∃ entered i c, p.Enters pkt entered (.state i) c ∧ entered.length = 256) ∧
      ∀ entered i c, p.Enters pkt entered (.state i) c → entered.length = 256 →
        ¬(entered ++ [i]).Nodup := by
  have resolved := resolved_of_load loaded
  have repeats {pkt : Packet} {entered : List Nat} {i : Nat} {c : ParseCursor}
      (enters : p.Enters pkt entered (.state i) c) (spent : entered.length = 256) :
      ¬(entered ++ [i]).Nodup := by
    refine enters.not_nodup resolved ?_
    rw [length_states_of_load loaded, spent]
    exact few
  refine ⟨fun acyclic pkt cut => ?_, fun pkt => ⟨parserTimeout_iff, fun _ _ _ => repeats⟩⟩
  obtain ⟨entered, i, c, enters, spent⟩ := parserTimeout_iff.mp cut
  exact repeats enters spent (enters.nodup acyclic)

/-- Two states that go on to each other. -/
def ring : Description where
  name := none
  headers := []
  parser := [⟨"ping", [], none, [], some "pong"⟩, ⟨"pong", [], none, [], some "ping"⟩]
  deparser := []
  tables := []
  checksums := []

/-- The program of the ring. -/
def ringProgram : Program where
  description := ring
  layout := ⟨[], []⟩
  states := [⟨[], none, [], some (.state 1)⟩, ⟨[], none, [], some (.state 0)⟩]
  deparseOrder := []
  checksums := []
  tables := ⟨[]⟩

/-- Two ways that part by a tag and meet again. -/
def diamond : Description where
  name := none
  headers := [⟨"tag", false, [⟨"kind", 8⟩]⟩]
  parser := [⟨"tag", ["tag"], some "tag.kind", [⟨1, "left"⟩], some "right"⟩,
    ⟨"left", [], none, [], some "last"⟩, ⟨"right", ["tag"], none, [], some "last"⟩,
    ⟨"last", [], some "tag.kind", [⟨7, "reject"⟩], none⟩]
  deparser := ["tag"]
  tables := []
  checksums := []

/-- The program of the two ways. -/
def diamondProgram : Program where
  description := diamond
  layout := ⟨[⟨"tag", false, 0, 1, 8⟩], [⟨"tag.kind", 0, 8⟩]⟩
  states := [⟨[0], some 0, [(1, .state 1)], some (.state 2)⟩, ⟨[], none, [], some (.state 3)⟩,
    ⟨[0], none, [], some (.state 3)⟩, ⟨[], some 0, [(7, .reject)], none⟩]
  deparseOrder := [0]
  checksums := []
  tables := ⟨[]⟩

/-- The ring cuts every packet off that it is asked to parse, after both states have been entered again and
again; where ways only part and meet, no packet is cut off. -/
theorem parserTimeout_only_in_cycles_ring :
    (load ring = .ok ringProgram ∧ ∀ pkt, ∃ entered i c, ringProgram.Enters pkt entered (.state i) c ∧
      entered.length = 256 ∧ ¬(entered ++ [i]).Nodup) ∧
    load diamond = .ok diamondProgram ∧ diamondProgram.Acyclic ∧
      ∀ pkt, (diamondProgram.parse pkt).parserError ≠ .parserTimeout := by
  have loaded : load diamond = .ok diamondProgram := rfl
  have forward : ∀ state ∈ diamondProgram.states.zipIdx, ∀ j < 4, .state j ∈ state.1.targets → state.2 < j := by
    decide
  have acyclic : diamondProgram.Acyclic := by
    refine acyclic_of_forward fun i j => ?_
    rintro ⟨state, known, named⟩
    refine forward (state, i) (List.mem_zipIdx_iff_getElem?.mpr known) j ?_ named
    exact (resolved_of_load loaded).targets state (List.mem_of_getElem? known) j named
  refine ⟨⟨rfl, fun pkt => ?_⟩, loaded, acyclic, ?_⟩
  · obtain ⟨cutOff, repeats⟩ := (parserTimeout_only_in_cycles (d := ring) rfl (by decide)).2 pkt
    obtain ⟨entered, i, c, enters, spent⟩ := cutOff.mp rfl
    exact ⟨entered, i, c, enters, spent, repeats entered i c enters spent⟩
  · exact (parserTimeout_only_in_cycles loaded (by decide)).1 acyclic

end Program

end Switchyard
