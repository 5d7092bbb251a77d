import Mathlib.Data.List.Induction
import Switchyard.Proofs.Program.Layout

/-!
# Names that resolve

A program loads only where every name in it resolves, and a state name means the last state that has it. So
the headers that its parser states extract are declared, and the states that they go on to exist; `Declared`
says the same of all headers and fields by which a program reads and writes packets.
-/

namespace Switchyard

open Sequencing

theorem Layout.requireHeader_lt {L : Layout} {name : String} {id : HeaderId}
    (found : L.requireHeader name = .ok id) : id < L.headers.length :=
  (List.findIdx?_eq_some_iff_getElem.mp (elim_eq_ok.mp found)).1

theorem Layout.requireField_lt {L : Layout} {name : String} {id : FieldId}
    (found : L.requireField name = .ok id) : id < L.fields.length :=
  fieldId?_lt (elim_eq_ok.mp found)

/-- The targets that a state names. -/
def ParseState.targets (state : ParseState) : List Target :=
  state.transitions.map (·.2) ++ state.fallback.toList

namespace Program

variable {L : Layout} {decls : List StateDecl} {decl : StateDecl} {state : ParseState}
  {name : String} {i : Nat}

theorem getElem?_concat_eq_some {α : Type} {xs : List α} {x y : α} {k : Nat} :
    (xs ++ [x])[k]? = some y ↔ xs[k]? = some y ∨ k = xs.length ∧ x = y := by
  rcases Nat.lt_trichotomy k xs.length with below | rfl | above
  · rw [List.getElem?_append_left below]
    simp [Nat.ne_of_lt below]
  · simp
  · have outside : xs[k]? = none := List.getElem?_eq_none (Nat.le_of_lt above)
    have past : (xs ++ [x])[k]? = none := List.getElem?_eq_none (by rwa [List.length_append])
    rw [outside, past]
    simp [Nat.ne_of_gt above]

/-- The last state counts. -/
theorem stateIndex?_concat (decls : List StateDecl) (decl : StateDecl) (name : String) :
    stateIndex? (decls ++ [decl]) name =
      if decl.name = name then some decls.length else stateIndex? decls name := by
  unfold stateIndex?
  rw [List.zipIdx_append, List.zipIdx_singleton, List.reverse_append, List.reverse_singleton,
    List.singleton_append, List.find?_cons]
  by_cases same : decl.name = name
  · simp [same]
  · simp [beq_eq_false_iff_ne.mpr same, same]

theorem stateIndex?_eq_none : stateIndex? decls name = none ↔ name ∉ decls.map (·.name) := by
  induction decls using List.reverseRecOn with
  | nil => exact iff_of_true rfl List.not_mem_nil
  | append_singleton decls decl ih =>
    rw [stateIndex?_concat]
    by_cases same : decl.name = name
    · simp [same]
    · rw [if_neg same, ih]
      simp [Ne.symm same]

/-- A name stands for the last state that has it. -/
theorem stateIndex?_eq_some :
    stateIndex? decls name = some i ↔
      (decls.map (·.name))[i]? = some name ∧ ∀ j, i < j → (decls.map (·.name))[j]? ≠ some name := by
  induction decls using List.reverseRecOn with
  | nil => exact iff_of_false (fun absurd => by cases absurd) fun absurd => by cases absurd.1
  | append_singleton decls decl ih =>
    rw [stateIndex?_concat, List.map_append, List.map_singleton]
    have inside : ∀ k, (decls.map (·.name))[k]? = some name → k < decls.length := by
      intro k there
      obtain ⟨below, -⟩ := List.getElem?_eq_some_iff.mp there
      rwa [List.length_map] at below
    simp only [ne_eq, getElem?_concat_eq_some, List.length_map]
    by_cases same : decl.name = name
    · rw [if_pos same, Option.some.injEq]
      constructor
      · rintro rfl
        refine ⟨.inr ⟨rfl, same⟩, ?_⟩
        rintro j later (there | ⟨rfl, -⟩)
        · exact Nat.lt_asymm later (inside j there)
        · exact Nat.lt_irrefl _ later
      · rintro ⟨there | ⟨rfl, -⟩, last⟩
        · exact absurd (.inr ⟨rfl, same⟩) (last decls.length (inside i there))
        · rfl
    · rw [if_neg same, ih]
      simp only [same, and_false, or_false]

/-- Which state a name means, if it is no end of the parse. -/
theorem target_eq_state :
    target decls name = .ok (.state i) ↔
      name ≠ "accept" ∧ name ≠ "reject" ∧ stateIndex? decls name = some i := by
  unfold target
  by_cases accept : name = "accept"
  · rw [if_pos accept]
    exact iff_of_false (fun absurd => by cases absurd) fun absurd => absurd.1 accept
  by_cases reject : name = "reject"
  · rw [if_neg accept, if_pos reject]
    exact iff_of_false (fun absurd => by cases absurd) fun absurd => absurd.2.1 reject
  rw [if_neg accept, if_neg reject]
  cases stateIndex? decls name with
  | none => simp
  | some j => simp [accept, reject]

/-- A name that is no end of a parse means a declared state. -/
theorem target_lt (meant : target decls name = .ok (.state i)) : i < decls.length := by
  obtain ⟨there, -⟩ := stateIndex?_eq_some.mp (target_eq_state.mp meant).2.2
  obtain ⟨inside, -⟩ := List.getElem?_eq_some_iff.mp there
  rwa [List.length_map] at inside

/-- A state leads to others by their names only. -/
theorem exists_name_of_mem_targets (made : parseState L decls decl = .ok state)
    (leads : .state i ∈ state.targets) : ∃ name, target decls name = .ok (.state i) := by
  obtain ⟨extract, -, made⟩ := bind_eq_ok.mp made
  obtain ⟨select, -, made⟩ := bind_eq_ok.mp made
  obtain ⟨transitions, targets, made⟩ := bind_eq_ok.mp made
  obtain ⟨fallback, last, made⟩ := bind_eq_ok.mp made
  cases made
  rcases List.mem_append.mp leads with taken | otherwise
  · obtain ⟨⟨value, next⟩, transition, rfl⟩ := List.mem_map.mp taken
    obtain ⟨t, -, resolved⟩ := mem_of_mapM_eq_ok targets _ transition
    obtain ⟨meant, known, same⟩ := bind_eq_ok.mp resolved
    cases same
    exact ⟨t.next, known⟩
  · obtain ⟨name, -, known⟩ := eq_some_of_mapM_eq_ok last _ (Option.mem_toList.mp otherwise)
    exact ⟨name, known⟩

/-- What the states of a program refer to is there. -/
structure Resolved (p : Program) : Prop where
  headers : ∀ state ∈ p.states, ∀ header ∈ state.extract, header < p.layout.headers.length
  targets : ∀ state ∈ p.states, ∀ i, .state i ∈ state.targets → i < p.states.length

theorem parseState_resolved (made : parseState L decls decl = .ok state) :
    (∀ header ∈ state.extract, header < L.headers.length) ∧
      (∀ i, .state i ∈ state.targets → i < decls.length) ∧
      ∀ id, state.select = some id → id < L.fields.length := by
  have named : ∀ i, .state i ∈ state.targets → ∃ name, target decls name = .ok (.state i) :=
    fun _ => exists_name_of_mem_targets made
  obtain ⟨extract, headers, made⟩ := bind_eq_ok.mp made
  obtain ⟨select, field, made⟩ := bind_eq_ok.mp made
  obtain ⟨transitions, -, made⟩ := bind_eq_ok.mp made
  obtain ⟨fallback, -, made⟩ := bind_eq_ok.mp made
  cases made
  refine ⟨fun header member => ?_, fun i leads => ?_, fun id selected => ?_⟩
  · obtain ⟨name, -, found⟩ := mem_of_mapM_eq_ok headers header member
    exact Layout.requireHeader_lt found
  · obtain ⟨name, meant⟩ := named i leads
    exact target_lt meant
  · obtain ⟨name, -, found⟩ := eq_some_of_mapM_eq_ok field id selected
    exact Layout.requireField_lt found

/-- A program loads only if its names resolve. -/
theorem resolved_of_load {d : Description} {p : Program} (loaded : load d = .ok p) : p.Resolved := by
  have parser := (load_eq_ok_iff.mp loaded).states
  refine ⟨fun state member => ?_, fun state member i named => ?_⟩
  · obtain ⟨decl, -, made⟩ := mem_of_mapM_eq_ok parser state member
    exact (parseState_resolved made).1
  · obtain ⟨decl, -, made⟩ := mem_of_mapM_eq_ok parser state member
    rw [length_of_mapM_eq_ok parser]
    exact (parseState_resolved made).2.1 i named

/-- The header and the fields of a checksum rule are declared. -/
structure Covers (L : Layout) (rule : ChecksumRule) : Prop where
  header : rule.header < L.headers.length
  field : rule.field < L.fields.length
  lengthWords : ∀ id, rule.lengthWords = some id → id < L.fields.length

theorem checksumRule_covers {decl : ChecksumDecl} {rule : ChecksumRule}
    (made : checksumRule L decl = .ok rule) : Covers L rule := by
  obtain ⟨header, foundHeader, made⟩ := bind_eq_ok.mp made
  obtain ⟨field, foundField, made⟩ := bind_eq_ok.mp made
  obtain ⟨lengthWords, foundLength, made⟩ := bind_eq_ok.mp made
  cases made
  refine ⟨Layout.requireHeader_lt foundHeader, Layout.requireField_lt foundField, fun id named => ?_⟩
  obtain ⟨name, -, found⟩ := eq_some_of_mapM_eq_ok foundLength id named
  exact Layout.requireField_lt found

/-- The headers and fields by which a program reads and writes packets are declared. -/
structure Declared (p : Program) : Prop extends Resolved p where
  layout : p.layout.WellFormed
  spans : p.layout.Spans
  selects : ∀ state ∈ p.states, ∀ id, state.select = some id → id < p.layout.fields.length
  order : ∀ header ∈ p.deparseOrder, header < p.layout.headers.length
  checksums : ∀ rule ∈ p.checksums, Covers p.layout rule

theorem declared_of_load {d : Description} {p : Program} (loaded : load d = .ok p) : p.Declared := by
  have parts := load_eq_ok_iff.mp loaded
  refine ⟨resolved_of_load loaded, wellFormed_of_load loaded, Layout.ofHeaders_spans parts.layout,
    fun state member => ?_, fun header member => ?_, fun rule member => ?_⟩
  · obtain ⟨decl, -, made⟩ := mem_of_mapM_eq_ok parts.states state member
    exact (parseState_resolved made).2.2
  · obtain ⟨name, -, found⟩ := mem_of_mapM_eq_ok parts.deparseOrder header member
    exact Layout.requireHeader_lt found
  · obtain ⟨decl, -, made⟩ := mem_of_mapM_eq_ok parts.checksums rule member
    exact checksumRule_covers made

end Program

end Switchyard
