import Switchyard.Proofs.Program.Layout

/-!
# Declaring headers

A header is declared where its name is new, its fields have widths between 1 and 128, and their qualified
names are new and differ from one another; the layout is then extended by the header and its fields. So a
list of headers makes a layout exactly if the widths are right and no name is declared twice, and which
layout that is follows from the list alone.
-/

namespace Switchyard

open Sequencing

/-- The qualified names of the fields of a header. -/
def HeaderDecl.fieldNames (decl : HeaderDecl) : List String :=
  decl.fields.map fun field => Layout.qualified decl.name field.name

/-- The fields of a header have 1 to 128 bits. -/
def HeaderDecl.Wide (decl : HeaderDecl) : Prop := ∀ field ∈ decl.fields, 1 ≤ field.bits ∧ field.bits ≤ 128

namespace Layout

/-- No two headers and no two fields share a name. -/
structure Distinct (L : Layout) : Prop where
  headers : (L.headers.map (·.name)).Nodup
  fields : (L.fields.map (·.name)).Nodup

/-- The layout of a list of headers. -/
def declared (decls : List HeaderDecl) : Layout := decls.foldl extend empty

variable {L M : Layout} {decl : HeaderDecl} {decls : List HeaderDecl} {header name : String} {id : HeaderId}

theorem headerNames_extend (L : Layout) (decl : HeaderDecl) :
    (L.extend decl).headers.map (·.name) = L.headers.map (·.name) ++ [decl.name] := by
  simp [extend, declaredHeader]

theorem fieldNames_extend (L : Layout) (decl : HeaderDecl) :
    (L.extend decl).fields.map (·.name) = L.fields.map (·.name) ++ decl.fieldNames := by
  simp [extend, declaredField, HeaderDecl.fieldNames, Function.comp_def]

theorem headerNames_foldl (L : Layout) (decls : List HeaderDecl) :
    (decls.foldl extend L).headers.map (·.name) = L.headers.map (·.name) ++ decls.map (·.name) := by
  induction decls generalizing L with
  | nil => rw [List.foldl_nil, List.map_nil, List.append_nil]
  | cons decl decls ih =>
    rw [List.foldl_cons, ih, headerNames_extend, List.append_assoc, List.map_cons]
    rfl

theorem fieldNames_foldl (L : Layout) (decls : List HeaderDecl) :
    (decls.foldl extend L).fields.map (·.name) =
      L.fields.map (·.name) ++ decls.flatMap HeaderDecl.fieldNames := by
  induction decls generalizing L with
  | nil => rw [List.foldl_nil, List.flatMap_nil, List.append_nil]
  | cons decl decls ih =>
    rw [List.foldl_cons, ih, fieldNames_extend, List.append_assoc, List.flatMap_cons]

@[simp] theorem headerNames_declared (decls : List HeaderDecl) :
    (declared decls).headers.map (·.name) = decls.map (·.name) :=
  headerNames_foldl empty decls

@[simp] theorem fieldNames_declared (decls : List HeaderDecl) :
    (declared decls).fields.map (·.name) = decls.flatMap HeaderDecl.fieldNames :=
  fieldNames_foldl empty decls

/-- Where names are distinct after further headers, they are so before. -/
theorem Distinct.of_foldl (distinct : (decls.foldl extend L).Distinct) : L.Distinct := by
  obtain ⟨headers, fields⟩ := distinct
  rw [headerNames_foldl] at headers
  rw [fieldNames_foldl] at fields
  exact ⟨(List.nodup_append.mp headers).1, (List.nodup_append.mp fields).1⟩

theorem headerId?_eq_none : L.headerId? name = none ↔ name ∉ L.headers.map (·.name) := by
  simp [headerId?, List.findIdx?_eq_none_iff]

/-! ## When declarations succeed -/

theorem addField_of_fresh {decl : FieldDecl} (wide : 1 ≤ decl.bits ∧ decl.bits ≤ 128)
    (fresh : qualified header decl.name ∉ L.fields.map (·.name)) :
    addField header decl L = .ok () { L with fields := L.fields ++ [L.declaredField header decl] } := by
  have unknown : (L.fieldId? (qualified header decl.name)).isSome = false := by
    rw [fieldId?_eq_none.mpr fresh]
    rfl
  unfold addField
  rw [get_bind]
  dsimp only
  rw [if_neg (by omega), unknown]
  rfl

theorem addFields_of_fresh {decls : List FieldDecl} (wide : ∀ decl ∈ decls, 1 ≤ decl.bits ∧ decl.bits ≤ 128)
    (distinct : (L.fields.map (·.name) ++ decls.map fun decl => qualified header decl.name).Nodup) :
    decls.forM (addField header) L =
      .ok () { L with fields := L.fields ++ decls.map (L.declaredField header) } := by
  induction decls generalizing L with
  | nil =>
    rw [List.map_nil, List.append_nil]
    rfl
  | cons decl decls ih =>
    obtain ⟨own, others⟩ := List.forall_mem_cons.mp wide
    have fresh : qualified header decl.name ∉ L.fields.map (·.name) := by
      intro taken
      exact (List.nodup_append.mp distinct).2.2 _ taken _ List.mem_cons_self rfl
    have rest := ih (L := { L with fields := L.fields ++ [L.declaredField header decl] }) others (by
      rw [List.map_append, List.append_assoc]
      exact distinct)
    rw [List.forM_eq_forM, List.forM_cons, state_bind_of_ok (addField_of_fresh own fresh)]
    rw [List.append_assoc] at rest
    exact rest

/-- A header that is declared has a new name. -/
theorem fresh_of_addHeader (added : addHeader decl L = .ok id M) :
    id = L.headers.length ∧ decl.name ∉ L.headers.map (·.name) := by
  have rest := get_bind_eq_ok.mp added
  split at rest
  case isTrue => cases rest
  case isFalse fresh =>
    obtain ⟨_, K, fields, rest⟩ := state_bind_eq_ok.mp rest
    obtain ⟨-, -, rfl⟩ := addFields_ok fields
    refine ⟨(EStateM.Result.ok.inj rest).1.symm, headerId?_eq_none.mp ?_⟩
    simpa using fresh

/-- A header is declared exactly where its fields have right widths and all names stay distinct. -/
theorem addHeader_eq_ok_iff (distinct : L.Distinct) :
    addHeader decl L = .ok id M ↔
      (decl.Wide ∧ (L.extend decl).Distinct) ∧ id = L.headers.length ∧ M = L.extend decl := by
  constructor
  · intro added
    obtain ⟨wide, named, rfl⟩ := addHeader_ok added
    obtain ⟨position, fresh⟩ := fresh_of_addHeader added
    refine ⟨⟨wide, ?_, named distinct.fields⟩, position, rfl⟩
    rw [headerNames_extend]
    refine List.nodup_append.mpr ⟨distinct.headers, List.pairwise_singleton _ _, ?_⟩
    rintro _ old _ new rfl
    rw [List.mem_singleton.mp new] at old
    exact fresh old
  · rintro ⟨⟨wide, further⟩, rfl, rfl⟩
    obtain ⟨headers, fields⟩ := further
    rw [headerNames_extend] at headers
    rw [fieldNames_extend] at fields
    have fresh : decl.name ∉ L.headers.map (·.name) := by
      intro taken
      exact (List.nodup_append.mp headers).2.2 _ taken _ List.mem_cons_self rfl
    have unknown : (L.headerId? decl.name).isSome = false := by
      rw [headerId?_eq_none.mpr fresh]
      rfl
    have added := addFields_of_fresh wide fields
    unfold addHeader
    rw [get_bind]
    dsimp only
    rw [unknown, if_neg Bool.false_ne_true, state_bind_of_ok added]
    rfl

/-- Headers are declared one after another exactly where all have right widths and all names are distinct in
the end. -/
theorem addHeaders_eq_ok_iff (distinct : L.Distinct) :
    (decls.forM fun decl => do let _ ← addHeader decl) L = .ok () M ↔
      ((∀ decl ∈ decls, decl.Wide) ∧ (decls.foldl extend L).Distinct) ∧ M = decls.foldl extend L := by
  induction decls generalizing L with
  | nil =>
    show EStateM.Result.ok () L = .ok () M ↔ _
    simp [distinct, eq_comm]
  | cons decl decls ih =>
    rw [List.forM_eq_forM, List.forM_cons, state_bind_eq_ok, List.forall_mem_cons, List.foldl_cons]
    constructor
    · rintro ⟨_, K, first, rest⟩
      obtain ⟨id, K', added, same⟩ := state_bind_eq_ok.mp first
      obtain ⟨-, rfl⟩ := state_pure_eq_ok.mp same
      obtain ⟨⟨wide, further⟩, -, rfl⟩ := (addHeader_eq_ok_iff distinct).mp added
      obtain ⟨⟨others, last⟩, rfl⟩ := (ih further).mp rest
      exact ⟨⟨⟨wide, others⟩, last⟩, rfl⟩
    · rintro ⟨⟨⟨wide, others⟩, last⟩, rfl⟩
      have further := last.of_foldl
      have added := (addHeader_eq_ok_iff distinct).mpr ⟨⟨wide, further⟩, rfl, rfl⟩
      have rest := (ih further).mpr ⟨⟨others, last⟩, rfl⟩
      exact ⟨(), _, state_bind_eq_ok.mpr ⟨_, _, added, rfl⟩, rest⟩

/-- When a list of headers makes a layout, and which. -/
theorem ofHeaders_eq_ok_iff :
    ofHeaders decls = .ok L ↔
      ((∀ decl ∈ decls, decl.Wide) ∧ (decls.map (·.name)).Nodup ∧
        (decls.flatMap HeaderDecl.fieldNames).Nodup) ∧ L = declared decls := by
  have start : empty.Distinct := ⟨List.nodup_nil, List.nodup_nil⟩
  have names : (declared decls).Distinct ↔
      (decls.map (·.name)).Nodup ∧ (decls.flatMap HeaderDecl.fieldNames).Nodup := by
    rw [← headerNames_declared, ← fieldNames_declared]
    exact ⟨fun distinct => ⟨distinct.headers, distinct.fields⟩, fun ⟨headers, fields⟩ => ⟨headers, fields⟩⟩
  rw [← names]
  refine Iff.trans ?_ (addHeaders_eq_ok_iff start)
  unfold ofHeaders
  cases (decls.forM fun decl => do let _ ← addHeader decl) empty with
  | ok u M => simp
  | error e M => simp

end Layout

end Switchyard
