import Switchyard.Program
import Switchyard.Proofs.Sequencing

/-!
# Well-formed layouts

Declaring headers keeps a layout well-formed: every width is between 1 and 128, no two fields share a
name, and the headers own stretches of fields that follow one another without overlap and are as wide
as the headers say. Loading makes each part of a program from its part of the description, so the layout of
every program that loads is well-formed.
-/

namespace Switchyard

/-- Where no two elements share a key, a key stands for the one position that has it. -/
theorem findIdx?_key_eq_some {α : Type} {key : α → String} {xs : List α} {name : String} {i : Nat}
    (distinct : (xs.map key).Nodup) :
    xs.findIdx? (fun x => key x == name) = some i ↔ (xs.map key)[i]? = some name := by
  rw [List.getElem?_map]
  constructor
  · intro found
    obtain ⟨inside, same, -⟩ := List.findIdx?_eq_some_iff_getElem.mp found
    rw [List.getElem?_eq_getElem inside, Option.map_some, eq_of_beq same]
  · intro has
    obtain ⟨x, found, same⟩ := Option.map_eq_some_iff.mp has
    obtain ⟨inside, rfl⟩ := List.getElem?_eq_some_iff.mp found
    refine List.findIdx?_eq_some_iff_getElem.mpr ⟨inside, beq_iff_eq.mpr same, ?_⟩
    intro j earlier sameKey
    have different := List.pairwise_iff_getElem.mp distinct j i
      (by rw [List.length_map]; exact Nat.lt_trans earlier inside)
      (by rw [List.length_map]; exact inside) earlier
    rw [List.getElem_map, List.getElem_map, same] at different
    exact different (eq_of_beq sameKey)

namespace Layout

/-- The number of bits of the given fields together. -/
def totalBits (L : Layout) (ids : List FieldId) : Nat :=
  ids.foldr (fun id total => L.width id + total) 0

/-- What declarations establish and keep. -/
structure WellFormed (L : Layout) : Prop where
  widths : ∀ f ∈ L.fields, 1 ≤ f.bits ∧ f.bits ≤ 128
  named : (L.fields.map (·.name)).Nodup
  inRange : ∀ h ∈ L.headers, ∀ id : Nat, id ∈ List.range' h.first h.count → id < L.fields.length
  ordered : L.headers.Pairwise fun g h => ∀ i j : Nat,
    i ∈ List.range' g.first g.count → j ∈ List.range' h.first h.count → i < j
  bits : ∀ h ∈ L.headers, h.bits = L.totalBits (List.range' h.first h.count)

/-- The field that a declaration adds to a layout. -/
def declaredField (L : Layout) (header : String) (decl : FieldDecl) : Field :=
  { name := qualified header decl.name, header := L.headers.length, bits := decl.bits }

/-- The header that a declaration adds to a layout. -/
def declaredHeader (L : Layout) (decl : HeaderDecl) : Header :=
  { name := decl.name
    metadata := decl.metadata
    first := L.fields.length
    count := decl.fields.length
    bits := decl.bits }

/-- The layout with one more header. -/
def extend (L : Layout) (decl : HeaderDecl) : Layout :=
  ⟨L.headers ++ [L.declaredHeader decl], L.fields ++ decl.fields.map (L.declaredField decl.name)⟩

@[simp] theorem totalBits_nil (L : Layout) : L.totalBits [] = 0 := rfl

@[simp] theorem totalBits_cons (L : Layout) (id : FieldId) (ids : List FieldId) :
    L.totalBits (id :: ids) = L.width id + L.totalBits ids := rfl

theorem totalBits_append (L : Layout) (front back : List FieldId) :
    L.totalBits (front ++ back) = L.totalBits front + L.totalBits back := by
  induction front with
  | nil => simp
  | cons id front ih => rw [List.cons_append, totalBits_cons, totalBits_cons, ih, Nat.add_assoc]

theorem totalBits_congr {L M : Layout} {ids : List FieldId}
    (same : ∀ id ∈ ids, L.width id = M.width id) : L.totalBits ids = M.totalBits ids := by
  induction ids with
  | nil => rfl
  | cons id ids ih =>
    rw [totalBits_cons, totalBits_cons, same id List.mem_cons_self,
      ih fun other member => same other (List.mem_cons_of_mem _ member)]

theorem width_of_get {L : Layout} {id : FieldId} {f : Field} (found : L.fields[id]? = some f) :
    L.width id = f.bits := by
  rw [width, found, Option.map_some, Option.getD_some]

/-- A declared field has 1 to 128 bits. -/
theorem WellFormed.width_bounds {L : Layout} (wf : L.WellFormed) {id : FieldId}
    (declared : id < L.fields.length) : 1 ≤ L.width id ∧ L.width id ≤ 128 := by
  have found := List.getElem?_eq_getElem declared
  rw [width_of_get found]
  exact wf.widths _ (List.getElem_mem declared)

theorem WellFormed.width_pos {L : Layout} (wf : L.WellFormed) {id : FieldId}
    (declared : id < L.fields.length) : 1 ≤ L.width id :=
  (wf.width_bounds declared).1

theorem fieldId?_lt {L : Layout} {name : String} {id : FieldId}
    (found : L.fieldId? name = some id) : id < L.fields.length :=
  (List.findIdx?_eq_some_iff_getElem.mp found).1

/-- Different names are different fields. -/
theorem fieldId?_ne {L : Layout} {name other : String} {id otherId : FieldId}
    (found : L.fieldId? name = some id) (otherFound : L.fieldId? other = some otherId)
    (different : name ≠ other) : id ≠ otherId := by
  rintro rfl
  obtain ⟨_, named, -⟩ := List.findIdx?_eq_some_iff_getElem.mp found
  obtain ⟨_, otherNamed, -⟩ := List.findIdx?_eq_some_iff_getElem.mp otherFound
  exact different ((eq_of_beq named).symm.trans (eq_of_beq otherNamed))

theorem fieldId?_eq_none {L : Layout} {name : String} :
    L.fieldId? name = none ↔ name ∉ L.fields.map (·.name) := by
  simp [fieldId?, List.findIdx?_eq_none_iff]

/-- Where names are not shared, a name stands for the field that has it. -/
theorem WellFormed.fieldId?_eq_some {L : Layout} (wf : L.WellFormed) {name : String} {id : FieldId} :
    L.fieldId? name = some id ↔ L.fields[id]?.map (·.name) = some name := by
  rw [← List.getElem?_map]
  exact findIdx?_key_eq_some wf.named

/-- The fields of some headers, one header after another. -/
def fieldsOf (L : Layout) (headers : List HeaderId) : List FieldId := headers.flatMap L.fieldIds

theorem fieldsOf_append (L : Layout) (front back : List HeaderId) :
    L.fieldsOf (front ++ back) = L.fieldsOf front ++ L.fieldsOf back :=
  List.flatMap_append

theorem fieldsOf_cons (L : Layout) (header : HeaderId) (headers : List HeaderId) :
    L.fieldsOf (header :: headers) = L.fieldIds header ++ L.fieldsOf headers :=
  List.flatMap_cons

theorem fieldsOf_concat (L : Layout) (headers : List HeaderId) (header : HeaderId) :
    L.fieldsOf (headers ++ [header]) = L.fieldsOf headers ++ L.fieldIds header := by
  rw [fieldsOf_append, fieldsOf, fieldsOf, List.flatMap_cons, List.flatMap_nil, List.append_nil]

theorem fieldIds_nodup (L : Layout) (header : HeaderId) : (L.fieldIds header).Nodup := by
  unfold fieldIds
  split
  · exact List.nodup_range'
  · exact List.nodup_nil

/-- Among the fields of the headers, one field stands at a bit position and is so many bits wide. -/
def Places (L : Layout) (headers : List HeaderId) (id : FieldId) (position width : Nat) : Prop :=
  ∃ front back, L.fieldsOf headers = front ++ id :: back ∧ L.totalBits front = position ∧
    L.width id = width

/-- Further headers do not move a field. -/
theorem Places.append {L : Layout} {headers : List HeaderId} {id : FieldId} {position width : Nat}
    (places : L.Places headers id position width) (rest : List HeaderId) :
    L.Places (headers ++ rest) id position width := by
  obtain ⟨front, back, split, before, wide⟩ := places
  refine ⟨front, back ++ L.fieldsOf rest, ?_, before, wide⟩
  rw [fieldsOf_append, split, List.append_assoc, List.cons_append]

namespace WellFormed

variable {L : Layout} {header another : HeaderId}

theorem headerBits_eq (wf : L.WellFormed) (header : HeaderId) :
    L.headerBits header = L.totalBits (L.fieldIds header) := by
  unfold headerBits fieldIds
  cases found : L.headers[header]? with
  | none => rfl
  | some h => exact wf.bits h (List.mem_of_getElem? found)

theorem fieldIds_lt (wf : L.WellFormed) : ∀ id : Nat, id ∈ L.fieldIds header → id < L.fields.length := by
  intro id member
  unfold fieldIds at member
  split at member
  case h_1 h found => exact wf.inRange h (List.mem_of_getElem? found) id member
  case h_2 => contradiction

/-- Headers that are declared earlier have the earlier fields. -/
theorem fieldIds_ordered (wf : L.WellFormed) (earlier : header < another) :
    ∀ i j : Nat, i ∈ L.fieldIds header → j ∈ L.fieldIds another → i < j := by
  intro i j inHeader inAnother
  unfold fieldIds at inHeader inAnother
  split at inHeader
  case h_2 => contradiction
  case h_1 g gFound =>
    split at inAnother
    case h_2 => contradiction
    case h_1 h hFound =>
      obtain ⟨gDeclared, rfl⟩ := List.getElem?_eq_some_iff.mp gFound
      obtain ⟨hDeclared, rfl⟩ := List.getElem?_eq_some_iff.mp hFound
      have ordered := List.pairwise_iff_getElem.mp wf.ordered
      exact ordered header another gDeclared hDeclared earlier i j inHeader inAnother

/-- Different headers have different fields. -/
theorem fieldIds_disjoint (wf : L.WellFormed) (different : header ≠ another) :
    ∀ i ∈ L.fieldIds header, ∀ j ∈ L.fieldIds another, i ≠ j := by
  rintro i inHeader _ inAnother rfl
  rcases Nat.lt_or_gt_of_ne different with earlier | later
  · exact Nat.lt_irrefl _ (wf.fieldIds_ordered earlier i i inHeader inAnother)
  · exact Nat.lt_irrefl _ (wf.fieldIds_ordered later i i inAnother inHeader)

theorem fieldsOf_nodup (wf : L.WellFormed) {headers : List HeaderId} (distinct : headers.Nodup) :
    (L.fieldsOf headers).Nodup := by
  refine List.pairwise_flatMap.mpr ⟨?_, ?_⟩
  · intro header _
    exact L.fieldIds_nodup header
  · exact distinct.imp fun different => wf.fieldIds_disjoint different

end WellFormed

/-! ## Declarations -/

open Sequencing

theorem addField_ok {header : String} {decl : FieldDecl} {L M : Layout}
    (added : addField header decl L = .ok () M) :
    (1 ≤ decl.bits ∧ decl.bits ≤ 128) ∧ L.fieldId? (qualified header decl.name) = none ∧
      M = { L with fields := L.fields ++ [L.declaredField header decl] } := by
  replace added := get_bind_eq_ok.mp added
  split at added
  case isTrue => contradiction
  case isFalse wide =>
    split at added
    case isTrue => contradiction
    case isFalse fresh =>
      obtain rfl := (EStateM.Result.ok.inj added).2
      exact ⟨by omega, by simpa using fresh, rfl⟩

theorem addFields_ok {header : String} {decls : List FieldDecl} {L M : Layout}
    (added : decls.forM (addField header) L = .ok () M) :
    (∀ decl ∈ decls, 1 ≤ decl.bits ∧ decl.bits ≤ 128) ∧
      ((L.fields.map (·.name)).Nodup → (M.fields.map (·.name)).Nodup) ∧
      M = { L with fields := L.fields ++ decls.map (L.declaredField header) } := by
  induction decls generalizing L with
  | nil =>
    obtain rfl := (EStateM.Result.ok.inj added).2
    simp
  | cons decl decls ih =>
    obtain ⟨_, N, first, rest⟩ := state_bind_eq_ok.mp added
    obtain ⟨wide, fresh, rfl⟩ := addField_ok first
    obtain ⟨others, named, rfl⟩ := ih rest
    refine ⟨?_, ?_, ?_⟩
    · intro d member
      rcases List.mem_cons.mp member with rfl | member
      · exact wide
      · exact others d member
    · intro distinct
      apply named
      rw [List.map_append, List.map_singleton]
      refine List.nodup_append.mpr ⟨distinct, List.pairwise_singleton _ _, ?_⟩
      rintro _ old _ new rfl
      rw [List.mem_singleton.mp new] at old
      exact fieldId?_eq_none.mp fresh old
    · simp [declaredField]

theorem addHeader_ok {decl : HeaderDecl} {id : HeaderId} {L M : Layout}
    (added : addHeader decl L = .ok id M) :
    (∀ field ∈ decl.fields, 1 ≤ field.bits ∧ field.bits ≤ 128) ∧
      ((L.fields.map (·.name)).Nodup → (M.fields.map (·.name)).Nodup) ∧
      M = ⟨L.headers ++ [L.declaredHeader decl],
        L.fields ++ decl.fields.map (L.declaredField decl.name)⟩ := by
  replace added := get_bind_eq_ok.mp added
  split at added
  case isTrue => contradiction
  case isFalse =>
    obtain ⟨_, K, fields, rest⟩ := state_bind_eq_ok.mp added
    obtain ⟨wide, named, rfl⟩ := addFields_ok fields
    obtain rfl := (EStateM.Result.ok.inj rest).2
    exact ⟨wide, named, rfl⟩

/-- The fields that a declaration adds are as wide together as the declaration says. -/
theorem totalBits_declared {L : Layout} {header : HeaderId} {pre : List Field}
    (decls : List FieldDecl) (name : String)
    (fields : L.fields = pre ++ decls.map fun d => ⟨qualified name d.name, header, d.bits⟩) :
    L.totalBits (List.range' pre.length decls.length) =
      decls.foldr (fun d total => d.bits + total) 0 := by
  induction decls generalizing pre with
  | nil => rfl
  | cons d decls ih =>
    have found : L.fields[pre.length]? = some ⟨qualified name d.name, header, d.bits⟩ := by
      rw [fields]
      simp
    have extended : L.fields = (pre ++ [⟨qualified name d.name, header, d.bits⟩]) ++
        decls.map fun d => ⟨qualified name d.name, header, d.bits⟩ := by
      simp [fields]
    have rest := ih extended
    rw [List.length_append, List.length_singleton] at rest
    rw [List.length_cons, List.range'_succ, totalBits_cons, width_of_get found, rest,
      List.foldr_cons]

theorem WellFormed.addHeader {decl : HeaderDecl} {id : HeaderId} {L M : Layout}
    (wf : L.WellFormed) (added : addHeader decl L = .ok id M) : M.WellFormed := by
  obtain ⟨wide, named, rfl⟩ := addHeader_ok added
  have kept : ∀ id < L.fields.length, ∀ back : List Field,
      L.width id = Layout.width ⟨L.headers ++ [L.declaredHeader decl], L.fields ++ back⟩ id := by
    intro id below back
    simp only [width, List.getElem?_append_left below]
  refine ⟨?_, named wf.named, ?_, ?_, ?_⟩
  · intro f member
    rcases List.mem_append.mp member with old | new
    · exact wf.widths f old
    · obtain ⟨d, declared, rfl⟩ := List.mem_map.mp new
      exact wide d declared
  · intro h member id inside
    rw [List.length_append]
    rcases List.mem_append.mp member with old | new
    · exact Nat.lt_add_right _ (wf.inRange h old id inside)
    · rw [List.mem_singleton.mp new] at inside
      rw [List.length_map]
      exact (List.mem_range'_1.mp inside).2
  · refine List.pairwise_append.mpr ⟨wf.ordered, List.pairwise_singleton _ _, ?_⟩
    intro g old h new i j inOld inNew
    rw [List.mem_singleton.mp new] at inNew
    exact Nat.lt_of_lt_of_le (wf.inRange g old i inOld) (List.mem_range'_1.mp inNew).1
  · intro h member
    rcases List.mem_append.mp member with old | new
    · rw [wf.bits h old]
      apply totalBits_congr
      intro id inside
      exact kept id (wf.inRange h old id inside) _
    · rw [List.mem_singleton.mp new]
      exact (totalBits_declared decl.fields decl.name rfl).symm

theorem wellFormed_empty : empty.WellFormed :=
  ⟨by simp [empty], by simp [empty], by simp [empty], by simp [empty], by simp [empty]⟩

/-- What declaring a header keeps holds of every layout that declarations make. -/
theorem ofHeaders_keeps {P : Layout → Prop} {decls : List HeaderDecl} {L : Layout} (start : P empty)
    (kept : ∀ (decl : HeaderDecl) (id : HeaderId) (M N : Layout), P M →
      Layout.addHeader decl M = .ok id N → P N)
    (made : ofHeaders decls = .ok L) : P L := by
  have run : ∀ (decls : List HeaderDecl) (M N : Layout), P M →
      (decls.forM fun h => do let _ ← Layout.addHeader h) M = .ok () N → P N := by
    intro decls
    induction decls with
    | nil =>
      intro M N holds done
      obtain rfl := (EStateM.Result.ok.inj done).2
      exact holds
    | cons decl decls ih =>
      intro M N holds done
      obtain ⟨_, K, first, rest⟩ := state_bind_eq_ok.mp done
      obtain ⟨id, K', added, done⟩ := state_bind_eq_ok.mp first
      obtain rfl := (EStateM.Result.ok.inj done).2
      exact ih K' N (kept decl id M K' holds added) rest
  unfold ofHeaders at made
  split at made
  case h_1 M done =>
    obtain rfl := Except.ok.inj made
    exact run decls _ _ start done
  case h_2 => contradiction

/-- Every layout that the declarations of a program make is well-formed. -/
theorem ofHeaders_wellFormed {decls : List HeaderDecl} {L : Layout}
    (made : ofHeaders decls = .ok L) : L.WellFormed :=
  ofHeaders_keeps wellFormed_empty (fun _ _ _ _ wf added => wf.addHeader added) made

/-- The fields of every header, if only none, lie among the declared ones. -/
def Spans (L : Layout) : Prop := ∀ h ∈ L.headers, h.first + h.count ≤ L.fields.length

theorem Spans.addHeader {decl : HeaderDecl} {id : HeaderId} {L M : Layout} (spans : L.Spans)
    (added : addHeader decl L = .ok id M) : M.Spans := by
  obtain ⟨-, -, rfl⟩ := addHeader_ok added
  intro h member
  rw [List.length_append, List.length_map]
  rcases List.mem_append.mp member with old | new
  · exact Nat.le_add_right_of_le (spans h old)
  · rw [List.mem_singleton.mp new]
    exact Nat.le_refl _

theorem ofHeaders_spans {decls : List HeaderDecl} {L : Layout} (made : ofHeaders decls = .ok L) :
    L.Spans :=
  ofHeaders_keeps (List.forall_mem_nil _) (fun _ _ _ _ spans added => spans.addHeader added) made

end Layout

namespace Program

variable {d : Description} {p : Program}

/-- Each part of the program comes from its part of the description. -/
structure LoadedFrom (p : Program) (d : Description) : Prop where
  description : p.description = d
  layout : Layout.ofHeaders d.headers = .ok p.layout
  states : d.parser.mapM (parseState p.layout d.parser) = .ok p.states
  deparseOrder : d.deparser.mapM p.layout.requireHeader = .ok p.deparseOrder
  checksums : d.checksums.mapM (checksumRule p.layout) = .ok p.checksums
  tables : TableStore.ofDecls p.layout d.tables = .ok p.tables

open Sequencing in
/-- What loading does. -/
theorem load_eq_ok_iff : load d = .ok p ↔ p.LoadedFrom d := by
  constructor
  · intro loaded
    obtain ⟨L, layout, loaded⟩ := bind_eq_ok.mp loaded
    obtain ⟨states, parser, loaded⟩ := bind_eq_ok.mp loaded
    obtain ⟨order, deparser, loaded⟩ := bind_eq_ok.mp loaded
    obtain ⟨rules, checksums, loaded⟩ := bind_eq_ok.mp loaded
    obtain ⟨store, tables, loaded⟩ := bind_eq_ok.mp loaded
    cases loaded
    exact ⟨rfl, layout, parser, deparser, checksums, tables⟩
  · rintro ⟨rfl, layout, parser, deparser, checksums, tables⟩
    refine bind_eq_ok.mpr ⟨_, layout, bind_eq_ok.mpr ⟨_, parser, bind_eq_ok.mpr ⟨_, deparser, ?_⟩⟩⟩
    exact bind_eq_ok.mpr ⟨_, checksums, bind_eq_ok.mpr ⟨_, tables, rfl⟩⟩

theorem wellFormed_of_load (loaded : load d = .ok p) : p.layout.WellFormed :=
  Layout.ofHeaders_wellFormed (load_eq_ok_iff.mp loaded).layout

end Program

end Switchyard
