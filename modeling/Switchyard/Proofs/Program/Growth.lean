import Switchyard.Proofs.Program.Names

/-!
# Layouts that grow

A layout only ever grows. A header that is declared is added behind the others, with its fields behind all
fields that there are; a declaration that fails may leave fields behind, which belong to no header and keep
their names. So after any declarations, failing ones among them, names stand for what has them, headers own
stretches of fields that follow one another, and whatever was declared before stands where it stood.
-/

namespace Switchyard

open Sequencing

namespace Layout

/-- What is in the first layout is in the second one too, at its position and under its name. -/
structure StandsIn (L M : Layout) : Prop where
  headers : L.headers <+: M.headers
  fields : L.fields <+: M.fields
  headerNames : ∀ name id, L.headerId? name = some id → M.headerId? name = some id
  fieldNames : ∀ name id, L.fieldId? name = some id → M.fieldId? name = some id

/-- The header at a position is a declared one: its fields are the declared fields, which name it as owner. -/
def Declares (L : Layout) (decl : HeaderDecl) (id : HeaderId) : Prop :=
  ∃ h, L.headers[id]? = some h ∧ h.name = decl.name ∧ h.metadata = decl.metadata ∧ h.bits = decl.bits ∧
    h.count = decl.fields.length ∧ (L.fields.drop h.first).take h.count =
      decl.fields.map fun d => ⟨qualified decl.name d.name, id, d.bits⟩

/-- What all declarations establish and keep, failing ones among them. -/
structure Consistent (L : Layout) : Prop extends WellFormed L where
  headersNamed : (L.headers.map (·.name)).Nodup
  spans : L.Spans
  apart : L.headers.Pairwise fun g h => g.first + g.count ≤ h.first
  owned : ∀ (id : HeaderId) (h : Header), L.headers[id]? = some h →
    ∀ i ∈ List.range' h.first h.count, ∃ f, L.fields[i]? = some f ∧ f.header = id

variable {L M : Layout} {decl : HeaderDecl} {id : HeaderId} {header : String} {log : List (HeaderDecl × HeaderId)}

/-! ## What stands -/

theorem standsIn_append (L : Layout) (headers : List Header) (fields : List Field) :
    L.StandsIn ⟨L.headers ++ headers, L.fields ++ fields⟩ := by
  refine ⟨List.prefix_append _ _, List.prefix_append _ _, fun name id found => ?_, fun name id found => ?_⟩
  · rw [headerId?] at found ⊢
    rw [List.findIdx?_append, found, Option.some_or]
  · rw [fieldId?] at found ⊢
    rw [List.findIdx?_append, found, Option.some_or]

theorem StandsIn.refl (L : Layout) : L.StandsIn L :=
  ⟨List.prefix_rfl, List.prefix_rfl, fun _ _ found => found, fun _ _ found => found⟩

theorem StandsIn.trans {N : Layout} (first : L.StandsIn M) (further : M.StandsIn N) : L.StandsIn N where
  headers := first.headers.trans further.headers
  fields := first.fields.trans further.fields
  headerNames name id found := further.headerNames name id (first.headerNames name id found)
  fieldNames name id found := further.fieldNames name id (first.fieldNames name id found)

theorem StandsIn.getElem?_headers (stands : L.StandsIn M) {h : Header} (there : L.headers[id]? = some h) :
    M.headers[id]? = some h := by
  obtain ⟨inside, rfl⟩ := List.getElem?_eq_some_iff.mp there
  exact List.prefix_iff_getElem?.mp stands.headers id inside

/-- A declared header stays what it was declared as. -/
theorem Declares.of_standsIn (declares : L.Declares decl id) (spans : L.Spans) (stands : L.StandsIn M) :
    M.Declares decl id := by
  obtain ⟨h, there, name, metadata, bits, count, fields⟩ := declares
  have inside := spans h (List.mem_of_getElem? there)
  refine ⟨h, stands.getElem?_headers there, name, metadata, bits, count, ?_⟩
  obtain ⟨further, grown⟩ := stands.fields
  rw [← grown, List.drop_append_of_le_length (Nat.le_of_add_right_le inside),
    List.take_append_of_le_length (by rw [List.length_drop]; exact Nat.le_sub_of_add_le' inside), fields]

/-! ## One field more -/

/-- A field with a new name, which no header owns yet, can be added. -/
theorem Consistent.concat {f : Field} (consistent : L.Consistent) (wide : 1 ≤ f.bits ∧ f.bits ≤ 128)
    (fresh : f.name ∉ L.fields.map (·.name)) : Consistent { L with fields := L.fields ++ [f] } := by
  have same : ∀ h ∈ L.headers, ∀ i ∈ List.range' h.first h.count,
      (L.fields ++ [f])[i]? = L.fields[i]? := by
    intro h member i inside
    exact List.getElem?_append_left (consistent.inRange h member i inside)
  refine ⟨⟨?_, ?_, ?_, consistent.ordered, ?_⟩, consistent.headersNamed, ?_, consistent.apart, ?_⟩
  · exact List.forall_mem_append.mpr ⟨consistent.widths, List.forall_mem_singleton.mpr wide⟩
  · rw [List.map_append, List.map_singleton]
    exact List.nodup_append.mpr ⟨consistent.named, List.pairwise_singleton _ _, by
      rintro _ old _ new rfl
      rw [List.mem_singleton.mp new] at old
      exact fresh old⟩
  · intro h member i inside
    rw [List.length_append]
    exact Nat.lt_add_right _ (consistent.inRange h member i inside)
  · intro h member
    rw [consistent.bits h member]
    refine totalBits_congr fun i inside => ?_
    rw [width, width, same h member i inside]
  · intro h member
    rw [List.length_append]
    exact Nat.le_add_right_of_le (consistent.spans h member)
  · intro id h there i inside
    rw [same h (List.mem_of_getElem? there) i inside]
    exact consistent.owned id h there i inside

theorem addField_error {decl : FieldDecl} {e : Error} (failed : addField header decl L = .error e M) :
    M = L := by
  unfold addField at failed
  rw [get_bind] at failed
  split at failed
  case isTrue => cases failed; rfl
  case isFalse =>
    split at failed
    case isTrue => cases failed; rfl
    case isFalse => cases failed

/-- What single fields keep, fields one after another keep, however far they come. -/
theorem addFields_keeps {P : Layout → Prop} {decls : List FieldDecl}
    (kept : ∀ decl M N, P M → addField header decl M = .ok () N → P N) (start : P L) :
    (∀ M, decls.forM (addField header) L = .ok () M → P M) ∧
      ∀ e M, decls.forM (addField header) L = .error e M → P M := by
  induction decls generalizing L with
  | nil =>
    refine ⟨fun M added => ?_, fun e M failed => ?_⟩
    · obtain rfl := (EStateM.Result.ok.inj added).2
      exact start
    · cases failed
  | cons decl decls ih =>
    rw [List.forM_eq_forM, List.forM_cons]
    refine ⟨fun M added => ?_, fun e M failed => ?_⟩
    · obtain ⟨_, N, first, rest⟩ := state_bind_eq_ok.mp added
      exact (ih (kept decl L N start first)).1 M rest
    · rcases state_bind_eq_error.mp failed with first | ⟨_, N, first, rest⟩
      · rwa [addField_error first]
      · exact (ih (kept decl L N start first)).2 e M rest

theorem Consistent.addField {decl : FieldDecl} (consistent : L.Consistent)
    (added : addField header decl L = .ok () M) : M.Consistent ∧ L.StandsIn M ∧ M.headers = L.headers := by
  obtain ⟨wide, fresh, rfl⟩ := addField_ok added
  refine ⟨consistent.concat wide (fieldId?_eq_none.mp fresh), ?_, rfl⟩
  have stands := L.standsIn_append [] [L.declaredField header decl]
  rwa [List.append_nil] at stands

/-! ## Declarations, successful or not -/

/-- A declaration that fails adds no header. It may leave fields. -/
theorem Consistent.addHeader_error {e : Error} (consistent : L.Consistent)
    (failed : addHeader decl L = .error e M) : M.Consistent ∧ L.StandsIn M ∧ M.headers = L.headers := by
  unfold addHeader at failed
  rw [get_bind] at failed
  split at failed
  case isTrue =>
    cases failed
    exact ⟨consistent, .refl L, rfl⟩
  case isFalse =>
    rcases state_bind_eq_error.mp failed with fields | ⟨_, K, -, absurd⟩
    · refine (addFields_keeps (P := fun K => K.Consistent ∧ L.StandsIn K ∧ K.headers = L.headers) ?_
        ⟨consistent, .refl L, rfl⟩).2 e M fields
      rintro d K K' ⟨sound, stands, headers⟩ added
      obtain ⟨further, longer, same⟩ := sound.addField added
      exact ⟨further, stands.trans longer, same.trans headers⟩
    · cases absurd

theorem declares_extend (L : Layout) (decl : HeaderDecl) : (L.extend decl).Declares decl L.headers.length := by
  refine ⟨L.declaredHeader decl, by simp [extend], rfl, rfl, rfl, rfl, ?_⟩
  show ((L.fields ++ _).drop L.fields.length).take decl.fields.length = _
  rw [List.drop_left, List.take_of_length_le (Nat.le_of_eq (List.length_map _))]
  rfl

/-- A declaration that succeeds adds the header, and its fields alone. -/
theorem Consistent.addHeader (consistent : L.Consistent) (added : addHeader decl L = .ok id M) :
    M.Consistent ∧ L.StandsIn M ∧ id = L.headers.length ∧ M = L.extend decl := by
  obtain ⟨rfl, fresh⟩ := fresh_of_addHeader added
  obtain ⟨-, -, same⟩ := addHeader_ok added
  have extended : M = L.extend decl := same
  refine ⟨⟨consistent.toWellFormed.addHeader added, ?_, consistent.spans.addHeader added, ?_, ?_⟩, ?_, rfl,
    extended⟩ <;> subst extended
  · rw [headerNames_extend]
    refine List.nodup_append.mpr ⟨consistent.headersNamed, List.pairwise_singleton _ _, ?_⟩
    rintro _ old _ new rfl
    rw [List.mem_singleton.mp new] at old
    exact fresh old
  · refine List.pairwise_append.mpr ⟨consistent.apart, List.pairwise_singleton _ _, ?_⟩
    intro g old h new
    rw [List.mem_singleton.mp new]
    exact consistent.spans g old
  · intro id h there i inside
    rcases Program.getElem?_concat_eq_some.mp there with old | ⟨rfl, rfl⟩
    · obtain ⟨f, found, owner⟩ := consistent.owned id h old i inside
      exact ⟨f, List.getElem?_append_left (List.getElem?_eq_some_iff.mp found).1 ▸ found, owner⟩
    · obtain ⟨least, most⟩ := List.mem_range'_1.mp inside
      have within : i - L.fields.length < decl.fields.length := by
        simp only [declaredHeader] at least most
        omega
      refine ⟨L.declaredField decl.name decl.fields[i - L.fields.length], ?_, rfl⟩
      show (L.fields ++ _)[i]? = _
      rw [List.getElem?_append_right least, List.getElem?_map, List.getElem?_eq_getElem within,
        Option.map_some]
  · exact L.standsIn_append _ _

theorem consistent_empty : empty.Consistent :=
  ⟨wellFormed_empty, List.nodup_nil, List.forall_mem_nil _, .nil, fun _ _ absurd => by cases absurd⟩

/-- The headers of a layout are those of the successful declarations, in order. -/
structure Records (log : List (HeaderDecl × HeaderId)) (L : Layout) : Prop where
  length : L.headers.length = log.length
  declares : ∀ (i : Nat) (entry : HeaderDecl × HeaderId), log[i]? = some entry →
    entry.2 = i ∧ L.Declares entry.1 i

/-- A layout that declarations have led to is consistent, and has the headers that were declared. -/
theorem records_of_history (history : History addHeader empty log L) : L.Consistent ∧ Records log L := by
  induction history with
  | start => exact ⟨consistent_empty, rfl, fun _ _ absurd => by cases absurd⟩
  | done before decl done ih =>
    obtain ⟨consistent, length, declares⟩ := ih
    obtain ⟨further, stands, rfl, rfl⟩ := consistent.addHeader done
    refine ⟨further, ?_, fun i entry there => ?_⟩
    · rw [extend, List.length_append, List.length_append, length]
      rfl
    · rcases Program.getElem?_concat_eq_some.mp there with old | ⟨rfl, rfl⟩
      · obtain ⟨same, own⟩ := declares i entry old
        exact ⟨same, own.of_standsIn consistent.spans stands⟩
      · exact ⟨length, length ▸ declares_extend _ decl⟩
  | failed before decl failed ih =>
    obtain ⟨consistent, length, declares⟩ := ih
    obtain ⟨further, stands, same⟩ := consistent.addHeader_error failed
    refine ⟨further, same ▸ length, fun i entry there => ?_⟩
    obtain ⟨position, own⟩ := declares i entry there
    exact ⟨position, own.of_standsIn consistent.spans stands⟩

/-- Whatever is declared later, what was declared stands. -/
theorem standsIn_of_history (consistent : L.Consistent) (history : History addHeader L log M) :
    M.Consistent ∧ L.StandsIn M := by
  induction history with
  | start => exact ⟨consistent, .refl L⟩
  | done before decl done ih =>
    obtain ⟨sound, stands⟩ := ih
    obtain ⟨further, longer, -⟩ := sound.addHeader done
    exact ⟨further, stands.trans longer⟩
  | failed before decl failed ih =>
    obtain ⟨sound, stands⟩ := ih
    obtain ⟨further, longer, -⟩ := sound.addHeader_error failed
    exact ⟨further, stands.trans longer⟩

/-- Masking a value cuts it to the width of the field. -/
theorem Field.and_mask (f : Field) (value : Nat) : value &&& f.mask = value % Nat.pow 2 f.bits :=
  Nat.and_two_pow_sub_one_eq_mod value f.bits

/-- Whatever headers are declared, one after another, and whichever declarations fail. Names of headers and of
fields stand for the one position that has the name. The headers are those of the declarations that succeeded,
in order and as declared; their ranges of fields follow one another without overlap. A header is as wide as the
fields in its range together, and each of them names it as owner, has 1 to 128 bits and the mask of that many.
What is there stays there, under its name, whatever is declared later. -/
theorem layout_of_history (history : History addHeader empty log L) :
    Named (L.headers.map (·.name)) L.headerId? ∧ Named (L.fields.map (·.name)) L.fieldId? ∧
      Records log L ∧
      (L.headers.Pairwise fun g h => g.first + g.count ≤ h.first) ∧
      (∀ id h, L.headers[id]? = some h → h.first + h.count ≤ L.fields.length ∧
        h.bits = L.totalBits (List.range' h.first h.count) ∧
        ∀ i ∈ List.range' h.first h.count, ∃ f, L.fields[i]? = some f ∧ f.header = id ∧
          (1 ≤ f.bits ∧ f.bits ≤ 128) ∧ f.mask + 1 = Nat.pow 2 f.bits ∧
          ∀ value, value &&& f.mask = value % Nat.pow 2 f.bits) ∧
      ∀ later M, History addHeader L later M → L.StandsIn M := by
  obtain ⟨consistent, records⟩ := records_of_history history
  refine ⟨named_of_map rfl consistent.headersNamed, named_of_map rfl consistent.named, records,
    consistent.apart, fun id h there => ⟨?_, ?_, fun i inside => ?_⟩, fun later M further => ?_⟩
  · exact consistent.spans h (List.mem_of_getElem? there)
  · exact consistent.bits h (List.mem_of_getElem? there)
  · obtain ⟨f, found, owner⟩ := consistent.owned id h there i inside
    have wide := consistent.widths f (List.mem_of_getElem? found)
    exact ⟨f, found, owner, wide, Nat.sub_add_cancel (Nat.pow_pos (by decide)), f.and_mask⟩
  · exact (standsIn_of_history consistent further).2

/-- A declaration that fails at its second field, between two that succeed. -/
def interrupted : Layout :=
  ⟨[⟨"link", false, 0, 2, 64⟩, ⟨"net", false, 3, 1, 128⟩],
    [⟨"link.to", 0, 48⟩, ⟨"link.type", 0, 16⟩, ⟨"odd.flag", 1, 1⟩, ⟨"net.to", 1, 128⟩]⟩

/-- The field that is left behind keeps its name and says that it belongs to the next header, but lies outside
the range of that header. It is still there when the next declaration fails too. -/
theorem layout_of_history_interrupted :
    ∃ log, History addHeader empty log interrupted ∧
      Named ["link.to", "link.type", "odd.flag", "net.to"] interrupted.fieldId? ∧
      interrupted.Declares ⟨"net", false, [⟨"to", 128⟩]⟩ 1 ∧
      (∀ i ∈ List.range' 3 1, ∃ f, interrupted.fields[i]? = some f ∧ f.header = 1) ∧
      ∃ M, addHeader ⟨"net", true, []⟩ interrupted =
          .error (.invalidProgram (.duplicateHeader "net")) M ∧
        M.fieldId? "odd.flag" = some 2 := by
  have begun : History addHeader empty [] empty := .start
  have first : History addHeader empty _ _ := begun.done ⟨"link", false, [⟨"to", 48⟩, ⟨"type", 16⟩]⟩ rfl
  have second : History addHeader empty _ _ := first.failed ⟨"odd", true, [⟨"flag", 1⟩, ⟨"wide", 129⟩]⟩ rfl
  have third : History addHeader empty _ interrupted := second.done ⟨"net", false, [⟨"to", 128⟩]⟩ rfl
  obtain ⟨-, fields, records, -, headers, stands⟩ := layout_of_history third
  have failing : addHeader ⟨"net", true, []⟩ interrupted =
      .error (.invalidProgram (.duplicateHeader "net")) interrupted := rfl
  refine ⟨_, third, fields, (records.declares 1 _ rfl).2, fun i inside => ?_, interrupted, failing, ?_⟩
  · obtain ⟨f, found, owner, -⟩ := (headers 1 _ rfl).2.2 i inside
    exact ⟨f, found, owner⟩
  · have later : History addHeader interrupted [] interrupted := History.start.failed _ failing
    exact (stands _ _ later).fieldNames "odd.flag" 2 (by decide)

end Layout

end Switchyard
