import Mathlib.Data.List.Forall2

/-!
# Operations that may fail, one after another

When a sequence of operations succeeds, each of them does, and when it fails, one of them does. These
laws take a sequence apart without opening the operations, for operations with a state and for those
without. `Succeeds` asks only whether there is a result. Operations that keep a property of the state, that
only look at it, that leave it alone when they fail, or that never fail with one error do so one after
another too. `Lifts` says that an operation on a part of the state does to the part what it does alone.
`History` is the states that operations lead to, whether they succeed or fail, with the log of those that
succeeded.
-/

namespace Switchyard

namespace Sequencing

variable {ε ε' σ τ α β : Type}

theorem bind_eq_ok {x : Except ε α} {f : α → Except ε β} {b : β} :
    (x >>= f) = .ok b ↔ ∃ a, x = .ok a ∧ f a = .ok b := by
  cases x with
  | error e =>
    constructor
    · intro failed
      cases failed
    · rintro ⟨a, absurd, -⟩
      cases absurd
  | ok a =>
    constructor
    · intro done
      exact ⟨a, rfl, done⟩
    · rintro ⟨_, same, done⟩
      cases same
      exact done

/-- What must be there is there. -/
theorem elim_eq_ok {o : Option α} {e : ε} {a : α} :
    o.elim (.error e) Except.ok = Except.ok a ↔ o = some a := by
  cases o with
  | none => simp
  | some b => simp

/-- Rewording an error is no success. -/
theorem mapError_eq_ok {x : Except ε α} {reword : ε → ε'} {a : α} :
    x.mapError reword = .ok a ↔ x = .ok a := by
  cases x with
  | error e =>
    show Except.error (reword e) = .ok a ↔ Except.error e = .ok a
    simp only [reduceCtorEq]
  | ok b =>
    show Except.ok b = .ok a ↔ Except.ok b = .ok a
    simp only [Except.ok.injEq]

/-- Where every element succeeds, so does the list. -/
theorem mapM_map_eq_ok {γ : Type} {xs : List γ} {make : γ → α} {f : α → Except ε β} {g : γ → β}
    (each : ∀ x ∈ xs, f (make x) = .ok (g x)) : (xs.map make).mapM f = .ok (xs.map g) := by
  induction xs with
  | nil => rfl
  | cons x xs ih =>
    obtain ⟨first, others⟩ := List.forall_mem_cons.mp each
    rw [List.map_cons, List.mapM_cons, first, ih others]
    rfl

theorem mapM_eq_ok_map {xs : List α} {f : α → Except ε β} {g : α → β}
    (each : ∀ x ∈ xs, f x = .ok (g x)) : xs.mapM f = .ok (xs.map g) := by
  have mapped : (xs.map id).mapM f = .ok (xs.map g) := mapM_map_eq_ok each
  rwa [List.map_id] at mapped

theorem mapM_singleton_eq_ok {x : α} {f : α → Except ε β} {y : β} (done : f x = .ok y) :
    [x].mapM f = .ok [y] := by
  rw [List.mapM_cons, done]
  rfl

/-- A fold whose steps succeed as a function says, as long as an invariant holds, which they keep. -/
theorem foldlM_eq_ok_foldl {xs : List α} {f : β → α → Except ε β} {g : β → α → β} {P : β → Prop}
    {start : β} (holds : P start)
    (each : ∀ b, P b → ∀ x ∈ xs, f b x = .ok (g b x) ∧ P (g b x)) :
    xs.foldlM f start = .ok (xs.foldl g start) := by
  induction xs generalizing start with
  | nil => rfl
  | cons x xs ih =>
    obtain ⟨first, kept⟩ := each start holds x List.mem_cons_self
    have others := ih kept fun b held y member => each b held y (List.mem_cons_of_mem _ member)
    rw [List.foldlM_cons, first]
    exact others

/-- Every element on either side has a partner. -/
theorem exists_of_forall₂ {R : α → β → Prop} {xs : List α} {ys : List β}
    (each : List.Forall₂ R xs ys) : (∀ x ∈ xs, ∃ y ∈ ys, R x y) ∧ ∀ y ∈ ys, ∃ x ∈ xs, R x y := by
  induction each with
  | nil => exact ⟨List.forall_mem_nil _, List.forall_mem_nil _⟩
  | @cons x y xs ys related _ ih =>
    refine ⟨List.forall_mem_cons.mpr ⟨⟨y, List.mem_cons_self, related⟩, fun x mem => ?_⟩,
      List.forall_mem_cons.mpr ⟨⟨x, List.mem_cons_self, related⟩, fun y mem => ?_⟩⟩
    · obtain ⟨partner, there, related⟩ := ih.1 x mem
      exact ⟨partner, List.mem_cons_of_mem _ there, related⟩
    · obtain ⟨partner, there, related⟩ := ih.2 y mem
      exact ⟨partner, List.mem_cons_of_mem _ there, related⟩

/-- Where a list succeeds, every element does, with the result in its place. -/
theorem forall₂_of_mapM_eq_ok {xs : List α} {ys : List β} {f : α → Except ε β}
    (done : xs.mapM f = .ok ys) : List.Forall₂ (fun x y => f x = .ok y) xs ys := by
  induction xs generalizing ys with
  | nil =>
    cases done
    exact .nil
  | cons x xs ih =>
    rw [List.mapM_cons] at done
    obtain ⟨first, own, done⟩ := bind_eq_ok.mp done
    obtain ⟨rest, others, done⟩ := bind_eq_ok.mp done
    cases done
    exact .cons own (ih others)

theorem mapM_eq_ok_of_forall₂ {xs : List α} {ys : List β} {f : α → Except ε β}
    (each : List.Forall₂ (fun x y => f x = .ok y) xs ys) : xs.mapM f = .ok ys := by
  induction each with
  | nil => rfl
  | cons own _ ih =>
    rw [List.mapM_cons, own, ih]
    rfl

/-- Every result of a list comes from one of its elements. -/
theorem mem_of_mapM_eq_ok {xs : List α} {ys : List β} {f : α → Except ε β}
    (done : xs.mapM f = .ok ys) : ∀ y ∈ ys, ∃ x ∈ xs, f x = .ok y :=
  (exists_of_forall₂ (forall₂_of_mapM_eq_ok done)).2

/-- Two operations that succeed alike on every element succeed alike on the list. -/
theorem exists_mapM_eq_ok_both {xs : List α} {f : α → Except ε β} {g : α → Except ε' β}
    (each : ∀ x ∈ xs, ∃ y, f x = .ok y ∧ g x = .ok y) :
    ∃ ys, xs.mapM f = .ok ys ∧ xs.mapM g = .ok ys := by
  induction xs with
  | nil => exact ⟨[], rfl, rfl⟩
  | cons x xs ih =>
    obtain ⟨⟨y, first, firstAlike⟩, others⟩ := List.forall_mem_cons.mp each
    obtain ⟨ys, rest, restAlike⟩ := ih others
    refine ⟨y :: ys, ?_, ?_⟩
    · rw [List.mapM_cons, first, rest]
      rfl
    · rw [List.mapM_cons, firstAlike, restAlike]
      rfl

/-- The list succeeds where every element does, each with a result of its own. -/
theorem exists_mapM_eq_ok {xs : List α} {f : α → Except ε β} (each : ∀ x ∈ xs, ∃ y, f x = .ok y) :
    ∃ ys, xs.mapM f = .ok ys := by
  have both : ∀ x ∈ xs, ∃ y, f x = .ok y ∧ f x = .ok y :=
    fun x member => (each x member).imp fun _ done => ⟨done, done⟩
  exact (exists_mapM_eq_ok_both both).imp fun _ => And.left

/-- The operation has a result. -/
def Succeeds (x : Except ε α) : Prop := ∃ a, x = .ok a

@[simp] theorem succeeds_ok (a : α) : Succeeds (.ok a : Except ε α) := ⟨a, rfl⟩

@[simp] theorem succeeds_pure (a : α) : Succeeds (pure a : Except ε α) := ⟨a, rfl⟩

@[simp] theorem not_succeeds_error (e : ε) : ¬ Succeeds (.error e : Except ε α) := by
  rintro ⟨a, absurd⟩
  cases absurd

instance (x : Except ε α) : Decidable (Succeeds x) :=
  match x with
  | .ok a => isTrue (succeeds_ok a)
  | .error e => isFalse (not_succeeds_error e)

/-- What must be there is there. -/
theorem succeeds_elim_iff {o : Option α} {e : ε} :
    Succeeds (o.elim (.error e) Except.ok) ↔ o.isSome := by
  cases o with
  | none => exact iff_of_false (not_succeeds_error e) Bool.false_ne_true
  | some a => exact iff_of_true (succeeds_ok a) rfl

theorem succeeds_bind_iff {x : Except ε α} {f : α → Except ε β} :
    Succeeds (x >>= f) ↔ ∃ a, x = .ok a ∧ Succeeds (f a) := by
  constructor
  · rintro ⟨b, done⟩
    obtain ⟨a, first, rest⟩ := bind_eq_ok.mp done
    exact ⟨a, first, b, rest⟩
  · rintro ⟨a, first, b, rest⟩
    exact ⟨b, bind_eq_ok.mpr ⟨a, first, rest⟩⟩

/-- Where it is no matter to the rest what an operation answers, both succeed each for itself. -/
theorem succeeds_bind_iff_and {x : Except ε α} {f : α → Except ε β} {P : Prop}
    (rest : ∀ a, x = .ok a → (Succeeds (f a) ↔ P)) : Succeeds (x >>= f) ↔ Succeeds x ∧ P := by
  rw [succeeds_bind_iff]
  constructor
  · rintro ⟨a, first, last⟩
    exact ⟨⟨a, first⟩, (rest a first).mp last⟩
  · rintro ⟨⟨a, first⟩, holds⟩
    exact ⟨a, first, (rest a first).mpr holds⟩

/-- Packing up an answer never fails. -/
theorem succeeds_bind_pure_iff {x : Except ε α} {g : α → β} :
    Succeeds (x >>= fun a => pure (g a)) ↔ Succeeds x := by
  rw [succeeds_bind_iff_and fun a _ => iff_of_true (succeeds_pure (g a)) trivial, and_true]

/-- After an operation that can have one result only. -/
theorem succeeds_bind_iff_of_result {x : Except ε α} {f : α → Except ε β} {P : Prop} {b : α}
    (result : ∀ a, x = .ok a ↔ P ∧ a = b) : Succeeds (x >>= f) ↔ P ∧ Succeeds (f b) := by
  rw [succeeds_bind_iff]
  constructor
  · rintro ⟨a, first, rest⟩
    obtain ⟨holds, rfl⟩ := (result a).mp first
    exact ⟨holds, rest⟩
  · rintro ⟨holds, rest⟩
    exact ⟨b, (result b).mpr ⟨holds, rfl⟩, rest⟩

theorem succeeds_mapM_iff {xs : List α} {f : α → Except ε β} :
    Succeeds (xs.mapM f) ↔ ∀ x ∈ xs, Succeeds (f x) := by
  constructor
  · rintro ⟨ys, done⟩ x member
    obtain ⟨y, -, own⟩ := (exists_of_forall₂ (forall₂_of_mapM_eq_ok done)).1 x member
    exact ⟨y, own⟩
  · exact exists_mapM_eq_ok

theorem succeeds_option_mapM_iff {o : Option α} {f : α → Except ε β} :
    Succeeds (o.mapM f) ↔ ∀ x ∈ o, Succeeds (f x) := by
  cases o with
  | none =>
    refine iff_of_true (succeeds_pure none) ?_
    intro x absurd
    cases absurd
  | some x =>
    show Succeeds (f x >>= fun y => pure (some y)) ↔ _
    rw [succeeds_bind_pure_iff]
    simp

/-- The result of an option comes from what is in it. -/
theorem eq_some_of_mapM_eq_ok {o : Option α} {r : Option β} {f : α → Except ε β}
    (done : o.mapM f = .ok r) : ∀ y, r = some y → ∃ x, o = some x ∧ f x = .ok y := by
  rintro y rfl
  cases o with
  | none => cases done
  | some x =>
    obtain ⟨z, made, same⟩ := bind_eq_ok.mp done
    cases same
    exact ⟨x, rfl, made⟩

theorem filterMap_of_mapM_eq_ok {γ : Type} {xs : List α} {ys : List β} {f : α → Except ε β}
    (done : xs.mapM f = .ok ys) (g : β → Option γ) :
    ys.filterMap g = xs.filterMap fun x => (f x).toOption.bind g := by
  have each := forall₂_of_mapM_eq_ok done
  clear done
  induction each with
  | nil => rfl
  | cons own _ ih =>
    rw [List.filterMap_cons, List.filterMap_cons, own, ih]
    rfl

theorem length_of_mapM_eq_ok {xs : List α} {ys : List β} {f : α → Except ε β}
    (done : xs.mapM f = .ok ys) : ys.length = xs.length :=
  (forall₂_of_mapM_eq_ok done).length_eq.symm

theorem state_bind_eq_ok {x : EStateM ε σ α} {f : α → EStateM ε σ β} {s t : σ} {b : β} :
    (x >>= f) s = .ok b t ↔ ∃ a m, x s = .ok a m ∧ f a m = .ok b t := by
  show EStateM.bind x f s = .ok b t ↔ _
  unfold EStateM.bind
  cases x s with
  | ok a m =>
    constructor
    · intro done
      exact ⟨a, m, rfl, done⟩
    · rintro ⟨_, _, same, done⟩
      cases same
      exact done
  | error e m =>
    constructor
    · intro failed
      cases failed
    · rintro ⟨_, _, absurd, -⟩
      cases absurd

theorem state_bind_of_ok {x : EStateM ε σ α} {f : α → EStateM ε σ β} {s m : σ} {a : α}
    (first : x s = .ok a m) : (x >>= f) s = f a m := by
  show EStateM.bind x f s = f a m
  simp only [EStateM.bind, first]

theorem state_pure_eq_ok {a b : α} {s t : σ} :
    (pure a : EStateM ε σ α) s = .ok b t ↔ a = b ∧ s = t := by
  show EStateM.Result.ok a s = .ok b t ↔ _
  simp

theorem state_map_eq_ok {x : EStateM ε σ α} {g : α → β} {s t : σ} {b : β} :
    (g <$> x) s = .ok b t ↔ ∃ a, x s = .ok a t ∧ g a = b := by
  rw [map_eq_pure_bind, state_bind_eq_ok]
  constructor
  · rintro ⟨a, m, done, last⟩
    obtain ⟨same, rfl⟩ := state_pure_eq_ok.mp last
    exact ⟨a, done, same⟩
  · rintro ⟨a, done, same⟩
    exact ⟨a, t, done, state_pure_eq_ok.mpr ⟨same, rfl⟩⟩

theorem get_eq_ok {a s t : σ} : (get : EStateM ε σ σ) s = .ok a t ↔ s = a ∧ s = t := by
  show EStateM.Result.ok s s = .ok a t ↔ _
  simp

/-- What looks at the state first goes on from it. -/
theorem get_bind (f : σ → EStateM ε σ β) (s : σ) : ((get : EStateM ε σ σ) >>= f) s = f s s := rfl

theorem get_bind_eq_ok {f : σ → EStateM ε σ β} {s t : σ} {b : β} :
    ((get : EStateM ε σ σ) >>= f) s = .ok b t ↔ f s s = .ok b t := by
  rw [get_bind]

/-- What holds of doing nothing, and of one operation after another if of both, holds of a whole row. -/
theorem forM_of_bind {γ : Type} {holds : EStateM ε σ Unit → Prop} {xs : List γ} {f : γ → EStateM ε σ Unit}
    (nothing : holds (pure ())) (row : ∀ {x y}, holds x → holds y → holds (x >>= fun _ => y))
    (each : ∀ a, holds (f a)) : holds (xs.forM f) := by
  induction xs with
  | nil => exact nothing
  | cons a xs ih =>
    rw [List.forM_eq_forM, List.forM_cons]
    exact row (each a) ih

theorem ofExcept_eq_ok {x : Except ε α} {a : α} {s t : σ} :
    (MonadExcept.ofExcept x : EStateM ε σ α) s = .ok a t ↔ x = .ok a ∧ s = t := by
  cases x with
  | ok b =>
    show EStateM.Result.ok b s = .ok a t ↔ _
    simp
  | error e =>
    constructor
    · intro failed
      cases failed
    · rintro ⟨absurd, -⟩
      cases absurd

/-- After a check that succeeds, the rest succeeds from the state in which the check was made. -/
theorem ofExcept_bind_eq_ok {x : Except ε α} {f : α → EStateM ε σ β} {s t : σ} {b : β} :
    (MonadExcept.ofExcept x >>= f) s = .ok b t ↔ ∃ a, x = .ok a ∧ f a s = .ok b t := by
  rw [state_bind_eq_ok]
  constructor
  · rintro ⟨a, m, done, rest⟩
    obtain ⟨checked, rfl⟩ := ofExcept_eq_ok.mp done
    exact ⟨a, checked, rest⟩
  · rintro ⟨a, checked, rest⟩
    exact ⟨a, s, ofExcept_eq_ok.mpr ⟨checked, rfl⟩, rest⟩

theorem ofExcept_eq_error {x : Except ε α} {e : ε} {s t : σ} :
    (MonadExcept.ofExcept x : EStateM ε σ α) s = .error e t ↔ x = .error e ∧ s = t := by
  cases x with
  | ok a =>
    constructor
    · intro done
      cases done
    · rintro ⟨absurd, -⟩
      cases absurd
  | error e' =>
    show EStateM.Result.error e' s = .error e t ↔ _
    simp

variable {x : EStateM ε σ α} {f : α → EStateM ε σ β} {s : σ}

theorem modify_eq_ok {g : σ → σ} {t : σ} {u : PUnit} :
    (modify g : EStateM ε σ PUnit) s = .ok u t ↔ g s = t := by
  show EStateM.Result.ok PUnit.unit (g s) = .ok u t ↔ _
  simp

/-- After a change the rest runs from the changed state. -/
theorem modify_bind_eq_ok {g : σ → σ} {f : PUnit → EStateM ε σ β} {s t : σ} {b : β} :
    ((modify g : EStateM ε σ PUnit) >>= f) s = .ok b t ↔ f ⟨⟩ (g s) = .ok b t := Iff.rfl

theorem state_bind_eq_error {t : σ} {e : ε} :
    (x >>= f) s = .error e t ↔
      x s = .error e t ∨ ∃ a m, x s = .ok a m ∧ f a m = .error e t := by
  show EStateM.bind x f s = .error e t ↔ _
  unfold EStateM.bind
  cases x s with
  | ok a m =>
    constructor
    · intro failed
      exact .inr ⟨a, m, rfl, failed⟩
    · rintro (absurd | ⟨_, _, same, failed⟩)
      · cases absurd
      · cases same
        exact failed
  | error e' m =>
    constructor
    · intro failed
      exact .inl (by cases failed; rfl)
    · rintro (same | ⟨_, _, absurd, -⟩)
      · cases same
        rfl
      · cases absurd

/-- An operation that succeeds only in states with the property, if it started in one. -/
def Keeps (P : σ → Prop) (x : EStateM ε σ α) : Prop := ∀ ⦃s a t⦄, P s → x s = .ok a t → P t

/-- An operation that never changes the state. -/
def LooksOnly (x : EStateM ε σ α) : Prop :=
  ∀ s, (∀ a t, x s = .ok a t → t = s) ∧ ∀ e t, x s = .error e t → t = s

/-- An operation that leaves the state as it is if it fails in it. -/
def AtomicAt (x : EStateM ε σ α) (s : σ) : Prop := ∀ ⦃e t⦄, x s = .error e t → t = s

theorem Keeps.bind {P : σ → Prop} (first : Keeps P x) (second : ∀ a, Keeps P (f a)) :
    Keeps P (x >>= f) := by
  intro s b t start done
  obtain ⟨a, m, mid, done⟩ := state_bind_eq_ok.mp done
  exact second a (first start mid) done

theorem LooksOnly.keeps (looks : LooksOnly x) (P : σ → Prop) : Keeps P x := by
  intro s a t start done
  rwa [(looks s).1 a t done]

theorem keeps_modify {P : σ → Prop} {g : σ → σ} (kept : ∀ s, P s → P (g s)) :
    Keeps P (modify g : EStateM ε σ PUnit) := by
  intro s u t start done
  obtain rfl := modify_eq_ok.mp done
  exact kept s start

theorem looksOnly_pure (a : α) : LooksOnly (pure a : EStateM ε σ α) := by
  intro s
  exact ⟨fun _ _ done => (state_pure_eq_ok.mp done).2.symm, fun _ _ failed => (by cases failed)⟩

theorem looksOnly_get : LooksOnly (get : EStateM ε σ σ) := by
  intro s
  exact ⟨fun _ _ done => (get_eq_ok.mp done).2.symm, fun _ _ failed => (by cases failed)⟩

theorem looksOnly_throw (e : ε) : LooksOnly (throw e : EStateM ε σ α) := by
  intro s
  exact ⟨fun _ _ done => (by cases done), fun _ _ failed => (by cases failed; rfl)⟩

theorem looksOnly_ofExcept (r : Except ε α) :
    LooksOnly (MonadExcept.ofExcept r : EStateM ε σ α) := by
  cases r with
  | ok a => exact looksOnly_pure a
  | error e => exact looksOnly_throw e

theorem LooksOnly.bind (first : LooksOnly x) (second : ∀ a, LooksOnly (f a)) :
    LooksOnly (x >>= f) := by
  intro s
  refine ⟨?_, ?_⟩
  · intro b t done
    obtain ⟨a, m, mid, last⟩ := state_bind_eq_ok.mp done
    obtain rfl := (first s).1 a m mid
    exact (second a m).1 b t last
  · intro e t failed
    rcases state_bind_eq_error.mp failed with early | ⟨a, m, mid, last⟩
    · exact (first s).2 e t early
    · obtain rfl := (first s).1 a m mid
      exact (second a m).2 e t last

/-- An operation that never fails with the error. -/
def Avoids (e : ε) (x : EStateM ε σ α) : Prop := ∀ ⦃s t⦄, x s ≠ .error e t

theorem Avoids.bind {e : ε} (first : Avoids e x) (second : ∀ a, Avoids e (f a)) :
    Avoids e (x >>= f) := by
  intro s t failed
  rcases state_bind_eq_error.mp failed with early | ⟨a, m, -, last⟩
  · exact first early
  · exact second a last

theorem avoids_pure (e : ε) (a : α) : Avoids e (pure a : EStateM ε σ α) := by
  intro s t failed
  cases failed

theorem avoids_get (e : ε) : Avoids e (get : EStateM ε σ σ) := by
  intro s t failed
  cases failed

theorem avoids_modify (e : ε) (g : σ → σ) : Avoids e (modify g : EStateM ε σ PUnit) := by
  intro s t failed
  cases failed

theorem avoids_throw {e other : ε} (different : other ≠ e) :
    Avoids e (throw other : EStateM ε σ α) := by
  intro s t failed
  apply different
  cases failed
  rfl

/-- An operation that looks something up in the state, and fails where it is not there. -/
structure LooksUp (look : σ → Option α) (e : ε) (x : EStateM ε σ α) : Prop where
  found : ∀ {s a}, look s = some a → x s = .ok a s
  missing : ∀ {s}, look s = none → x s = .error e s

theorem LooksUp.of_get {look : σ → Option α} {e : ε} {f : σ → EStateM ε σ α}
    (found : ∀ s a, look s = some a → f s = pure a) (missing : ∀ s, look s = none → f s = throw e) :
    LooksUp look e (get >>= f) where
  found {s a} there := by
    rw [get_bind, found s a there]
    rfl
  missing {s} there := by
    rw [get_bind, missing s there]
    rfl

theorem LooksUp.eq_ok {look : σ → Option α} {e : ε} {a : α} {t : σ} (looks : LooksUp look e x) :
    x s = .ok a t ↔ look s = some a ∧ t = s := by
  cases there : look s with
  | some b =>
    rw [looks.found there]
    simp only [EStateM.Result.ok.injEq, Option.some.injEq, eq_comm]
  | none =>
    rw [looks.missing there]
    simp only [reduceCtorEq, false_and]

theorem LooksUp.bind_eq_ok {look : σ → Option α} {e : ε} {f : α → EStateM ε σ β} {s t : σ} {b : β}
    (looks : LooksUp look e x) : (x >>= f) s = .ok b t ↔ ∃ a, look s = some a ∧ f a s = .ok b t := by
  rw [state_bind_eq_ok]
  constructor
  · rintro ⟨a, m, done, rest⟩
    obtain ⟨there, rfl⟩ := looks.eq_ok.mp done
    exact ⟨a, there, rest⟩
  · rintro ⟨a, there, rest⟩
    exact ⟨a, s, looks.found there, rest⟩

theorem LooksUp.looksOnly {look : σ → Option α} {e : ε} (looks : LooksUp look e x) :
    LooksOnly x := by
  intro s
  refine ⟨fun a t done => (looks.eq_ok.mp done).2, fun e' t failed => ?_⟩
  cases there : look s with
  | some a =>
    rw [looks.found there] at failed
    cases failed
  | none =>
    rw [looks.missing there] at failed
    cases failed
    rfl

theorem LooksUp.avoids {look : σ → Option α} {e other : ε} (looks : LooksUp look other x)
    (different : other ≠ e) : Avoids e x := by
  intro s t failed
  cases there : look s with
  | some a =>
    rw [looks.found there] at failed
    cases failed
  | none =>
    rw [looks.missing there] at failed
    apply different
    cases failed
    rfl

theorem LooksUp.keeps {look : σ → Option α} {e : ε} (looks : LooksUp look e x) (P : σ → Prop) :
    Keeps P x :=
  looks.looksOnly.keeps P

theorem LooksOnly.atomicAt (looks : LooksOnly x) (s : σ) : AtomicAt x s := (looks s).2

theorem atomicAt_modify (g : σ → σ) (s : σ) : AtomicAt (modify g : EStateM ε σ PUnit) s := by
  intro e t failed
  cases failed

/-- What a first operation did must be undone or nothing where the second fails. -/
theorem AtomicAt.bind (first : AtomicAt x s)
    (second : ∀ a m e t, x s = .ok a m → f a m = .error e t → t = s) : AtomicAt (x >>= f) s := by
  intro e t failed
  rcases state_bind_eq_error.mp failed with early | ⟨a, m, mid, last⟩
  · exact first early
  · exact second a m e t mid last

/-- After an operation that only looks, the state is still the one to come back to. -/
theorem LooksOnly.atomicAt_bind (looks : LooksOnly x)
    (rest : ∀ a, x s = .ok a s → AtomicAt (f a) s) : AtomicAt (x >>= f) s := by
  refine (looks.atomicAt s).bind fun a m e t mid last => ?_
  obtain rfl := (looks s).1 a m mid
  exact rest a mid last

/-- An operation that is followed by nothing that can fail. -/
theorem AtomicAt.bind_pure (first : AtomicAt x s) (g : α → β) :
    AtomicAt (x >>= fun a => pure (g a)) s :=
  first.bind fun _ _ _ _ _ absurd => by cases absurd

/-- A change with a check after it: where the check fails, the change was none. -/
theorem atomicAt_modify_check {g : σ → σ} {bad : Prop} [Decidable bad] {fail rest : EStateM ε σ α}
    (looks : LooksOnly fail) (sure : ∀ e t, rest (g s) ≠ .error e t) (same : bad → g s = s) :
    AtomicAt (modify g >>= fun _ => if bad then fail else rest) s := by
  refine (atomicAt_modify g s).bind fun _ m e t changed failed => ?_
  obtain rfl := modify_eq_ok.mp changed
  split at failed
  case isTrue wrong => exact (looks.atomicAt (g s) failed).trans (same wrong)
  case isFalse => exact absurd failed (sure e t)

/-- What is found is found in the state to come back to. -/
theorem LooksUp.atomicAt_bind {look : σ → Option α} {e : ε} (looks : LooksUp look e x)
    (rest : ∀ a, look s = some a → AtomicAt (f a) s) : AtomicAt (x >>= f) s :=
  looks.looksOnly.atomicAt_bind fun a there => rest a (looks.eq_ok.mp there).1

theorem AtomicAt.map (first : AtomicAt x s) (g : α → β) : AtomicAt (g <$> x) s := by
  rw [map_eq_pure_bind]
  exact first.bind_pure g

theorem Keeps.map {P : σ → Prop} (first : Keeps P x) (g : α → β) : Keeps P (g <$> x) := by
  rw [map_eq_pure_bind]
  exact first.bind fun _ => (looksOnly_pure _).keeps P

/-- What is found is found in a state with the property. -/
theorem LooksUp.keeps_bind {look : σ → Option α} {e : ε} {P : σ → Prop} (looks : LooksUp look e x)
    (rest : ∀ a s, P s → look s = some a → Keeps P (f a)) : Keeps P (x >>= f) := by
  intro s b t start done
  obtain ⟨a, there, last⟩ := looks.bind_eq_ok.mp done
  exact rest a s start there start last

/-- After a check, the check has succeeded. -/
theorem keeps_ofExcept_bind {r : Except ε α} {P : σ → Prop}
    (rest : ∀ a, r = .ok a → Keeps P (f a)) : Keeps P (MonadExcept.ofExcept r >>= f) := by
  intro s b t start done
  obtain ⟨a, checked, last⟩ := ofExcept_bind_eq_ok.mp done
  exact rest a checked start last

/-- An operation that does to a part of the state what another does to the part alone. -/
structure Lifts (part : σ → τ) (put : σ → τ → σ) (x : EStateM ε τ α) (y : EStateM ε σ α) : Prop where
  ok : ∀ {s a t}, x (part s) = .ok a t → y s = .ok a (put s t)
  error : ∀ {s e t}, x (part s) = .error e t → y s = .error e (put s t)

section Lifts

variable {part : σ → τ} {put : σ → τ → σ} {x : EStateM ε τ α} {y y' : EStateM ε σ α} {s s' : σ}

theorem Lifts.eq_ok {a : α} (lifts : Lifts part put x y) :
    y s = .ok a s' ↔ ∃ t, x (part s) = .ok a t ∧ s' = put s t := by
  cases ran : x (part s) with
  | ok b t =>
    rw [lifts.ok ran]
    constructor
    · intro done
      cases done
      exact ⟨t, rfl, rfl⟩
    · rintro ⟨_, same, rfl⟩
      cases same
      rfl
  | error e t =>
    rw [lifts.error ran]
    simp

theorem Lifts.eq_error {e : ε} (lifts : Lifts part put x y) :
    y s = .error e s' ↔ ∃ t, x (part s) = .error e t ∧ s' = put s t := by
  cases ran : x (part s) with
  | ok b t =>
    rw [lifts.ok ran]
    simp
  | error e t =>
    rw [lifts.error ran]
    constructor
    · intro failed
      cases failed
      exact ⟨t, rfl, rfl⟩
    · rintro ⟨_, same, rfl⟩
      cases same
      rfl

/-- Nothing is left open by what the part does. -/
theorem Lifts.unique (lifts : Lifts part put x y) (lifts' : Lifts part put x y') : y = y' := by
  funext s
  cases ran : x (part s) with
  | ok a t => rw [lifts.ok ran, lifts'.ok ran]
  | error e t => rw [lifts.error ran, lifts'.error ran]

theorem Lifts.map (lifts : Lifts part put x y) (g : α → β) : Lifts part put (g <$> x) (g <$> y) where
  ok done := by
    obtain ⟨a, own, same⟩ := state_map_eq_ok.mp done
    exact state_map_eq_ok.mpr ⟨a, lifts.ok own, same⟩
  error failed := by
    rw [map_eq_pure_bind] at failed ⊢
    rcases state_bind_eq_error.mp failed with own | ⟨_, _, _, absurd⟩
    · exact state_bind_eq_error.mpr (.inl (lifts.error own))
    · cases absurd

/-- What the operation on the part keeps is kept, if it is all that holds of the part. -/
theorem Lifts.keeps {P : τ → Prop} {Q : σ → Prop} (lifts : Lifts part put x y)
    (inside : ∀ {s}, Q s → P (part s)) (back : ∀ {s t}, Q s → P t → Q (put s t)) (kept : Keeps P x) :
    Keeps Q y := by
  intro s a s' holds done
  obtain ⟨t, changed, rfl⟩ := lifts.eq_ok.mp done
  exact back holds (kept (inside holds) changed)

theorem Lifts.atomicAt (lifts : Lifts part put x y) (same : put s (part s) = s)
    (atomic : AtomicAt x (part s)) : AtomicAt y s := by
  intro e s' failed
  obtain ⟨t, stopped, rfl⟩ := lifts.eq_error.mp failed
  rw [atomic stopped]
  exact same

end Lifts

/-- The states that operations lead to from a first one, with what was done and answered on the way.
An operation that fails is not in the log. -/
inductive History {Op : Type} (run : Op → EStateM ε σ α) (first : σ) : List (Op × α) → σ → Prop where
  | start : History run first [] first
  | done {log : List (Op × α)} {s t : σ} {a : α} (before : History run first log s) (op : Op)
      (done : run op s = .ok a t) : History run first (log ++ [(op, a)]) t
  | failed {log : List (Op × α)} {s t : σ} {e : ε} (before : History run first log s) (op : Op)
      (failed : run op s = .error e t) : History run first log t

/-- A property that operations keep, and with which they change nothing when they fail, holds of all
the states that they lead to. -/
theorem History.keeps {Op : Type} {run : Op → EStateM ε σ α} {first s : σ} {log : List (Op × α)}
    {P : σ → Prop} (history : History run first log s) (start : P first)
    (kept : ∀ op, Keeps P (run op)) (atomic : ∀ op s, P s → AtomicAt (run op) s) : P s := by
  induction history with
  | start => exact start
  | done _ op done ih => exact kept op ih done
  | failed _ op failed ih =>
    rw [atomic op _ ih failed]
    exact ih

end Sequencing

end Switchyard
