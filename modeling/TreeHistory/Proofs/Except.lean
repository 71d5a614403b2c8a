/-!
# Results of steps that can fail

How a result of `Except` is taken apart: a bind that succeeded, a traversal that succeeded, a map
of the error. `Except.Raises P x` says every error `x` can end in satisfies `P`, built up along a
computation (`Raises.bind`, `raises_mapM`).
-/

namespace TreeHistory

theorem Except.bind_eq_ok {ε α β : Type} {x : Except ε α} {f : α → Except ε β} {b : β} :
    x >>= f = .ok b ↔ ∃ a, x = .ok a ∧ f a = .ok b := by
  cases x <;> simp [bind, Except.bind]

/-- A list mapped without a failure: each result comes from an element, and each element gave
a result. -/
theorem Except.mapM_eq_ok {ε α β : Type} {f : α → Except ε β} :
    ∀ {xs : List α} {ys : List β}, xs.mapM f = .ok ys →
      (∀ y ∈ ys, ∃ x ∈ xs, f x = .ok y) ∧ ∀ x ∈ xs, ∃ y ∈ ys, f x = .ok y
  | [], ys, mapped => by
    simp only [List.mapM_nil, pure, Except.pure, Except.ok.injEq] at mapped
    subst mapped
    simp
  | x :: rest, ys, mapped => by
    rw [List.mapM_cons] at mapped
    obtain ⟨y, first, mapped⟩ := Except.bind_eq_ok.1 mapped
    obtain ⟨ys', others, mapped⟩ := Except.bind_eq_ok.1 mapped
    simp only [pure, Except.pure, Except.ok.injEq] at mapped
    subst mapped
    obtain ⟨fromRest, toRest⟩ := Except.mapM_eq_ok others
    constructor
    · intro z zMem
      rcases List.mem_cons.1 zMem with rfl | zMem
      · exact ⟨x, List.mem_cons_self, first⟩
      · obtain ⟨w, wMem, made⟩ := fromRest z zMem
        exact ⟨w, List.mem_cons_of_mem _ wMem, made⟩
    · intro w wMem
      rcases List.mem_cons.1 wMem with rfl | wMem
      · exact ⟨y, List.mem_cons_self, first⟩
      · obtain ⟨z, zMem, made⟩ := toRest w wMem
        exact ⟨z, List.mem_cons_of_mem _ zMem, made⟩

/-- A traversal whose every step succeeds succeeds. -/
theorem Except.mapM_ok_of_forall {ε α β : Type} {f : α → Except ε β} :
    ∀ {xs : List α}, (∀ x ∈ xs, ∃ y, f x = .ok y) → ∃ ys, xs.mapM f = .ok ys
  | [], _ => ⟨[], rfl⟩
  | x :: rest, each => by
    obtain ⟨y, first⟩ := each x List.mem_cons_self
    obtain ⟨ys, others⟩ :=
      Except.mapM_ok_of_forall fun z mem => each z (List.mem_cons_of_mem x mem)
    refine ⟨y :: ys, ?_⟩
    rw [List.mapM_cons, first, others]
    rfl

/-- A successful traversal keeps the order of the list: reading back the element each result
came from gives the list. -/
theorem Except.map_of_mapM_eq_ok {ε α β : Type} {f : α → Except ε β} {g : β → α}
    (back : ∀ x y, f x = .ok y → g y = x) :
    ∀ {xs : List α} {ys : List β}, xs.mapM f = .ok ys → ys.map g = xs
  | [], ys, mapped => by
    simp only [List.mapM_nil, pure, Except.pure, Except.ok.injEq] at mapped
    rw [← mapped]
    rfl
  | x :: rest, ys, mapped => by
    rw [List.mapM_cons] at mapped
    obtain ⟨y, first, mapped⟩ := Except.bind_eq_ok.1 mapped
    obtain ⟨ys', others, mapped⟩ := Except.bind_eq_ok.1 mapped
    simp only [pure, Except.pure, Except.ok.injEq] at mapped
    rw [← mapped, List.map_cons, back x y first, Except.map_of_mapM_eq_ok back others]

/-! ## Mapping the error -/

@[simp] theorem Except.mapError_ok {ε ε' α : Type} (a : α) (f : ε → ε') :
    (Except.ok a : Except ε α).mapError f = .ok a := rfl

@[simp] theorem Except.mapError_error {ε ε' α : Type} (e : ε) (f : ε → ε') :
    (Except.error e : Except ε α).mapError f = .error (f e) := rfl

/-- A mapped error changes no success. -/
theorem Except.mapError_eq_ok {ε ε' α : Type} {x : Except ε α} {f : ε → ε'} {a : α} :
    x.mapError f = .ok a ↔ x = .ok a := by
  cases x with
  | error e => simp
  | ok b => simp

/-! ## The errors a computation raises -/

/-- Every error that `x` can end in satisfies `P`. -/
def Except.Raises {ε α : Type} (P : ε → Prop) (x : Except ε α) : Prop :=
  ∀ e, x = .error e → P e

namespace Except

variable {ε α β : Type} {P : ε → Prop}

theorem raises_pure (a : α) : Raises P (pure a : Except ε α) := by
  intro e failed
  cases failed

theorem raises_throw_bind {e : ε} {f : α → Except ε β} (holds : P e) :
    Raises P (throw e >>= f) := by
  intro e' failed
  cases failed
  exact holds

/-- An error mapped by `g` raises only errors that `g` makes. -/
theorem raises_mapError {ε' : Type} {g : ε' → ε} (holds : ∀ e, P (g e)) (x : Except ε' α) :
    Raises P (x.mapError g) := by
  intro e failed
  cases x with
  | error e' =>
    cases failed
    exact holds e'
  | ok a => cases failed

/-- A bind raises what its first step raises, or what the rest raises after a success. -/
theorem Raises.bind {x : Except ε α} {f : α → Except ε β} (first : Raises P x)
    (rest : ∀ a, x = .ok a → Raises P (f a)) : Raises P (x >>= f) := by
  intro e failed
  cases x with
  | error e' =>
    cases failed
    exact first e rfl
  | ok a => exact rest a rfl e failed

/-- A traversal raises only what its steps raise. -/
theorem raises_mapM {γ : Type} {f : γ → Except ε α} :
    ∀ {xs : List γ}, (∀ x ∈ xs, Raises P (f x)) → Raises P (xs.mapM f)
  | [], _ => raises_pure []
  | x :: rest, each => by
    rw [List.mapM_cons]
    refine Raises.bind (each x List.mem_cons_self) fun y _ => ?_
    refine Raises.bind (raises_mapM fun z mem => each z (List.mem_cons_of_mem x mem)) fun ys _ => ?_
    exact raises_pure _

end Except

end TreeHistory
