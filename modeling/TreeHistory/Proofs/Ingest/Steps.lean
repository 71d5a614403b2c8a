import TreeHistory.Ingest.Apply
import TreeHistory.Proofs.Except

/-!
# Running an ingestor's steps

`Ingestor.run` runs steps that may fail, keeping what they did before the failure; `run_bind` and
`run_bind_eq_ok` take composed runs apart. Steps `Keeps` a property when every successful run
from an ingestor that has it ends in one that has it, through binds, branches and loops.
-/

namespace TreeHistory

namespace Ingestor

variable {α β : Type}

/-! ## Runs of the primitive steps -/

@[simp] theorem run_pure (s : Ingestor) (a : α) : s.run (pure a : IngestM α) = (s, .ok a) := rfl

@[simp] theorem run_throw (s : Ingestor) (e : IndexError) :
    s.run (throw e : IngestM α) = (s, .error e) := rfl

@[simp] theorem run_get (s : Ingestor) : s.run (get : IngestM Ingestor) = (s, .ok s) := rfl

@[simp] theorem run_monadStateGet (s : Ingestor) :
    s.run (MonadState.get : IngestM Ingestor) = (s, .ok s) := rfl

@[simp] theorem run_set (s s' : Ingestor) : s.run (set s' : IngestM PUnit) = (s', .ok ()) := rfl

@[simp] theorem run_modify (s : Ingestor) (f : Ingestor → Ingestor) :
    s.run (modify f : IngestM PUnit) = (f s, .ok ()) := rfl

theorem run_bind (s : Ingestor) (m : IngestM α) (f : α → IngestM β) :
    s.run (m >>= f) = match s.run m with
      | (s', .ok a) => s'.run (f a)
      | (s', .error e) => (s', .error e) := by
  simp only [run, bind, ExceptT.bind, ExceptT.mk, ExceptT.bindCont, ExceptT.run, StateT.run,
    StateT.bind]
  cases m s with
  | mk result s' => cases result <;> rfl

/-- A composed run succeeds exactly when its first part does and the rest succeeds after it. -/
theorem run_bind_eq_ok {s s' : Ingestor} {m : IngestM α} {f : α → IngestM β} {b : β} :
    s.run (m >>= f) = (s', .ok b) ↔ ∃ s₁ a, s.run m = (s₁, .ok a) ∧ s₁.run (f a) = (s', .ok b) := by
  rw [run_bind]
  cases ran : s.run m with
  | mk s₁ result =>
    cases result with
    | ok a => simp [and_assoc]
    | error e => simp

@[simp] theorem run_ofTree (s : Ingestor) (x : Except TreeError α) :
    s.run (ofTree x) = (s, x.mapError fun e => .fatal (.tree e)) := by
  cases x <;> rfl

@[simp] theorem run_ofStore (s : Ingestor) (x : Except StoreError α) :
    s.run (ofStore x) = (s, x.mapError IndexError.store) := by
  cases x <;> rfl

@[simp] theorem run_normalize (s : Ingestor) (raw : String) :
    s.run (normalize raw) = (s, (Path.normalize raw).mapError fun e => .fatal (.invalidPath e)) := by
  unfold normalize
  cases Path.normalize raw <;> rfl

@[simp] theorem run_updateSchedule (s : Ingestor) (change : Schedule → Schedule) :
    s.run (updateSchedule change) = ({ s with schedule := change s.schedule }, .ok ()) := rfl

@[simp] theorem run_allocate (s : Ingestor) :
    s.run allocate = ({ s with lastId := NodeId.next s.lastId }, .ok (NodeId.next s.lastId)) := rfl

theorem run_ite (s : Ingestor) (c : Prop) [Decidable c] (m m' : IngestM α) :
    s.run (if c then m else m') = if c then s.run m else s.run m' := by
  split <;> rfl

theorem run_map (s : Ingestor) (f : α → β) (m : IngestM α) :
    s.run (f <$> m) = match s.run m with
      | (s', .ok a) => (s', .ok (f a))
      | (s', .error e) => (s', .error e) := by
  rw [← bind_pure_comp, run_bind]
  cases s.run m with
  | mk s' result => cases result <;> rfl

theorem run_createNode (s : Ingestor) (new : NewNode) :
    s.run (createNode new) = match s.tree.create new with
      | .ok (tree, _) => ({ s with tree := tree }, .ok ())
      | .error e => (s, .error (.fatal (.tree e))) := by
  unfold createNode
  rw [run_bind, run_get]
  simp only [run_bind, run_ofTree]
  cases s.tree.create new with
  | ok result => rfl
  | error e => rfl

/-- Taking the plan starts a new schedule; the plan is the old schedule's over the live tree. -/
theorem run_takePlan {s s' : Ingestor} {plan : Plan} (planned : s.run takePlan = (s', .ok plan)) :
    s' = { s with schedule := {} } ∧ Schedule.plan s.tree s.schedule = .ok plan := by
  unfold takePlan at planned
  rw [run_bind, run_get] at planned
  dsimp only at planned
  rw [run_bind, run_set] at planned
  dsimp only at planned
  cases made : Schedule.plan s.tree s.schedule with
  | error e =>
    rw [made] at planned
    simp at planned
  | ok p =>
    rw [made] at planned
    simp only [run_pure, Prod.mk.injEq, Except.ok.injEq] at planned
    exact ⟨planned.1.symm, by rw [planned.2]⟩

/-! ## Properties kept by successful runs -/

/-- Every successful run of `steps` from an ingestor satisfying `inv` ends in one satisfying it. -/
def Keeps (inv : Ingestor → Prop) (steps : IngestM α) : Prop :=
  ∀ s s' a, inv s → s.run steps = (s', .ok a) → inv s'

variable {inv : Ingestor → Prop}

theorem keeps_pure (a : α) : Keeps inv (pure a) := by
  intro s s' b holds ran
  simp only [run_pure, Prod.mk.injEq] at ran
  exact ran.1 ▸ holds

theorem keeps_throw (e : IndexError) : Keeps inv (throw e : IngestM α) := by
  intro s s' b holds ran
  simp at ran

/-- Steps that leave the ingestor as it is keep everything. -/
theorem keeps_of_run {steps : IngestM α} (same : ∀ s : Ingestor, (s.run steps).1 = s) :
    Keeps inv steps := by
  intro s s' a holds ran
  have unchanged := same s
  rw [ran] at unchanged
  subst unchanged
  exact holds

theorem Keeps.map {m : IngestM α} (keeps : Keeps inv m) (f : α → β) : Keeps inv (f <$> m) := by
  intro s s' b holds ran
  rw [run_map] at ran
  cases ranFirst : s.run m with
  | mk s₁ result =>
    rw [ranFirst] at ran
    cases result with
    | ok a =>
      simp only [Prod.mk.injEq] at ran
      rw [← ran.1]
      exact keeps s s₁ a holds ranFirst
    | error e => simp at ran

theorem Keeps.bind {m : IngestM α} {f : α → IngestM β} (first : Keeps inv m)
    (rest : ∀ a, Keeps inv (f a)) : Keeps inv (m >>= f) := by
  intro s s' b holds ran
  obtain ⟨s₁, a, ranFirst, ranRest⟩ := run_bind_eq_ok.1 ran
  exact rest a s₁ s' b (first s s₁ a holds ranFirst) ranRest

/-- Steps that read the ingestor first may rely on what they read being the ingestor. -/
theorem keeps_get_bind {f : Ingestor → IngestM β}
    (rest : ∀ s s' b, inv s → s.run (f s) = (s', .ok b) → inv s') : Keeps inv (get >>= f) := by
  intro s s' b holds ran
  rw [run_bind, run_get] at ran
  exact rest s s' b holds ran

theorem Keeps.ite {c : Prop} [Decidable c] {m m' : IngestM α} (yes : Keeps inv m)
    (no : Keeps inv m') : Keeps inv (if c then m else m') := by
  split
  · exact yes
  · exact no

theorem keeps_forM {xs : List α} {f : α → IngestM PUnit} (each : ∀ x ∈ xs, Keeps inv (f x)) :
    Keeps inv (xs.forM f) := by
  induction xs with
  | nil => exact keeps_pure _
  | cons x rest restKeeps =>
    show Keeps inv (f x >>= fun _ => rest.forM f)
    exact (each x List.mem_cons_self).bind fun _ =>
      restKeeps fun y mem => each y (List.mem_cons_of_mem x mem)

theorem keeps_mapM {xs : List α} {f : α → IngestM β} (each : ∀ x ∈ xs, Keeps inv (f x)) :
    Keeps inv (xs.mapM f) := by
  induction xs with
  | nil => exact keeps_pure _
  | cons x rest restKeeps =>
    rw [List.mapM_cons]
    exact (each x List.mem_cons_self).bind fun _ =>
      (restKeeps fun y mem => each y (List.mem_cons_of_mem x mem)).bind fun _ => keeps_pure _

/-! ## Steps that only read the ingestor -/

/-- Resolving a copy source reads the live tree and the store, and changes nothing. -/
theorem run_resolveSource (s : Ingestor) (store : Store) (revision : Revnum) (copy : CopySource) :
    (s.run (resolveSource store revision copy)).1 = s := by
  unfold resolveSource
  simp only [run_bind, run_normalize, run_ite, run_get, run_throw]
  cases Path.normalize copy.path with
  | error e => rfl
  | ok path =>
    simp only [Except.mapError_ok]
    split
    · rfl
    -- The store is asked when the live tree has no node at the path that old, in two places;
    -- whatever it answers, the answer is only read.
    have lookup : ∀ next : Option NodeRecord → IngestM Source,
        (s.run (next none)).1 = s → (∀ record, (s.run (next (some record))).1 = s) →
          (s.run (ofStore (store.lookupPath path copy.revision) >>= next)).1 = s := by
      intro next noneKeeps someKeeps
      rw [run_bind, run_ofStore]
      cases store.lookupPath path copy.revision with
      | error e => rfl
      | ok found =>
        cases found with
        | none => exact noneKeeps
        | some record => exact someKeeps record
    cases s.tree.find? path with
    | some node =>
      simp only
      split
      · rfl
      · exact lookup _ rfl fun record => by dsimp only; split <;> rfl
    | none => exact lookup _ rfl fun record => by dsimp only; split <;> rfl

end Ingestor
end TreeHistory
