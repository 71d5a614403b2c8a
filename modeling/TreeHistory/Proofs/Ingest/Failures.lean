import Mathlib
import TreeHistory.Proofs.Ingest.Steps
import TreeHistory.Proofs.Store.Tables

/-!
# What applying a revision can fail with

The ingestor fails on a violation of the index's rules or on a store read, never on a revision out
of order. `FailsWith allowed steps` says every failed run of `steps` failed with an error `allowed`
admits, built up through binds, branches and loops (`failsWith_apply`, `failsWith_takePlan`). On a
store that holds its tables the reads succeed, so there applying a revision fails only on a
violation (`failsFatally_apply`).
-/

namespace TreeHistory

namespace Violation

/-- Whether the violation refuses a revision for coming after a later one. -/
def isOutOfOrder : Violation → Bool
  | .outOfOrder .. => true
  | _ => false

end Violation

namespace Ingestor

variable {α β : Type} {allowed : IndexError → Prop}

/-- Every failed run of `steps` fails with an error that `allowed` admits. -/
def FailsWith (allowed : IndexError → Prop) (steps : IngestM α) : Prop :=
  ∀ (s s' : Ingestor) e, s.run steps = (s', .error e) → allowed e

/-- Every failed run of `steps` fails on a violation of the index's rules. -/
def FailsFatally (steps : IngestM α) : Prop := FailsWith (fun e => ∃ v, e = .fatal v) steps

/-- `allowed` admits every violation but a revision out of order. -/
def AdmitsViolations (allowed : IndexError → Prop) : Prop :=
  ∀ v : Violation, v.isOutOfOrder = false → allowed (.fatal v)

/-- `allowed` admits every violation but a revision out of order, and every failure of the
store's lookups of a path and listings of children. -/
structure Admits (allowed : IndexError → Prop) (store : Store) : Prop where
  violations : AdmitsViolations allowed
  lookupPath : ∀ path r e, store.lookupPath path r = .error e → allowed (.store e)
  children : ∀ parent r e, store.children parent r = .error e → allowed (.store e)

/-! ## Composing -/

/-- Steps that always succeed fail with nothing. -/
theorem failsWith_of_ok {steps : IngestM α}
    (succeeds : ∀ s : Ingestor, ∃ s' a, s.run steps = (s', .ok a)) :
    FailsWith allowed steps := by
  intro s s' e failed
  obtain ⟨s₁, a, ran⟩ := succeeds s
  rw [ran] at failed
  simp at failed

theorem failsWith_pure (a : α) : FailsWith allowed (pure a : IngestM α) :=
  failsWith_of_ok fun s => ⟨s, a, rfl⟩

theorem failsWith_throw {e : IndexError} (admitted : allowed e) :
    FailsWith allowed (throw e : IngestM α) := by
  intro s s' e' failed
  simp only [run_throw, Prod.mk.injEq, Except.error.injEq] at failed
  exact failed.2 ▸ admitted

/-- An error stops the steps after it. -/
theorem failsWith_throw_bind {e : IndexError} (admitted : allowed e) (f : α → IngestM β) :
    FailsWith allowed (throw e >>= f) := by
  intro s s' e' failed
  rw [run_bind, run_throw] at failed
  simp only [Prod.mk.injEq, Except.error.injEq] at failed
  exact failed.2 ▸ admitted

theorem FailsWith.bind {m : IngestM α} {f : α → IngestM β} (first : FailsWith allowed m)
    (rest : ∀ a, FailsWith allowed (f a)) : FailsWith allowed (m >>= f) := by
  intro s s' e failed
  rw [run_bind] at failed
  cases ran : s.run m with
  | mk s₁ result =>
    rw [ran] at failed
    cases result with
    | ok a => exact rest a s₁ s' e failed
    | error e' =>
      simp only [Prod.mk.injEq, Except.error.injEq] at failed
      obtain ⟨rfl, rfl⟩ := failed
      exact first s s₁ e' ran

theorem FailsWith.map {m : IngestM α} (fails : FailsWith allowed m) (f : α → β) :
    FailsWith allowed (f <$> m) := by
  rw [← bind_pure_comp]
  exact fails.bind fun a => failsWith_pure (f a)

theorem failsWith_get_bind {f : Ingestor → IngestM β} (rest : ∀ s, FailsWith allowed (f s)) :
    FailsWith allowed (get >>= f) := by
  intro s s' e failed
  rw [run_bind, run_get] at failed
  exact rest s s s' e failed

theorem FailsWith.ite {c : Prop} [Decidable c] {m m' : IngestM α} (yes : FailsWith allowed m)
    (no : FailsWith allowed m') : FailsWith allowed (if c then m else m') := by
  split
  · exact yes
  · exact no

theorem failsWith_forM {xs : List α} {f : α → IngestM PUnit}
    (each : ∀ x ∈ xs, FailsWith allowed (f x)) : FailsWith allowed (xs.forM f) := by
  induction xs with
  | nil => exact failsWith_pure _
  | cons x rest restFails =>
    show FailsWith allowed (f x >>= fun _ => rest.forM f)
    exact (each x List.mem_cons_self).bind fun _ =>
      restFails fun y mem => each y (List.mem_cons_of_mem x mem)

theorem failsWith_mapM {xs : List α} {f : α → IngestM β}
    (each : ∀ x ∈ xs, FailsWith allowed (f x)) : FailsWith allowed (xs.mapM f) := by
  induction xs with
  | nil => exact failsWith_pure _
  | cons x rest restFails =>
    rw [List.mapM_cons]
    exact (each x List.mem_cons_self).bind fun _ =>
      (restFails fun y mem => each y (List.mem_cons_of_mem x mem)).bind fun _ =>
        failsWith_pure _

/-! ## The primitive steps -/

section
variable (violations : AdmitsViolations allowed)
include violations

theorem failsWith_ofTree (x : Except TreeError α) : FailsWith allowed (ofTree x) := by
  cases x with
  | ok a => exact failsWith_pure a
  | error e => exact failsWith_throw (violations _ rfl)

theorem failsWith_normalize (raw : String) : FailsWith allowed (normalize raw) := by
  unfold normalize
  split
  · exact failsWith_pure _
  · exact failsWith_throw (violations _ rfl)

theorem failsWith_createNode (new : NewNode) : FailsWith allowed (createNode new) := by
  unfold createNode
  exact failsWith_get_bind fun s => (failsWith_ofTree violations _).bind fun _ =>
    failsWith_of_ok fun s => ⟨_, _, run_set s _⟩

end

/-- A read of the store fails with what `allowed` admits of its failures. -/
theorem failsWith_ofStore {x : Except StoreError α}
    (admitted : ∀ e, x = .error e → allowed (.store e)) : FailsWith allowed (ofStore x) := by
  cases x with
  | ok a => exact failsWith_pure a
  | error e => exact failsWith_throw (admitted e rfl)

theorem failsWith_updateSchedule (change : Schedule → Schedule) :
    FailsWith allowed (updateSchedule change) :=
  failsWith_of_ok fun s => ⟨_, _, run_updateSchedule s change⟩

theorem failsWith_allocate : FailsWith allowed allocate :=
  failsWith_of_ok fun s => ⟨_, _, run_allocate s⟩

/-! ## Changing the tree -/

section
variable (violations : AdmitsViolations allowed)
include violations

theorem failsWith_delete : ∀ fuel path, FailsWith allowed (delete fuel path)
  | 0, _ => failsWith_pure ()
  | fuel + 1, path => by
    rw [delete]
    -- The children are dropped first, then the node; only the tree can refuse either.
    refine failsWith_get_bind fun s₀ => (failsWith_ofTree violations _).bind fun children => ?_
    refine (failsWith_forM fun child _ => failsWith_delete fuel child).bind fun _ => ?_
    refine failsWith_get_bind fun s => (failsWith_ofTree violations _).bind fun dropped => ?_
    exact failsWith_of_ok fun s => ⟨_, _, rfl⟩

theorem failsWith_deleteTree (path : String) : FailsWith allowed (deleteTree path) := by
  unfold deleteTree
  exact failsWith_get_bind fun s => failsWith_delete violations _ path

theorem failsWith_modifyFile (path : String) (change : Change) :
    FailsWith allowed (modifyFile path change) := by
  unfold modifyFile
  exact failsWith_get_bind fun s => (failsWith_ofTree violations _).bind fun node =>
    FailsWith.ite (failsWith_updateSchedule _) (failsWith_pure ())

end

/-! ## Reading the store -/

section
variable {store : Store} (admits : Admits allowed store)
include admits

/-- Resolving a copy source fails on a violation or on the store's lookup of the path. -/
theorem failsWith_resolveSource (revision : Revnum) (copy : CopySource) :
    FailsWith allowed (resolveSource store revision copy) := by
  unfold resolveSource
  refine (failsWith_normalize admits.violations _).bind fun path => ?_
  dsimp only
  refine FailsWith.ite (failsWith_throw_bind (admits.violations _ rfl) _) ?_
  refine failsWith_get_bind fun s₀ => ?_
  -- The live tree answers first; the store is asked when it has no node at the path that old.
  split
  on_goal 1 => refine FailsWith.ite (failsWith_pure _) ?_
  all_goals
    refine (failsWith_ofStore (admits.lookupPath path copy.revision)).bind fun found => ?_
    split
    · exact FailsWith.ite (failsWith_pure _) (failsWith_throw (admits.violations _ rfl))
    · exact failsWith_throw (admits.violations _ rfl)

/-- Copying a directory fails on a violation or on the store's listing of children. -/
theorem failsWith_deepCopy (revision copyRevision : Revnum) :
    ∀ fuel target source, FailsWith allowed (deepCopy store revision fuel target source copyRevision)
  | 0, _, _ => failsWith_pure ()
  | fuel + 1, target, source => by
    rw [deepCopy]
    refine (failsWith_ofStore (admits.children source copyRevision)).bind fun children => ?_
    refine failsWith_forM fun child _ => ?_
    refine failsWith_allocate.bind fun id => (failsWith_createNode admits.violations _).bind
      fun _ => (failsWith_updateSchedule _).bind fun _ => ?_
    exact FailsWith.ite (failsWith_deepCopy revision copyRevision fuel _ _) (failsWith_pure ())

theorem failsWith_add (revision : Revnum) (path : String) (change : Change) :
    FailsWith allowed (add store revision path change) := by
  unfold add
  dsimp only
  split <;> refine FailsWith.bind ?_ fun source => ?_
  · exact (failsWith_resolveSource admits revision _).map _
  rotate_left
  · exact failsWith_pure _
  all_goals
    refine failsWith_allocate.bind fun id => (failsWith_createNode admits.violations _).bind
      fun _ => (failsWith_updateSchedule _).bind fun _ => ?_
    refine FailsWith.ite ((failsWith_updateSchedule _).bind fun _ => ?_) ?_
    -- A copied directory takes what the store had under its source.
    all_goals
      split
      · exact FailsWith.ite (failsWith_deepCopy admits revision _ _ _ _) (failsWith_pure ())
      · exact failsWith_pure ()

theorem failsWith_applyChange (revision : Revnum) (path : String) (change : Change) :
    FailsWith allowed (applyChange store revision path change) := by
  unfold applyChange
  split
  · split
    · exact failsWith_pure ()
    · exact failsWith_throw (admits.violations _ rfl)
  · split
    · exact failsWith_modifyFile admits.violations path change
    · exact failsWith_deleteTree admits.violations path
    · refine failsWith_get_bind fun s => ?_
      dsimp only
      exact FailsWith.ite ((failsWith_deleteTree admits.violations path).bind fun _ =>
        failsWith_add admits revision path change) (failsWith_add admits revision path change)
    · exact (failsWith_deleteTree admits.violations path).bind fun _ =>
        failsWith_add admits revision path change

/-- Applying a revision fails on a violation other than one out of order, or on a read of the
store. -/
theorem failsWith_apply (changeSet : ChangeSet) : FailsWith allowed (apply store changeSet) := by
  unfold apply
  dsimp only
  refine FailsWith.ite (failsWith_throw_bind (admits.violations _ rfl) _)
    (failsWith_get_bind fun s => ?_)
  split
  · exact failsWith_throw_bind (admits.violations _ rfl) _
  refine (failsWith_updateSchedule _).bind fun _ => ?_
  refine (failsWith_mapM fun change _ => (failsWith_normalize admits.violations _).bind
    fun path => failsWith_pure _).bind fun normalized => ?_
  exact failsWith_forM fun entry _ => failsWith_applyChange admits _ entry.1 entry.2

end

/-- A traversal that fails, fails with the error of one of its steps. -/
theorem mapM_eq_error {ε γ δ : Type} {f : γ → Except ε δ} {e : ε} :
    ∀ {xs : List γ}, xs.mapM f = .error e → ∃ x ∈ xs, f x = .error e
  | [], failed => by simp [pure, Except.pure] at failed
  | x :: rest, failed => by
    rw [List.mapM_cons] at failed
    cases first : f x with
    | error e' =>
      rw [first] at failed
      simp only [bind, Except.bind, Except.error.injEq] at failed
      exact ⟨x, List.mem_cons_self, failed ▸ first⟩
    | ok y =>
      rw [first] at failed
      simp only [bind, Except.bind] at failed
      cases restRan : rest.mapM f with
      | error e' =>
        rw [restRan] at failed
        simp only [Except.error.injEq] at failed
        obtain ⟨z, zMem, failing⟩ := mapM_eq_error (failed ▸ restRan)
        exact ⟨z, List.mem_cons_of_mem _ zMem, failing⟩
      | ok ys =>
        rw [restRan] at failed
        simp [pure, Except.pure] at failed

/-- A plan fails only on a created node missing from the tree. -/
theorem plan_eq_error {tree : LiveTree} {schedule : Schedule} {e : IndexError}
    (failed : Schedule.plan tree schedule = .error e) : ∃ id, e = .fatal (.tree (.unknownNode id)) := by
  unfold Schedule.plan at failed
  cases made : Schedule.createdNodes tree schedule with
  | error e' =>
    rw [made] at failed
    simp only [bind, Except.bind, Except.error.injEq] at failed
    subst failed
    unfold Schedule.createdNodes at made
    obtain ⟨id, -, lookedUp⟩ := mapM_eq_error made
    split at lookedUp
    · simp at lookedUp
    · simp only [Except.error.injEq] at lookedUp
      exact ⟨_, lookedUp.symm⟩
  | ok nodes =>
    rw [made] at failed
    simp [bind, Except.bind, pure, Except.pure] at failed

/-- Taking the plan fails only on a created node missing from the tree. -/
theorem failsWith_takePlan (violations : AdmitsViolations allowed) :
    FailsWith allowed takePlan := by
  unfold takePlan
  refine failsWith_get_bind fun s => ?_
  refine (failsWith_of_ok fun s => ⟨_, _, run_set s _⟩).bind fun _ => ?_
  split
  · exact failsWith_pure _
  · rename_i e planned
    obtain ⟨id, rfl⟩ := plan_eq_error planned
    exact failsWith_throw (violations _ rfl)

/-! ## On a store that holds its tables -/

variable {engine : Engine} {lawful : engine.Lawful} {store : Store} {t : Tables} {txOpen : Bool}

/-- A store that holds its tables answers every read, so only violations remain. -/
theorem admits_fatal (holds : store.Holds lawful t txOpen) :
    Admits (fun e => ∃ v, e = .fatal v) store where
  violations v _ := ⟨v, rfl⟩
  lookupPath path r e failed := by
    rcases @Store.Holds.firstNode _ _ _ _ _ holds (.lookupPath path r) _ (fun _ answers => answers)
      with ⟨-, found⟩ | ⟨best, -, found, -⟩ <;>
    exact absurd (found.symm.trans failed) (by simp)
  children parent r e failed := by
    obtain ⟨rows, listed, -⟩ := holds.children parent r
    exact absurd (listed.symm.trans failed) (by simp)

/-- Applying a revision against a store that holds its tables fails only on a violation. -/
theorem failsFatally_apply (holds : store.Holds lawful t txOpen) (changeSet : ChangeSet) :
    FailsFatally (apply store changeSet) :=
  failsWith_apply (admits_fatal holds) changeSet

/-- Taking the plan fails only on a violation. -/
theorem failsFatally_takePlan : FailsFatally takePlan :=
  failsWith_takePlan fun v _ => ⟨v, rfl⟩

end Ingestor
end TreeHistory
