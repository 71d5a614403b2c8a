import TreeHistory.Proofs.Ingest.Plan

/-!
# A revision applied before the last one was planned

`apply` refuses to start while the schedule holds an outdated node, a live created node, or
content; the ids of nodes created and dropped again, and their count in `discarded`, are not
looked at. A revision applied before the last plan was taken runs exactly as it would have after
(`apply_after_unplanned`), with the old schedule carried along (`Schedule.carry`), since each step
of `apply` commutes with carrying it (`Commutes`). The plan then taken is the revision's own,
except that its count of discarded nodes includes the earlier revision's
(`plan_after_unplanned_revision`).
-/

namespace TreeHistory

namespace Schedule

/-- The schedule `new` made on top of what `old` left. -/
def carry (old new : Schedule) : Schedule :=
  { new with created := old.created ++ new.created, discarded := old.discarded + new.discarded }

section
variable (old : Schedule)

@[simp] theorem carry_createdSet (schedule : Schedule) :
    (old.carry schedule).createdSet = schedule.createdSet := rfl

@[simp] theorem carry_synthesized (schedule : Schedule) :
    (old.carry schedule).synthesized = schedule.synthesized := rfl

theorem carry_create (schedule : Schedule) (id : NodeId) :
    (old.carry schedule).create id = old.carry (schedule.create id) := by
  simp [carry, create, List.append_assoc]

theorem carry_afterDrop (schedule : Schedule) (node : LiveNode) :
    (old.carry schedule).afterDrop node = old.carry (schedule.afterDrop node) := by
  by_cases created : node.id ∈ schedule.createdSet
  · rw [afterDrop_of_mem (old.carry schedule) node created, afterDrop_of_mem schedule node created]
    simp [carry, Nat.add_assoc]
  · rw [afterDrop_of_not_mem (old.carry schedule) node created,
      afterDrop_of_not_mem schedule node created]
    rfl

/-- Carried under a schedule, the leftovers of an earlier revision change only the count of
discarded nodes in the plan. -/
theorem plan_carry (tree : LiveTree) {schedule : Schedule}
    (apart : ∀ id ∈ old.created, id ∉ schedule.createdSet) :
    plan tree (old.carry schedule) =
      (plan tree schedule).map fun p => { p with discarded := old.discarded + p.discarded } := by
  have alive : (old.carry schedule).created.filter schedule.createdSet.contains =
      schedule.created.filter schedule.createdSet.contains := by
    rw [carry, List.filter_append, List.filter_eq_nil_iff.2 fun id mem => by simpa using apart id mem,
      List.nil_append]
  have nodes : createdNodes tree (old.carry schedule) = createdNodes tree schedule := by
    unfold createdNodes
    rw [carry_createdSet, alive]
    rfl
  unfold plan
  rw [nodes]
  cases createdNodes tree schedule with
  | error e => rfl
  | ok created => rfl

end

end Schedule

namespace Ingestor

variable {α β : Type} {shift : Schedule → Schedule}

/-- Steps that commute with changing the schedule by `shift`. -/
def Commutes (shift : Schedule → Schedule) (steps : IngestM α) : Prop :=
  ∀ s : Ingestor, ({ s with schedule := shift s.schedule } : Ingestor).run steps =
    ({ (s.run steps).1 with schedule := shift (s.run steps).1.schedule }, (s.run steps).2)

/-! ## Steps that commute with a change of schedule -/

/-- Steps that leave the ingestor as it is and whose result does not depend on it commute with
every change of schedule. -/
theorem commutes_of_run {steps : IngestM α} {result : Except IndexError α}
    (ran : ∀ s : Ingestor, s.run steps = (s, result)) : Commutes shift steps := by
  intro s
  rw [ran, ran]

theorem commutes_pure (a : α) : Commutes shift (pure a) :=
  commutes_of_run fun _ => rfl

theorem commutes_throw (e : IndexError) : Commutes shift (throw e : IngestM α) :=
  commutes_of_run fun _ => rfl

theorem commutes_ofTree (x : Except TreeError α) : Commutes shift (ofTree x) :=
  commutes_of_run fun s => run_ofTree s x

theorem commutes_ofStore (x : Except StoreError α) : Commutes shift (ofStore x) :=
  commutes_of_run fun s => run_ofStore s x

theorem commutes_normalize (raw : String) : Commutes shift (normalize raw) :=
  commutes_of_run fun s => run_normalize s raw

theorem Commutes.bind {m : IngestM α} {f : α → IngestM β} (first : Commutes shift m)
    (rest : ∀ a, Commutes shift (f a)) : Commutes shift (m >>= f) := by
  intro s
  rw [run_bind, first s, run_bind]
  cases s.run m with
  | mk s₁ result =>
    cases result with
    | ok a => exact rest a s₁
    | error e => rfl

theorem Commutes.map {m : IngestM α} (commutes : Commutes shift m) (f : α → β) :
    Commutes shift (f <$> m) := by
  rw [← bind_pure_comp]
  exact commutes.bind fun a => commutes_pure (f a)

/-- Steps that read the ingestor first commute when what they read is not changed by the shift,
and what follows commutes. -/
theorem commutes_get_bind {f : Ingestor → IngestM β}
    (reads : ∀ s : Ingestor, f { s with schedule := shift s.schedule } = f s)
    (rest : ∀ s, Commutes shift (f s)) : Commutes shift (get >>= f) := by
  intro s
  rw [run_bind, run_get, run_bind, run_get]
  dsimp only
  rw [reads, rest s s]

theorem Commutes.ite {c : Prop} [Decidable c] {m m' : IngestM α} (yes : Commutes shift m)
    (no : Commutes shift m') : Commutes shift (if c then m else m') := by
  split
  · exact yes
  · exact no

theorem commutes_forM {xs : List α} {f : α → IngestM PUnit}
    (each : ∀ x ∈ xs, Commutes shift (f x)) : Commutes shift (xs.forM f) := by
  induction xs with
  | nil => exact commutes_pure _
  | cons x rest restCommutes =>
    show Commutes shift (f x >>= fun _ => rest.forM f)
    exact (each x List.mem_cons_self).bind fun _ =>
      restCommutes fun y mem => each y (List.mem_cons_of_mem x mem)

theorem commutes_mapM {xs : List α} {f : α → IngestM β}
    (each : ∀ x ∈ xs, Commutes shift (f x)) : Commutes shift (xs.mapM f) := by
  induction xs with
  | nil => exact commutes_pure _
  | cons x rest restCommutes =>
    rw [List.mapM_cons]
    exact (each x List.mem_cons_self).bind fun _ =>
      (restCommutes fun y mem => each y (List.mem_cons_of_mem x mem)).bind fun _ => commutes_pure _

theorem commutes_updateSchedule {change : Schedule → Schedule}
    (comm : ∀ schedule, change (shift schedule) = shift (change schedule)) :
    Commutes shift (updateSchedule change) := by
  intro s
  rw [run_updateSchedule, run_updateSchedule]
  dsimp only
  rw [comm]

theorem commutes_allocate : Commutes shift allocate := fun _ => rfl

theorem commutes_createNode (new : NewNode) : Commutes shift (createNode new) := by
  intro s
  rw [run_createNode, run_createNode]
  cases s.tree.create new with
  | ok result => rfl
  | error e => rfl

/-! ## Every step of `apply` carries an old schedule along -/

section
variable (old : Schedule)

theorem commutes_delete (fuel : Nat) : ∀ path, Commutes old.carry (delete fuel path) := by
  -- On the depth left: the children are deleted first, then the node is dropped.
  induction fuel with
  | zero => exact fun _ => commutes_pure ()
  | succ fuel ih =>
    intro path
    rw [delete]
    refine commutes_get_bind (fun s => rfl) fun s₀ => (commutes_ofTree _).bind fun children =>
      (commutes_forM fun child _ => ih child).bind fun _ => ?_
    intro s
    simp only [run_bind, run_get, run_ofTree]
    cases s.tree.drop path with
    | error e => rfl
    | ok dropped =>
      -- The schedule is the one before the drop, after the drop.
      exact congrArg (fun schedule => (({ s with tree := dropped.1, schedule := schedule } : Ingestor),
        (.ok () : Except IndexError PUnit))) (Schedule.carry_afterDrop old s.schedule dropped.2)

theorem commutes_deleteTree (path : String) : Commutes old.carry (deleteTree path) := by
  unfold deleteTree
  exact commutes_get_bind (fun s => rfl) fun s => commutes_delete old _ path

theorem commutes_setContent (id : NodeId) (body : ContentBody) :
    Commutes old.carry
      (updateSchedule fun schedule => { schedule with content := schedule.content.set id body }) :=
  commutes_updateSchedule fun _ => rfl

theorem commutes_modifyFile (path : String) (change : Change) :
    Commutes old.carry (modifyFile path change) := by
  unfold modifyFile
  exact commutes_get_bind (fun s => rfl) fun s => (commutes_ofTree _).bind fun node =>
    Commutes.ite (commutes_setContent old _ _) (commutes_pure ())

theorem commutes_resolveSource (store : Store) (revision : Revnum) (copy : CopySource) :
    Commutes old.carry (resolveSource store revision copy) := by
  unfold resolveSource
  refine (commutes_normalize _).bind fun path => ?_
  dsimp only
  -- The live tree is read, and then perhaps the store; what either answers is only read.
  refine Commutes.ite ((commutes_throw _).bind fun _ => ?_) ?_ <;>
    refine commutes_get_bind (fun s => rfl) fun s => ?_ <;>
    split <;> (try refine Commutes.ite (commutes_pure _) ?_) <;>
    refine (commutes_ofStore _).bind fun found => ?_ <;>
    split
  all_goals first
    | exact Commutes.ite (commutes_pure _) (commutes_throw _)
    | exact commutes_throw _

theorem commutes_deepCopy (store : Store) (revision : Revnum) (fuel : Nat) :
    ∀ target source copyRevision,
      Commutes old.carry (deepCopy store revision fuel target source copyRevision) := by
  -- On the depth left: each child is created, recorded, and copied below.
  induction fuel with
  | zero => exact fun _ _ _ => commutes_pure ()
  | succ fuel ih =>
    intro target source copyRevision
    rw [deepCopy]
    refine (commutes_ofStore _).bind fun children => commutes_forM fun child _ => ?_
    refine commutes_allocate.bind fun id => (commutes_createNode _).bind fun _ =>
      (commutes_updateSchedule fun schedule => ?_).bind fun _ =>
        Commutes.ite (ih _ _ _) (commutes_pure ())
    rw [Schedule.carry_create]
    rfl

theorem commutes_add (store : Store) (revision : Revnum) (path : String) (change : Change) :
    Commutes old.carry (add store revision path change) := by
  unfold add
  dsimp only
  split <;> refine Commutes.bind ?_ fun source => ?_
  · exact (commutes_resolveSource old store revision _).map _
  rotate_left
  · exact commutes_pure _
  all_goals
    refine commutes_allocate.bind fun id => (commutes_createNode _).bind fun _ =>
      (commutes_updateSchedule fun schedule => Schedule.carry_create old schedule id).bind fun _ => ?_
    -- Content for a file, then the copy below a copied directory.
    refine Commutes.ite ((commutes_setContent old _ _).bind fun _ => ?_) ?_ <;> split
    all_goals first
      | exact Commutes.ite (commutes_deepCopy old store revision _ _ _ _) (commutes_pure ())
      | exact commutes_pure ()

theorem commutes_applyChange (store : Store) (revision : Revnum) (path : String) (change : Change) :
    Commutes old.carry (applyChange store revision path change) := by
  unfold applyChange
  split
  · split
    · exact commutes_pure ()
    · exact commutes_throw _
  · split
    · exact commutes_modifyFile old path change
    · exact commutes_deleteTree old path
    · -- A node a directory copy made at the path is deleted first; which nodes copies made is
      -- the same in both schedules.
      refine commutes_get_bind (fun s => rfl) fun s => ?_
      exact Commutes.ite ((commutes_deleteTree old path).bind fun _ =>
        commutes_add old store revision path change) (commutes_add old store revision path change)
    · exact (commutes_deleteTree old path).bind fun _ => commutes_add old store revision path change

end

/-! ## A revision applied on top of an unplanned one -/

/-- A schedule that passes the check of `apply`, stamped with a revision, is the fresh schedule
with it carried along. -/
theorem stamp_eq_carry {schedule : Schedule} (empty : schedule.isEmpty = true)
    (noSynthesized : schedule.synthesized = []) (revision : Revnum) :
    { schedule with revision := some revision } = schedule.carry { revision := some revision } := by
  simp only [Schedule.isEmpty, Bool.and_eq_true, List.isEmpty_iff] at empty
  obtain ⟨⟨noneOutdated, noneCreated⟩, noContent⟩ := empty
  cases schedule
  simp_all [Schedule.carry]

/-- Applying a change set on top of a schedule that was never planned runs as from the drained
schedule, with the old schedule carried along. -/
theorem apply_after_unplanned (store : Store) {s : Ingestor} {changeSet : ChangeSet}
    (valid : ¬(changeSet.revision < 1 ∨ changeSet.revision = Revnum.head))
    (unplanned : s.schedule.isEmpty = true) (noSynthesized : s.schedule.synthesized = []) :
    let applied := ({ s with schedule := {} } : Ingestor).run (apply store changeSet)
    s.run (apply store changeSet) =
      ({ applied.1 with schedule := s.schedule.carry applied.1.schedule }, applied.2) := by
  intro applied
  simp only [applied]
  -- Both runs pass the checks and stamp the revision; from there on they commute.
  unfold apply
  dsimp only
  rw [run_ite, if_neg valid, run_ite, if_neg valid, run_bind, run_get, run_bind, run_get]
  dsimp only
  rw [run_ite, if_neg (by simp [unplanned]), run_ite, if_neg (by decide), run_bind,
    run_updateSchedule, run_bind, run_updateSchedule]
  dsimp only
  rw [stamp_eq_carry unplanned noSynthesized]
  have rest : Commutes s.schedule.carry (do
      let normalized ← changeSet.changes.mapM fun change => do
        let path ← normalize change.path
        pure (path, change)
      (sortByPath normalized).forM fun entry =>
        applyChange store changeSet.revision entry.1 entry.2) :=
    (commutes_mapM fun change _ => (commutes_normalize _).bind fun path => commutes_pure _).bind
      fun normalized => commutes_forM fun entry _ =>
        commutes_applyChange s.schedule store _ entry.1 entry.2
  exact rest { s with schedule := { revision := some changeSet.revision } }

/-- The nodes counted as alive are among the nodes created. -/
theorem alive_created_stable (R : Revnum) :
    Stable R fun s : Ingestor => ∀ id ∈ s.schedule.createdSet, id ∈ s.schedule.created where
  drop s path dropped listed _ id alive := by
    simp only [Schedule.afterDrop_createdSet, Schedule.afterDrop_created] at alive ⊢
    exact listed id (List.mem_of_mem_erase alive)
  create s new created schedule listed _ _ _ creates id alive := by
    rw [creates.createdSet] at alive
    rw [creates.created]
    rcases List.mem_append.1 alive with before | made
    · exact List.mem_append_left _ (listed id before)
    · exact List.mem_append_right _ made
  setContent s node body listed _ _ := listed

/-- Taking the plan starts a new schedule, and gives the plan the schedule makes. -/
theorem run_takePlan_eq (s : Ingestor) :
    s.run takePlan = ({ s with schedule := {} }, Schedule.plan s.tree s.schedule) := by
  unfold takePlan
  rw [run_bind, run_get]
  dsimp only
  rw [run_bind, run_set]
  dsimp only
  cases Schedule.plan s.tree s.schedule with
  | error e => rfl
  | ok plan => rfl

/-- A revision applied before the last one was planned ends as it ends after the plan was taken,
with the old schedule carried along, and the plan taken then is the one it makes alone, with the
unplanned revision's count of discarded nodes added. This holds while the counter has room for
the ids the revision hands out. -/
theorem plan_after_unplanned_revision {store : Store} {N : Nat} (copies : CopiesWithin store N)
    {s : Ingestor} {changeSet : ChangeSet}
    (valid : ¬(changeSet.revision < 1 ∨ changeSet.revision = Revnum.head))
    (unplanned : s.schedule.isEmpty = true) (noSynthesized : s.schedule.synthesized = [])
    (counter : ∀ id ∈ s.schedule.created, id ≤ s.lastId) (nonneg : 0 ≤ s.lastId)
    (room : s.lastId + changeSet.changes.length * (N + 1) ≤ Revnum.head)
    {drained : Ingestor} {result : Except IndexError Unit}
    (alone : ({ s with schedule := {} } : Ingestor).run (apply store changeSet) = (drained, result)) :
    s.run (apply store changeSet) =
        ({ drained with schedule := s.schedule.carry drained.schedule }, result) ∧
      (result = .ok () →
        (s.run (apply store changeSet)).1.run takePlan =
          ((drained.run takePlan).1, (drained.run takePlan).2.map fun plan =>
            { plan with discarded := s.schedule.discarded + plan.discarded })) := by
  have carried : s.run (apply store changeSet) =
      ({ drained with schedule := s.schedule.carry drained.schedule }, result) := by
    rw [apply_after_unplanned store valid unplanned noSynthesized, alone]
  refine ⟨carried, fun succeeded => ?_⟩
  subst succeeded
  -- The revision alone hands out ids above the counter, and counts as alive only those.
  obtain ⟨-, -, fresh, createdEq, freshIds, -⟩ :=
    allocates_apply copies changeSet { s with schedule := {} } nonneg (by exact_mod_cast room)
  rw [alone] at createdEq freshIds
  have alive := (alive_created_stable changeSet.revision).of_apply
    (fun _ id mem => absurd mem List.not_mem_nil) alone
  have apart : ∀ id ∈ s.schedule.created, id ∉ drained.schedule.createdSet := by
    intro id old made
    have listed := alive id made
    rw [createdEq, List.nil_append] at listed
    have above := (freshIds id listed).1
    exact absurd (counter id old) (not_le.2 above)
  rw [carried, run_takePlan_eq, run_takePlan_eq]
  exact Prod.ext rfl (Schedule.plan_carry _ _ apart)

/-- Adding `/t` and deleting it in revision 1, then adding `/u` in revision 2 without taking the
plan of revision 1: the plan of revision 2 reports the node revision 1 discarded. -/
theorem unplanned_discard_reported_later :
    let first := ({} : Ingestor).run (apply (Reference.store {})
      { info := { id := 1, author := none, dateMs := 0, message := "" },
        changes := [{ path := "/t", action := .added, kind := .dir },
          { path := "/t", action := .deleted, kind := .dir }] })
    let second := first.1.run (apply (Reference.store {})
      { info := { id := 2, author := none, dateMs := 0, message := "" },
        changes := [{ path := "/u", action := .added, kind := .dir }] })
    second.2 = .ok () ∧
      (second.1.run takePlan).2.map (fun plan => (plan.revision, plan.discarded)) = .ok (some 2, 1) := by
  simp only [apply, sortByPath_eq_insertionSort]
  decide +kernel

/-- The same two revisions: the second makes the plan it makes alone, with the one node the first
discarded counted in. -/
theorem unplanned_discard_added_to_next_plan :
    let first := ({} : Ingestor).run (apply (Reference.store {})
      { info := { id := 1, author := none, dateMs := 0, message := "" },
        changes := [{ path := "/t", action := .added, kind := .dir },
          { path := "/t", action := .deleted, kind := .dir }] })
    let second : ChangeSet :=
      { info := { id := 2, author := none, dateMs := 0, message := "" },
        changes := [{ path := "/u", action := .added, kind := .dir }] }
    let alone := ({ first.1 with schedule := {} } : Ingestor).run (apply (Reference.store {}) second)
    alone.2 = .ok () ∧ first.1.schedule.discarded = 1 ∧
      (first.1.run (apply (Reference.store {}) second)).1.run takePlan =
        ((alone.1.run takePlan).1, (alone.1.run takePlan).2.map fun plan =>
          { plan with discarded := first.1.schedule.discarded + plan.discarded }) := by
  intro first second alone
  have ran : alone.2 = .ok () := by
    simp only [alone, first, second, apply, sortByPath_eq_insertionSort]
    decide +kernel
  -- What revision 1 left: nothing to store, one id created and discarded, the counter at 1.
  have left : first.1.schedule.isEmpty = true ∧ first.1.schedule.synthesized = [] ∧
      (∀ id ∈ first.1.schedule.created, id ≤ first.1.lastId) ∧ first.1.lastId = 1 ∧
      first.1.schedule.discarded = 1 := by
    simp only [first, apply, sortByPath_eq_insertionSort]
    decide +kernel
  obtain ⟨unplanned, noSynthesized, counter, lastOne, discardedOne⟩ := left
  have room : first.1.lastId + second.changes.length * ((Reference.store {}).nodeCount + 1) ≤
      Revnum.head := by
    rw [(Reference.holds {}).nodeCount, lastOne]
    decide
  refine ⟨ran, discardedOne, (plan_after_unplanned_revision
    (copiesWithin_of_forest (Reference.holds {}) fun _ => ⟨by simp, by simp⟩) (by decide) unplanned
    noSynthesized counter (by rw [lastOne]; decide) room Prod.mk.eta.symm).2 ran⟩

end Ingestor
end TreeHistory
