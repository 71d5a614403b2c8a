import Mathlib
import TreeHistory.Proofs.Ingest.Steps
import TreeHistory.Proofs.Store.Tables

/-!
# Ids handed out by a revision

Node ids come from a counter that `allocate` steps with 64-bit arithmetic. `Allocates steps k`
bounds the ids `steps` hands out: from an ingestor with room for `k` more, every run moves the
counter up by at most `k` and records as created only ids it handed out. Applying a change set
hands out at most `N + 1` ids a change when no copy reads more than `N` rows (`allocates_apply`,
`CopiesWithin`).
-/

namespace TreeHistory

/-- Below the largest 64-bit value, the next id is one more. -/
theorem NodeId.next_of_lt {id : NodeId} (nonneg : 0 ≤ id) (below : id < Revnum.head) :
    NodeId.next id = id + 1 := by
  unfold NodeId.next
  unfold Revnum.head NodeId at *
  exact wrap64_of_mem _ (by omega) (by omega)

namespace Ingestor

variable {α β : Type}

/-- A run of `steps` from `s` with room for `k` more ids moves the counter up by at most `k`, and
records as created only ids above where it was, in increasing order. -/
def AllocatesFrom (s : Ingestor) (steps : IngestM α) (k : Nat) : Prop :=
  0 ≤ s.lastId → s.lastId + k ≤ Revnum.head →
    s.lastId ≤ (s.run steps).1.lastId ∧ (s.run steps).1.lastId ≤ s.lastId + k ∧
      ∃ fresh, (s.run steps).1.schedule.created = s.schedule.created ++ fresh ∧
        (∀ id ∈ fresh, s.lastId < id ∧ id ≤ (s.run steps).1.lastId) ∧ fresh.Pairwise (· < ·)

/-- `steps` hands out at most `k` ids, from any ingestor. -/
def Allocates (steps : IngestM α) (k : Nat) : Prop := ∀ s, AllocatesFrom s steps k

/-! ## Composing bounds -/

/-- Steps that keep the counter and the list of created nodes hand out nothing. -/
theorem allocatesFrom_of_run {s : Ingestor} {steps : IngestM α}
    (lastId : (s.run steps).1.lastId = s.lastId)
    (created : (s.run steps).1.schedule.created = s.schedule.created) :
    AllocatesFrom s steps 0 := by
  intro _ _
  rw [lastId, created]
  exact ⟨Int.le_refl _, by unfold NodeId; omega, [], by rw [List.append_nil], by simp,
    List.Pairwise.nil⟩

/-- Steps that leave the ingestor as it is hand out nothing. -/
theorem allocates_of_run {steps : IngestM α} (same : ∀ s : Ingestor, (s.run steps).1 = s) :
    Allocates steps 0 :=
  fun s => allocatesFrom_of_run (by rw [same]) (by rw [same])

theorem allocates_pure (a : α) : Allocates (pure a : IngestM α) 0 :=
  allocates_of_run fun _ => rfl

theorem allocates_throw (e : IndexError) : Allocates (throw e : IngestM α) 0 :=
  allocates_of_run fun _ => rfl

theorem AllocatesFrom.mono {s : Ingestor} {steps : IngestM α} {k k' : Nat}
    (allocates : AllocatesFrom s steps k) (le : k ≤ k') : AllocatesFrom s steps k' := by
  intro nonneg room
  have roomK : s.lastId + k ≤ Revnum.head := by unfold NodeId at *; omega
  obtain ⟨up, within, fresh, created, freshIds, sorted⟩ := allocates nonneg roomK
  exact ⟨up, by unfold NodeId at *; omega, fresh, created, freshIds, sorted⟩

theorem Allocates.mono {steps : IngestM α} {k k' : Nat} (allocates : Allocates steps k)
    (le : k ≤ k') : Allocates steps k' :=
  fun s => (allocates s).mono le

/-- The ids of a composed run are those of its first part and, after it, of the rest. -/
theorem AllocatesFrom.bind {s : Ingestor} {m : IngestM α} {f : α → IngestM β} {a b : Nat}
    (first : AllocatesFrom s m a)
    (rest : ∀ s₁ x, s.run m = (s₁, .ok x) → AllocatesFrom s₁ (f x) b) :
    AllocatesFrom s (m >>= f) (a + b) := by
  intro nonneg room
  have roomFirst : s.lastId + a ≤ Revnum.head := by unfold NodeId at *; omega
  obtain ⟨up, within, fresh, created, freshIds, sorted⟩ := first nonneg roomFirst
  rw [run_bind]
  cases ran : s.run m with
  | mk s₁ result =>
    rw [ran] at up within created freshIds
    cases result with
    | error e =>
      exact ⟨up, by dsimp only at within ⊢; unfold NodeId at *; omega, fresh, created, freshIds,
        sorted⟩
    | ok x =>
      dsimp only at up within created freshIds ⊢
      -- The rest starts where the first part left the counter, with the room that is left.
      have nonneg₁ : 0 ≤ s₁.lastId := by unfold NodeId at *; omega
      have room₁ : s₁.lastId + b ≤ Revnum.head := by unfold NodeId at *; omega
      obtain ⟨up₁, within₁, fresh₁, created₁, freshIds₁, sorted₁⟩ := rest s₁ x ran nonneg₁ room₁
      refine ⟨Int.le_trans up up₁, by unfold NodeId at *; omega, fresh ++ fresh₁, ?_,
        fun id mem => ?_, ?_⟩
      · rw [created₁, created, List.append_assoc]
      · rcases List.mem_append.1 mem with mem | mem
        · have := freshIds id mem
          unfold NodeId at *
          omega
        · have := freshIds₁ id mem
          unfold NodeId at *
          omega
      · -- The first part's ids are at most where it left the counter, the rest's above it.
        refine List.pairwise_append.2 ⟨sorted, sorted₁, fun id mem id₁ mem₁ => ?_⟩
        have := freshIds id mem
        have := freshIds₁ id₁ mem₁
        unfold NodeId at *
        omega

theorem Allocates.bind {m : IngestM α} {f : α → IngestM β} {a b : Nat} (first : Allocates m a)
    (rest : ∀ x, Allocates (f x) b) : Allocates (m >>= f) (a + b) :=
  fun s => (first s).bind fun s₁ x _ => rest x s₁

/-- Steps that hand out nothing before the rest cost what the rest does. -/
theorem Allocates.bind_free {m : IngestM α} {f : α → IngestM β} {k : Nat} (first : Allocates m 0)
    (rest : ∀ x, Allocates (f x) k) : Allocates (m >>= f) k :=
  (first.bind rest).mono (by omega)

/-- Steps that read the ingestor first may rely on what they read being the ingestor. -/
theorem allocates_get_bind {f : Ingestor → IngestM β} {k : Nat}
    (rest : ∀ s, AllocatesFrom s (f s) k) : Allocates (get >>= f) k := by
  intro s
  have read : s.run (get >>= f) = s.run (f s) := by rw [run_bind, run_get]
  intro nonneg room
  rw [read]
  exact rest s nonneg room

theorem Allocates.ite {c : Prop} [Decidable c] {m m' : IngestM α} {k : Nat}
    (yes : Allocates m k) (no : Allocates m' k) : Allocates (if c then m else m') k := by
  split
  · exact yes
  · exact no

/-- A branch hands out what the branch taken does. -/
theorem Allocates.ite_cost {c : Prop} [Decidable c] {m m' : IngestM α} {k k' : Nat}
    (yes : Allocates m k) (no : Allocates m' k') :
    Allocates (if c then m else m') (if c then k else k') := by
  split
  · exact yes
  · exact no

theorem Allocates.map {m : IngestM α} {k : Nat} (allocates : Allocates m k) (f : α → β) :
    Allocates (f <$> m) k := by
  rw [← bind_pure_comp]
  exact (allocates.bind fun a => allocates_pure (f a)).mono (by omega)

/-- A loop over a list hands out at most what its passes do together. -/
theorem allocates_forM {xs : List α} {f : α → IngestM PUnit} {cost : α → Nat}
    (each : ∀ x ∈ xs, Allocates (f x) (cost x)) : Allocates (xs.forM f) (xs.map cost).sum := by
  induction xs with
  | nil => exact allocates_pure _
  | cons x rest restAllocates =>
    show Allocates (f x >>= fun _ => rest.forM f) _
    rw [List.map_cons, List.sum_cons]
    exact (each x List.mem_cons_self).bind fun _ =>
      restAllocates fun y mem => each y (List.mem_cons_of_mem x mem)

theorem allocates_forM_free {xs : List α} {f : α → IngestM PUnit}
    (each : ∀ x ∈ xs, Allocates (f x) 0) : Allocates (xs.forM f) 0 := by
  induction xs with
  | nil => exact allocates_pure _
  | cons x rest restAllocates =>
    exact (each x List.mem_cons_self).bind_free fun _ =>
      restAllocates fun y mem => each y (List.mem_cons_of_mem x mem)

/-- Handing out an id, creating a node with it and recording the creation hands out one id more
than what follows, and records an id above the counter. -/
theorem allocates_create {new : NodeId → NewNode} {change : NodeId → Schedule → Schedule}
    (created : ∀ id schedule, (change id schedule).created = schedule.created ++ [id])
    {rest : NodeId → IngestM β} {k : Nat} (restAllocates : ∀ id, Allocates (rest id) k) :
    Allocates (do
      let id ← allocate
      createNode (new id)
      updateSchedule (change id)
      rest id) (k + 1) := by
  intro s nonneg room
  -- With room for one more id, the counter steps up by one without wrapping.
  have next : NodeId.next s.lastId = s.lastId + 1 :=
    NodeId.next_of_lt nonneg (by unfold NodeId at *; omega)
  rw [run_bind, run_allocate, next]
  dsimp only
  rw [run_bind, run_createNode]
  cases madeTree : s.tree.create (new (s.lastId + 1)) with
  | error e =>
    dsimp only
    exact ⟨by unfold NodeId; omega, by unfold NodeId at *; omega, [], by rw [List.append_nil],
      by simp, List.Pairwise.nil⟩
  | ok result =>
    dsimp only
    rw [run_bind, run_updateSchedule]
    dsimp only
    have nonneg₁ : 0 ≤ s.lastId + 1 := by unfold NodeId at *; omega
    have room₁ : s.lastId + 1 + k ≤ Revnum.head := by unfold NodeId at *; omega
    obtain ⟨up, within, fresh, restCreated, freshIds, sorted⟩ :=
      restAllocates (s.lastId + 1) {
        s with lastId := s.lastId + 1, tree := result.1,
               schedule := change (s.lastId + 1) s.schedule } nonneg₁ room₁
    dsimp only at up within restCreated freshIds
    refine ⟨by unfold NodeId at *; omega, by unfold NodeId at *; omega, (s.lastId + 1) :: fresh,
      ?_, fun id mem => ?_, List.pairwise_cons.2 ⟨fun id mem => (freshIds id mem).1, sorted⟩⟩
    · rw [restCreated, created]
      simp
    · rcases List.mem_cons.1 mem with rfl | mem
      · unfold NodeId at *
        omega
      · have := freshIds id mem
        unfold NodeId at *
        omega

/-- A change to the schedule that keeps its list of created nodes hands out nothing. -/
theorem allocates_updateSchedule {change : Schedule → Schedule}
    (created : ∀ schedule, (change schedule).created = schedule.created) :
    Allocates (updateSchedule change) 0 :=
  fun s => allocatesFrom_of_run rfl (created s.schedule)

/-- A run of a traversal that succeeds gives one result for each element. -/
theorem length_of_run_mapM {xs : List α} {f : α → IngestM β} :
    ∀ {s s' : Ingestor} {ys : List β}, s.run (xs.mapM f) = (s', .ok ys) → ys.length = xs.length := by
  induction xs with
  | nil =>
    intro s s' ys ran
    simp only [List.mapM_nil, run_pure, Prod.mk.injEq, Except.ok.injEq] at ran
    rw [← ran.2]
    rfl
  | cons x rest restLength =>
    intro s s' ys ran
    rw [List.mapM_cons] at ran
    obtain ⟨s₁, y, -, ran⟩ := run_bind_eq_ok.1 ran
    obtain ⟨s₂, ys', restRan, ran⟩ := run_bind_eq_ok.1 ran
    simp only [run_pure, Prod.mk.injEq, Except.ok.injEq] at ran
    rw [← ran.2, List.length_cons, List.length_cons, restLength restRan]

theorem allocates_mapM {xs : List α} {f : α → IngestM β} (each : ∀ x ∈ xs, Allocates (f x) 0) :
    Allocates (xs.mapM f) 0 := by
  induction xs with
  | nil => exact allocates_pure _
  | cons x rest restAllocates =>
    rw [List.mapM_cons]
    exact (each x List.mem_cons_self).bind_free fun _ =>
      (restAllocates fun y mem => each y (List.mem_cons_of_mem x mem)).bind_free fun _ =>
        allocates_pure _

/-! ## Steps that hand out nothing -/

@[simp] theorem created_discard (schedule : Schedule) (id : NodeId) :
    (schedule.discard id).1.created = schedule.created := by
  unfold Schedule.discard
  split <;> rfl

theorem allocates_delete : ∀ fuel path, Allocates (delete fuel path) 0
  | 0, _ => allocates_pure ()
  | fuel + 1, path => by
    rw [delete]
    refine (allocates_of_run fun s => rfl).bind_free fun s₀ => ?_
    refine (allocates_of_run fun s => by simp).bind_free fun children => ?_
    refine (allocates_forM_free fun child _ => allocates_delete fuel child).bind_free fun _ => ?_
    -- Dropping the node changes the tree and what the schedule outdates or discards, not the
    -- counter or the list of created nodes.
    refine allocates_get_bind fun s => allocatesFrom_of_run ?_ ?_
    · rw [run_bind, run_ofTree]
      cases s.tree.drop path with
      | error e => rfl
      | ok dropped => simp [run_set]
    · rw [run_bind, run_ofTree]
      cases s.tree.drop path with
      | error e => rfl
      | ok dropped =>
        simp only [Except.mapError_ok, run_set]
        split <;> simp

theorem allocates_deleteTree (path : String) : Allocates (deleteTree path) 0 := by
  unfold deleteTree
  exact (allocates_of_run fun s => rfl).bind_free fun s => allocates_delete _ path

theorem allocates_modifyFile (path : String) (change : Change) :
    Allocates (modifyFile path change) 0 := by
  unfold modifyFile
  refine (allocates_of_run fun s => rfl).bind_free fun s₀ => ?_
  refine (allocates_of_run fun s => by simp).bind_free fun node => ?_
  exact Allocates.ite (allocates_updateSchedule fun schedule => rfl) (allocates_pure ())

/-! ## Copies -/

/-- How many ids copying the rows under `source` hands out. -/
def copyCount (store : Store) (copyRevision : Revnum) : Nat → NodeId → Nat
  | 0, _ => 0
  | fuel + 1, source =>
    (((store.children source copyRevision).toOption.getD []).map fun child =>
      (if child.kind.isDir then copyCount store copyRevision fuel child.id else 0) + 1).sum

theorem allocates_deepCopy (store : Store) (revision copyRevision : Revnum) :
    ∀ fuel target source, Allocates (deepCopy store revision fuel target source copyRevision)
      (copyCount store copyRevision fuel source)
  | 0, _, _ => allocates_pure ()
  | fuel + 1, target, source => by
    rw [deepCopy, copyCount]
    cases listed : store.children source copyRevision with
    | error e => exact allocates_of_run fun s => rfl
    | ok children =>
      have read : (ofStore (.ok children) : IngestM (List NodeRecord)) = pure children := rfl
      have listedRows : (Except.ok children : Except StoreError _).toOption.getD [] = children := rfl
      rw [read, pure_bind, listedRows]
      refine allocates_forM fun child _ => ?_
      dsimp only
      exact allocates_create (fun id schedule => rfl) fun id =>
        Allocates.ite_cost (allocates_deepCopy store revision copyRevision fuel _ _) (allocates_pure ())

/-! ## Applying a change set -/

theorem allocates_resolveSource (store : Store) (revision : Revnum) (copy : CopySource) :
    Allocates (resolveSource store revision copy) 0 :=
  allocates_of_run fun s => run_resolveSource s store revision copy

section
variable (store : Store)

/-- Copies out of `store` read at most `N` rows, where `N` bounds how many ids a copy may take. -/
def CopiesWithin (N : Nat) : Prop :=
  ∀ copyRevision source, copyCount store copyRevision (store.nodeCount + 1) source ≤ N

variable {store} {N : Nat}

/-- Adding a node hands out its id and, for a copied directory, one per row the copy reads. -/
theorem allocates_add (copies : CopiesWithin store N) (revision : Revnum) (path : String)
    (change : Change) : Allocates (add store revision path change) (N + 1) := by
  unfold add
  dsimp only
  -- The source is looked up without handing out an id.
  split
  on_goal 1 =>
    refine Allocates.bind_free ((allocates_resolveSource store revision _).map _) fun source => ?_
  on_goal 2 => refine Allocates.bind_free (allocates_pure none) fun source => ?_
  -- Then the node takes an id, and only a copied directory hands out more.
  all_goals
    refine allocates_create (fun id schedule => rfl) fun id => ?_
    refine Allocates.ite (Allocates.bind_free (allocates_updateSchedule fun _ => ?_) fun _ => ?_) ?_
    · rfl
    all_goals
      split
      · exact Allocates.ite ((allocates_deepCopy store revision _ _ _ _).mono (copies _ _))
          ((allocates_pure ()).mono (Nat.zero_le N))
      · exact (allocates_pure ()).mono (Nat.zero_le N)

theorem allocates_applyChange (copies : CopiesWithin store N) (revision : Revnum)
    (path : String) (change : Change) :
    Allocates (applyChange store revision path change) (N + 1) := by
  unfold applyChange
  split
  · split
    · exact (allocates_pure ()).mono (Nat.zero_le _)
    · exact (allocates_throw _).mono (Nat.zero_le _)
  · split
    · exact (allocates_modifyFile path change).mono (Nat.zero_le _)
    · exact (allocates_deleteTree path).mono (Nat.zero_le _)
    · refine (allocates_of_run fun s => rfl).bind_free fun s => ?_
      -- A synthesized node at the path is dropped first, which hands out nothing.
      dsimp only
      exact Allocates.ite
        ((allocates_deleteTree path).bind_free fun _ => allocates_add copies revision path change)
        (allocates_add copies revision path change)
    · exact (allocates_deleteTree path).bind_free fun _ => allocates_add copies revision path change

/-- Applying a change set hands out at most `N + 1` ids a change. -/
theorem allocates_apply (copies : CopiesWithin store N) (changeSet : ChangeSet) :
    Allocates (apply store changeSet) (changeSet.changes.length * (N + 1)) := by
  have refused : ∀ (e : IndexError) (rest : PUnit → IngestM PUnit),
      Allocates (throw e >>= rest) (changeSet.changes.length * (N + 1)) :=
    fun e rest => (allocates_of_run fun s => rfl).mono (Nat.zero_le _)
  -- Each change, in order of path, hands out at most `N + 1` ids.
  have changes : Allocates (do
      let normalized ← changeSet.changes.mapM fun change => do
        let path ← normalize change.path
        pure (path, change)
      (sortByPath normalized).forM fun x => applyChange store changeSet.revision x.1 x.2)
      (changeSet.changes.length * (N + 1)) := by
    intro s
    rw [← Nat.zero_add (changeSet.changes.length * (N + 1))]
    refine ((allocates_mapM fun change _ => ?_) s).bind fun s₁ normalized normalizing => ?_
    · exact (allocates_of_run fun s => by cases normalized : Path.normalize change.path <;>
        simp [normalize, normalized]).bind_free fun path => allocates_pure _
    have counted : changeSet.changes.length * (N + 1) =
        ((sortByPath normalized).map fun _ => N + 1).sum := by
      rw [List.map_const', List.sum_replicate, sortByPath, List.length_mergeSort,
        length_of_run_mapM normalizing, smul_eq_mul]
    rw [counted]
    exact allocates_forM (fun x _ => allocates_applyChange copies changeSet.revision x.1 x.2) s₁
  unfold apply
  dsimp only
  refine Allocates.ite (refused _ _) (allocates_get_bind fun s => ?_)
  split
  · exact refused _ _ s
  · refine (Allocates.bind_free (allocates_updateSchedule fun _ => ?_) fun _ => changes) s
    rfl

end

end Ingestor
end TreeHistory
