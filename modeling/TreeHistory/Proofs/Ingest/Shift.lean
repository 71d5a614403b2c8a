import Mathlib
import TreeHistory.Proofs.Tree.Relabel
import TreeHistory.Proofs.Ingest.Allocation
import TreeHistory.Proofs.Ingest.Stable

/-!
# Applying a revision with its new ids shifted

Ingestion compares node ids only for equality, and orders them only in the content map. Two
ingestors alike but for the ids above `m` being `k` larger in the second (`NodeId.shift m k`),
with counters `k` apart, therefore apply a revision alike (`Ingestor.Shifted`, `Simulates`). Copy
sources keep their ids on both sides, as they are older than the revision (`Shifted.fresh`).
-/

namespace TreeHistory

variable {f : NodeId → NodeId}

namespace ContentMap

/-- The content map with its ids renamed by `f`. -/
def rename (f : NodeId → NodeId) (map : ContentMap) : ContentMap :=
  map.map fun entry => (f entry.1, entry.2)

theorem get?_rename (inj : Function.Injective f) (map : ContentMap) (id : NodeId) :
    (map.rename f).get? (f id) = map.get? id := by
  simp [rename, get?, List.find?_map, Function.comp_def, beq_rename inj, Option.map_map]

theorem erase_rename (inj : Function.Injective f) (map : ContentMap) (id : NodeId) :
    (map.rename f).erase (f id) = (map.erase id).rename f := by
  simp [rename, erase, List.filter_map, Function.comp_def, bne_rename inj]

/-- Setting content keeps the map sorted by id, which a strictly increasing renaming keeps. -/
theorem set_rename (mono : StrictMono f) (map : ContentMap) (id : NodeId) (body : ContentBody) :
    (map.rename f).set (f id) body = (map.set id body).rename f := by
  unfold set
  rw [erase_rename mono.injective]
  simp [rename, List.filter_map, Function.comp_def, mono.lt_iff_lt]

@[simp] theorem isEmpty_rename (map : ContentMap) : (map.rename f).isEmpty = map.isEmpty := by
  simp [rename]

end ContentMap

namespace Schedule

/-- The schedule with every id it holds renamed by `f`. -/
def rename (f : NodeId → NodeId) (schedule : Schedule) : Schedule :=
  { schedule with outdated := schedule.outdated.map fun entry => (f entry.1, entry.2),
                  created := schedule.created.map f, createdSet := schedule.createdSet.map f,
                  synthesized := schedule.synthesized.map f, content := schedule.content.rename f }

section
variable (schedule : Schedule)

@[simp] theorem rename_created : (schedule.rename f).created = schedule.created.map f := rfl
@[simp] theorem rename_createdSet : (schedule.rename f).createdSet = schedule.createdSet.map f :=
  rfl
@[simp] theorem rename_synthesized :
    (schedule.rename f).synthesized = schedule.synthesized.map f := rfl
@[simp] theorem rename_content : (schedule.rename f).content = schedule.content.rename f := rfl

@[simp] theorem isEmpty_rename : (schedule.rename f).isEmpty = schedule.isEmpty := by
  simp [isEmpty, rename]

theorem create_rename (id : NodeId) : (schedule.rename f).create (f id) = (schedule.create id).rename f := by
  simp [create, rename]

theorem afterDrop_rename (inj : Function.Injective f) (node : LiveNode) :
    (schedule.rename f).afterDrop (node.rename f) = (schedule.afterDrop node).rename f := by
  by_cases created : node.id ∈ schedule.createdSet
  · have created' : (node.rename f).id ∈ (schedule.rename f).createdSet :=
      List.mem_map_of_mem created
    rw [afterDrop_of_mem _ _ created', afterDrop_of_mem _ _ created]
    simp [rename, ContentMap.erase_rename inj, List.map_erase inj]
  · have created' : (node.rename f).id ∉ (schedule.rename f).createdSet := by
      simp [inj.eq_iff, created]
    rw [afterDrop_of_not_mem _ _ created', afterDrop_of_not_mem _ _ created]
    simp [rename, ContentMap.erase_rename inj]

theorem createdContent_rename (inj : Function.Injective f) (content : ContentMap)
    (node : LiveNode) :
    createdContent (content.rename f) (node.rename f) = createdContent content node := by
  simp [createdContent, ContentMap.get?_rename inj]

end

end Schedule

/-- A created node with the ids of its record renamed by `f`. -/
def CreatedNode.rename (f : NodeId → NodeId) (node : CreatedNode) : CreatedNode :=
  { node with record := node.record.rename f }

/-- The plan with every id it names renamed by `f`. -/
def Plan.rename (f : NodeId → NodeId) (plan : Plan) : Plan :=
  { plan with outdated := plan.outdated.map fun entry => (f entry.1, entry.2),
              created := plan.created.map (CreatedNode.rename f),
              modified := plan.modified.map fun entry => (f entry.1, entry.2) }

/-- The error with the ids of a tree error renamed by `f`; no other error names an id. -/
def IndexError.rename (f : NodeId → NodeId) : IndexError → IndexError
  | .fatal (.tree e) => .fatal (.tree (e.rename f))
  | e => e

/-- A traversal by steps that each give the renamed outcome gives the renamed outcome. -/
theorem Except.mapM_rename {ε α β γ : Type} {k : α → Except ε β} {k' : α → Except ε γ}
    {h : β → γ} {rename : ε → ε} (each : ∀ x, k' x = ((k x).map h).mapError rename) :
    ∀ xs : List α, xs.mapM k' = ((xs.mapM k).map (List.map h)).mapError rename
  | [] => rfl
  | x :: rest => by
    rw [List.mapM_cons, List.mapM_cons, each x]
    cases k x with
    | error e => rfl
    | ok b =>
      show (rest.mapM k' >>= fun bs => pure (h b :: bs)) = _
      rw [Except.mapM_rename each rest]
      cases rest.mapM k with
      | error e => rfl
      | ok bs => rfl

namespace Schedule

variable {tree other : LiveTree}

theorem createdNodes_rename (inj : Function.Injective f) (renamed : tree.Renamed f other)
    (schedule : Schedule) :
    createdNodes other (schedule.rename f) =
      ((createdNodes tree schedule).map (List.map (CreatedNode.rename f))).mapError
        (IndexError.rename f) := by
  have alive : (schedule.created.map f).filter (schedule.createdSet.map f).contains =
      (schedule.created.filter schedule.createdSet.contains).map f := by
    rw [List.filter_map]
    congr 2
    funext id
    simp [inj.eq_iff]
  unfold createdNodes
  rw [rename_created, rename_createdSet, alive, List.mapM_map]
  refine Except.mapM_rename (fun id => ?_) _
  simp only [Function.comp_apply, renamed.node? id]
  cases tree.node? id with
  | none => rfl
  | some node =>
    show Except.ok _ = Except.ok _
    rw [rename_content, createdContent_rename inj]
    rfl

theorem plan_rename (inj : Function.Injective f) (renamed : tree.Renamed f other)
    (schedule : Schedule) :
    plan other (schedule.rename f) =
      ((plan tree schedule).map (Plan.rename f)).mapError (IndexError.rename f) := by
  unfold plan
  rw [createdNodes_rename inj renamed]
  cases createdNodes tree schedule with
  | error e => rfl
  | ok created =>
    show Except.ok _ = Except.ok _
    congr 1
    simp [Plan.rename, rename, ContentMap.rename, List.filter_map, Function.comp_def,
      CreatedNode.rename, beq_rename inj]

end Schedule

namespace NodeId

/-- Moves the ids above `base` up by `gap`. -/
def shift (base gap : NodeId) (id : NodeId) : NodeId := if base < id then id + gap else id

variable {base gap id : NodeId}

theorem shift_of_le (low : id ≤ base) : shift base gap id = id := by
  simp [shift, not_lt.2 low]

theorem shift_of_lt (high : base < id) : shift base gap id = id + gap := by
  simp [shift, high]

theorem shift_strictMono (nonneg : 0 ≤ gap) : StrictMono (shift base gap) := by
  intro a b lt
  unfold shift
  split_ifs <;> unfold NodeId at * <;> omega

theorem shift_injective (nonneg : 0 ≤ gap) : Function.Injective (shift base gap) :=
  (shift_strictMono nonneg).injective

theorem shift_zero (id : NodeId) : shift base 0 id = id := by
  unfold shift
  split <;> simp

theorem shift_root (low : 0 ≤ base) : shift base gap root = root :=
  shift_of_le low

end NodeId

namespace Ingestor

variable {α β : Type} {base gap : NodeId} {R : Revnum}

/-- `s'` is `s`, applying revision `R`, with the ids above `base` moved up by `gap`, every node
above `base` opened at `R`. -/
structure Shifted (base gap : NodeId) (R : Revnum) (s s' : Ingestor) : Prop where
  low : 0 ≤ base
  nonneg : 0 ≤ gap
  tree : s.tree.Renamed (NodeId.shift base gap) s'.tree
  wellFormed : s.tree.WellFormed
  wellFormed' : s'.tree.WellFormed
  schedule : s'.schedule = s.schedule.rename (NodeId.shift base gap)
  lastId : s'.lastId = s.lastId + gap
  above : base ≤ s.lastId
  fresh : ∀ id record, s.tree.recordOf? id = some record → base < id → record.revMin = R

/-- From shifted `s` and `s'`, with room for `cost` more ids, `steps` and `steps'` end shifted, the
results related by `g` and a failure renamed. -/
def SimulatesFrom (base gap : NodeId) (R : Revnum) (s s' : Ingestor) (cost : Nat)
    (steps steps' : IngestM α) (g : α → α) : Prop :=
  s'.lastId + cost ≤ Revnum.head →
    Shifted base gap R (s.run steps).1 (s'.run steps').1 ∧
      (s'.run steps').1.lastId ≤ s'.lastId + cost ∧
      (s'.run steps').2 = ((s.run steps).2.map g).mapError (IndexError.rename (NodeId.shift base gap))

/-- `steps'` is `steps` run with the ids above `base` moved up by `gap`, from every pair of shifted
ingestors. -/
def Simulates (base gap : NodeId) (R : Revnum) (cost : Nat) (steps steps' : IngestM α)
    (g : α → α) : Prop :=
  ∀ s s', Shifted base gap R s s' → SimulatesFrom base gap R s s' cost steps steps' g

theorem lastId_le_add (t : Ingestor) (cost : Nat) : t.lastId ≤ t.lastId + cost := by
  unfold NodeId
  omega

namespace Shifted

variable {s s' : Ingestor}

theorem injective (shifted : Shifted base gap R s s') : Function.Injective (NodeId.shift base gap) :=
  NodeId.shift_injective shifted.nonneg

theorem lastId_le (shifted : Shifted base gap R s s') : s.lastId ≤ s'.lastId := by
  have := shifted.lastId
  have := shifted.nonneg
  unfold NodeId at *
  omega

theorem lastId_nonneg (shifted : Shifted base gap R s s') : 0 ≤ s.lastId :=
  le_trans shifted.low shifted.above

/-- Shifted ingestors stay shifted when only what the relation does not see changes. -/
theorem with_schedule (shifted : Shifted base gap R s s') {schedule : Schedule} :
    Shifted base gap R { s with schedule := schedule }
      { s' with schedule := schedule.rename (NodeId.shift base gap) } :=
  { shifted with schedule := rfl }

/-- Two ingestors with nothing scheduled and the same nodes, all at most the first's counter, are
shifted by the difference of their counters. -/
theorem of_same (wf : s.tree.WellFormed) (wf' : s'.tree.WellFormed) (same : s'.tree.Same s.tree)
    (bounded : ∀ node ∈ s.tree.nodes, node.id ≤ s.lastId) (nonneg : 0 ≤ s.lastId)
    (above : s.lastId ≤ s'.lastId) (drained : s.schedule = {}) (drained' : s'.schedule = {})
    (R : Revnum) : Shifted s.lastId (s'.lastId - s.lastId) R s s' where
  low := nonneg
  nonneg := sub_nonneg.2 above
  tree := LiveTree.Renamed.of_fixes (NodeId.shift_injective (sub_nonneg.2 above)) wf same
    fun node mem => NodeId.shift_of_le (bounded node mem)
  wellFormed := wf
  wellFormed' := wf'
  schedule := by rw [drained, drained']; rfl
  lastId := (add_sub_cancel _ _).symm
  above := le_refl _
  fresh id record found high := by
    obtain ⟨node, mem, rfl, -⟩ := wf.recordOf?_eq_some_iff.1 found
    exact absurd (bounded node mem) (not_le.2 high)

end Shifted

/-! ## Composing simulations -/

/-- Steps that leave both ingestors as they are, with results that correspond, simulate. -/
theorem simulates_of_run {steps steps' : IngestM α} {g : α → α}
    (same : ∀ s : Ingestor, (s.run steps).1 = s) (same' : ∀ s : Ingestor, (s.run steps').1 = s)
    (results : ∀ s s', Shifted base gap R s s' →
      (s'.run steps').2 = ((s.run steps).2.map g).mapError (IndexError.rename (NodeId.shift base gap))) :
    Simulates base gap R 0 steps steps' g := by
  intro s s' shifted _
  rw [same, same']
  exact ⟨shifted, lastId_le_add _ _, results s s' shifted⟩

theorem simulates_pure (a : α) (g : α → α) :
    Simulates base gap R 0 (pure a) (pure (g a)) g :=
  simulates_of_run (fun _ => rfl) (fun _ => rfl) fun _ _ _ => rfl

theorem Simulates.mono {steps steps' : IngestM α} {g : α → α} {cost cost' : Nat}
    (simulates : Simulates base gap R cost steps steps' g) (le : cost ≤ cost') :
    Simulates base gap R cost' steps steps' g := by
  intro s s' shifted room
  obtain ⟨shifted', within, result⟩ := simulates s s' shifted (by unfold NodeId at *; omega)
  exact ⟨shifted', by unfold NodeId at *; omega, result⟩

/-- A composed run simulates when its parts do. -/
theorem SimulatesFrom.bind {s s' : Ingestor} {first first' : IngestM α} {g : α → α}
    {rest rest' : α → IngestM β} {h : β → β} {a b : Nat}
    (simulates : Simulates base gap R a first first' g)
    (restSimulates : ∀ s₁ s₁' x, s.run first = (s₁, .ok x) → Shifted base gap R s₁ s₁' →
      SimulatesFrom base gap R s₁ s₁' b (rest x) (rest' (g x)) h)
    (shifted : Shifted base gap R s s') :
    SimulatesFrom base gap R s s' (a + b) (first >>= rest) (first' >>= rest') h := by
  intro room
  obtain ⟨shifted₁, within, result⟩ := simulates s s' shifted (by unfold NodeId at *; omega)
  rw [run_bind, run_bind]
  cases ran : s.run first with
  | mk s₁ r =>
    cases ran' : s'.run first' with
    | mk s₁' r' =>
      rw [ran, ran'] at shifted₁ result
      rw [ran'] at within
      dsimp only at shifted₁ result within
      cases r with
      | error e =>
        have failed : r' = .error (e.rename (NodeId.shift base gap)) := result
        subst failed
        dsimp only
        exact ⟨shifted₁, by unfold NodeId at *; omega, rfl⟩
      | ok x =>
        have succeeded : r' = .ok (g x) := result
        subst succeeded
        dsimp only
        obtain ⟨shifted₂, within₂, result₂⟩ :=
          restSimulates s₁ s₁' x ran shifted₁ (by unfold NodeId at *; omega)
        exact ⟨shifted₂, by unfold NodeId at *; omega, result₂⟩

theorem Simulates.bind {first first' : IngestM α} {g : α → α} {rest rest' : α → IngestM β}
    {h : β → β} {a b : Nat} (simulates : Simulates base gap R a first first' g)
    (restSimulates : ∀ x, Simulates base gap R b (rest x) (rest' (g x)) h) :
    Simulates base gap R (a + b) (first >>= rest) (first' >>= rest') h :=
  fun _ _ shifted => SimulatesFrom.bind simulates
    (fun s₁ s₁' x _ shifted₁ => restSimulates x s₁ s₁' shifted₁) shifted

/-- Steps that hand out nothing before the rest cost what the rest does. -/
theorem Simulates.bind_free {first first' : IngestM α} {g : α → α} {rest rest' : α → IngestM β}
    {h : β → β} {b : Nat} (simulates : Simulates base gap R 0 first first' g)
    (restSimulates : ∀ x, Simulates base gap R b (rest x) (rest' (g x)) h) :
    Simulates base gap R b (first >>= rest) (first' >>= rest') h :=
  (simulates.bind restSimulates).mono (by omega)

theorem simulates_throw (e : IndexError) (g : α → α) :
    Simulates base gap R 0 (throw e) (throw (e.rename (NodeId.shift base gap))) g :=
  simulates_of_run (fun _ => rfl) (fun _ => rfl) fun _ _ _ => rfl

/-- Steps that read the ingestor first simulate when what follows does from each shifted pair. -/
theorem simulates_get_bind {rest rest' : Ingestor → IngestM β} {h : β → β} {cost : Nat}
    (restSimulates : ∀ s s', Shifted base gap R s s' →
      SimulatesFrom base gap R s s' cost (rest s) (rest' s') h) :
    Simulates base gap R cost (get >>= rest) (get >>= rest') h := by
  intro s s' shifted
  have read : ∀ t : Ingestor, ∀ r : Ingestor → IngestM β, t.run (get >>= r) = t.run (r t) := by
    intro t r
    rw [run_bind, run_get]
  unfold SimulatesFrom
  rw [read, read]
  exact restSimulates s s' shifted

theorem Simulates.map {steps steps' : IngestM α} {cost : Nat}
    (simulates : Simulates base gap R cost steps steps' id) (f : α → β) :
    Simulates base gap R cost (f <$> steps) (f <$> steps') id := by
  rw [← bind_pure_comp, ← bind_pure_comp]
  exact (simulates.bind fun a => simulates_pure (f a) id).mono (by omega)

/-- A branch simulates what the branch taken does. -/
theorem Simulates.ite_cost {c : Prop} [Decidable c] {steps steps' other other' : IngestM α}
    {g : α → α} {cost cost' : Nat} (yes : Simulates base gap R cost steps steps' g)
    (no : Simulates base gap R cost' other other' g) :
    Simulates base gap R (if c then cost else cost') (if c then steps else other)
      (if c then steps' else other') g := by
  split
  · exact yes
  · exact no

theorem Simulates.ite {c : Prop} [Decidable c] {steps steps' other other' : IngestM α} {g : α → α}
    {cost : Nat} (yes : Simulates base gap R cost steps steps' g)
    (no : Simulates base gap R cost other other' g) :
    Simulates base gap R cost (if c then steps else other) (if c then steps' else other') g := by
  split
  · exact yes
  · exact no

/-- A loop over a list simulates itself when each pass does. -/
theorem simulates_forM {xs : List α} {step : α → IngestM PUnit} {cost : α → Nat}
    (each : ∀ x ∈ xs, Simulates base gap R (cost x) (step x) (step x) id) :
    Simulates base gap R (xs.map cost).sum (xs.forM step) (xs.forM step) id := by
  induction xs with
  | nil =>
    show Simulates base gap R 0 (pure ()) (pure (id ())) id
    exact simulates_pure () id
  | cons x rest restSimulates =>
    show Simulates base gap R _ (step x >>= fun _ => rest.forM step)
      (step x >>= fun _ => rest.forM step) id
    rw [List.map_cons, List.sum_cons]
    exact (each x List.mem_cons_self).bind fun _ =>
      restSimulates fun y mem => each y (List.mem_cons_of_mem x mem)

theorem simulates_forM_free {xs : List α} {step : α → IngestM PUnit}
    (each : ∀ x ∈ xs, Simulates base gap R 0 (step x) (step x) id) :
    Simulates base gap R 0 (xs.forM step) (xs.forM step) id := by
  have loop := simulates_forM each
  simpa using loop

theorem simulates_mapM {xs : List α} {step : α → IngestM β}
    (each : ∀ x ∈ xs, Simulates base gap R 0 (step x) (step x) id) :
    Simulates base gap R 0 (xs.mapM step) (xs.mapM step) id := by
  induction xs with
  | nil => exact simulates_pure [] id
  | cons x rest restSimulates =>
    rw [List.mapM_cons]
    exact (each x List.mem_cons_self).bind_free fun _ =>
      (restSimulates fun y mem => each y (List.mem_cons_of_mem x mem)).bind_free fun _ =>
        simulates_pure _ id

/-! ## The primitive steps -/

theorem simulates_normalize (raw : String) :
    Simulates base gap R 0 (normalize raw) (normalize raw) id :=
  simulates_of_run (fun s => by rw [run_normalize]) (fun s => by rw [run_normalize])
    fun s s' _ => by
      rw [run_normalize, run_normalize]
      cases Path.normalize raw <;> rfl

/-- A change of schedule simulates itself when it commutes with shifting, which it may need the
shift to keep the order of ids for. -/
theorem simulates_updateSchedule {change change' : Schedule → Schedule}
    (commutes : 0 ≤ gap → ∀ schedule, change' (schedule.rename (NodeId.shift base gap)) =
      (change schedule).rename (NodeId.shift base gap)) :
    Simulates base gap R 0 (updateSchedule change) (updateSchedule change') id := by
  intro s s' shifted _
  rw [run_updateSchedule, run_updateSchedule]
  refine ⟨?_, Ingestor.lastId_le_add _ _, rfl⟩
  have moved : Shifted base gap R { s with schedule := change s.schedule }
      { s' with schedule := (change s.schedule).rename (NodeId.shift base gap) } :=
    shifted.with_schedule
  rwa [← commutes shifted.nonneg, ← shifted.schedule] at moved

/-- Below the largest id, the shifted counter hands out the shifted id. -/
theorem simulates_allocate : Simulates base gap R 1 allocate allocate (NodeId.shift base gap) := by
  intro s s' shifted room
  have nonneg := shifted.lastId_nonneg
  have own : NodeId.next s.lastId = s.lastId + 1 :=
    NodeId.next_of_lt nonneg (by have := shifted.lastId_le; unfold NodeId at *; omega)
  have other : NodeId.next s'.lastId = s.lastId + 1 + gap := by
    rw [NodeId.next_of_lt (le_trans nonneg shifted.lastId_le) (by unfold NodeId at *; omega),
      shifted.lastId]
    unfold NodeId
    omega
  rw [run_allocate, run_allocate]
  refine ⟨{ shifted with lastId := ?_, above := ?_ }, ?_, ?_⟩
  · simp only [own, other]
  · simp only [own]
    have := shifted.above
    unfold NodeId at *
    omega
  · show NodeId.next s'.lastId ≤ s'.lastId + ((1 : Nat) : Int)
    rw [other, shifted.lastId]
    unfold NodeId
    omega
  · simp only [own, other]
    show Except.ok (s.lastId + 1 + gap) = Except.ok (NodeId.shift base gap (s.lastId + 1))
    have above := shifted.above
    rw [NodeId.shift_of_lt (by unfold NodeId at *; omega)]

/-- Passing on the outcome of an operation on the tree simulates when the renamed tree's outcome
answers the tree's. -/
theorem simulates_ofTree {x x' : Except TreeError α} {g : α → α}
    (renames : LiveTree.Renames (NodeId.shift base gap) (fun a b => b = g a) x x') :
    Simulates base gap R 0 (ofTree x) (ofTree x') g := by
  refine simulates_of_run (fun s => by rw [run_ofTree]) (fun s => by rw [run_ofTree])
    fun s s' _ => ?_
  rw [run_ofTree, run_ofTree]
  cases x with
  | error e =>
    simp only [LiveTree.Renames] at renames
    subst renames
    rfl
  | ok a =>
    obtain ⟨b, rfl, rfl⟩ := renames
    rfl

/-- Creating a node that opens at the revision keeps every node above `base` opened at it. -/
theorem fresh_create {tree : LiveTree} (wf : tree.WellFormed)
    (fresh : ∀ id record, tree.recordOf? id = some record → base < id → record.revMin = R)
    {new : NewNode} (opens : new.revMin = R) {result : LiveTree × LiveNode}
    (created : tree.create new = .ok result) :
    ∀ id record, result.1.recordOf? id = some record → base < id → record.revMin = R := by
  obtain ⟨parent, name, -, -, -, freshId, -, rfl⟩ := wf.create_eq_withCreated created
  intro id record found high
  rw [LiveTree.recordOf?_withCreated freshId] at found
  split at found
  · cases found
    exact opens
  · exact fresh id record found high

/-- Dropping a node keeps every node above `base` opened at the revision. -/
theorem fresh_drop {tree : LiveTree} (wf : tree.WellFormed)
    (fresh : ∀ id record, tree.recordOf? id = some record → base < id → record.revMin = R)
    {path : String} {result : LiveTree × LiveNode} (dropped : tree.drop path = .ok result) :
    ∀ id record, result.1.recordOf? id = some record → base < id → record.revMin = R := by
  obtain ⟨node, -, -, -, -, rfl⟩ := wf.drop_eq_withDropped dropped
  intro id record found high
  rw [LiveTree.recordOf?_withDropped] at found
  split at found
  · cases found
  · exact fresh id record found high

theorem simulates_createNode (new : NewNode) (opens : new.revMin = R) :
    Simulates base gap R 0 (createNode new) (createNode (new.rename (NodeId.shift base gap))) id := by
  intro s s' shifted _
  rw [run_createNode, run_createNode]
  have renames := shifted.tree.create shifted.injective new
  cases created : s.tree.create new with
  | error e =>
    rw [created] at renames
    simp only [LiveTree.Renames] at renames
    rw [renames]
    exact ⟨shifted, Ingestor.lastId_le_add _ _, rfl⟩
  | ok result =>
    rw [created] at renames
    obtain ⟨result', created', renamed, -⟩ := renames
    rw [created']
    exact ⟨{ shifted with
      tree := renamed
      wellFormed := shifted.wellFormed.create created
      wellFormed' := shifted.wellFormed'.create created'
      fresh := fresh_create shifted.wellFormed shifted.fresh opens created },
      Ingestor.lastId_le_add _ _, rfl⟩

/-! ## Copy sources -/

theorem simulates_resolveSource (store : Store) (copy : CopySource) :
    Simulates base gap R 0 (resolveSource store R copy) (resolveSource store R copy) id := by
  refine simulates_of_run (fun s => run_resolveSource s store R copy)
    (fun s => run_resolveSource s store R copy) fun s s' shifted => ?_
  unfold resolveSource
  simp only [run_bind, run_normalize, run_ite, run_get, run_throw]
  cases Path.normalize copy.path with
  | error e => rfl
  | ok path =>
    simp only [Except.mapError_ok]
    split
    · rfl
    rename_i inRange
    -- Past its checks, a source the store gives is read alike from both sides.
    have lookup : ∀ next : Option NodeRecord → IngestM Source,
        (∀ found (t t' : Ingestor), (t'.run (next found)).2 =
          ((t.run (next found)).2.map id).mapError (IndexError.rename (NodeId.shift base gap))) →
        ∀ t t' : Ingestor, (t'.run (ofStore (store.lookupPath path copy.revision) >>= next)).2 =
          ((t.run (ofStore (store.lookupPath path copy.revision) >>= next)).2.map id).mapError
            (IndexError.rename (NodeId.shift base gap)) := by
      intro next each t t'
      rw [run_bind, run_bind, run_ofStore, run_ofStore]
      cases store.lookupPath path copy.revision with
      | error e => rfl
      | ok found => exact each found t t'
    rw [shifted.tree.find? path]
    cases found : s.tree.find? path with
    | none =>
      refine lookup _ (fun found t t' => ?_) s s'
      cases found with
      | none => rfl
      | some record =>
        by_cases covers : record.covers copy.revision = true <;> simp only [covers] <;> rfl
    | some node =>
      simp only [Option.map_some, LiveNode.rename_revMin]
      by_cases older : node.revMin ≤ copy.revision
      · -- A node of the live tree that old was not created by the revision: its id stays.
        have low : node.id ≤ base := by
          by_contra high
          have opened := shifted.fresh node.id node.toRecord
            (by rw [LiveTree.recordOf?, LiveTree.node?_of_find? found]; rfl) (not_le.1 high)
          simp only [LiveNode.toRecord] at opened
          have := not_or.1 inRange
          unfold Revnum at *
          omega
        simp only [older, if_true, LiveNode.rename_id, LiveNode.rename_kind,
          NodeId.shift_of_le low]
        rfl
      · simp only [older, if_false]
        refine lookup _ (fun found t t' => ?_) s s'
        cases found with
        | none => rfl
        | some record =>
          by_cases covers : record.covers copy.revision = true <;> simp only [covers] <;> rfl

/-! ## Deleting a subtree -/

theorem simulates_delete : ∀ fuel path, Simulates base gap R 0 (delete fuel path) (delete fuel path) id
  | 0, _ => simulates_pure () id
  | fuel + 1, path => by
    rw [delete]
    refine simulates_get_bind fun s s' shifted => ?_
    -- The children are listed alike and deleted first, each by the shorter deletion.
    refine Simulates.bind_free (simulates_ofTree (shifted.tree.childPaths_renames path))
      (fun children => ?_) s s' shifted
    refine Simulates.bind_free (simulates_forM_free fun child _ => simulates_delete fuel child)
      fun _ => ?_
    refine simulates_get_bind fun s₁ s₁' shifted₁ _ => ?_
    simp only [run_bind, run_ofTree]
    have renames := shifted₁.tree.drop shifted₁.injective (NodeId.shift_root shifted₁.low) path
    cases dropped : s₁.tree.drop path with
    | error e =>
      rw [dropped] at renames
      simp only [LiveTree.Renames] at renames
      rw [renames]
      exact ⟨shifted₁, Ingestor.lastId_le_add _ _, rfl⟩
    | ok result =>
      rw [dropped] at renames
      obtain ⟨result', dropped', renamed, node'⟩ := renames
      rw [dropped']
      obtain ⟨tree, node⟩ := result
      obtain ⟨tree', _⟩ := result'
      dsimp only at node' renamed ⊢
      subst node'
      refine ⟨{ shifted₁ with
        tree := renamed
        wellFormed := shifted₁.wellFormed.drop dropped
        wellFormed' := shifted₁.wellFormed'.drop dropped'
        schedule := ?_
        fresh := fresh_drop shifted₁.wellFormed shifted₁.fresh dropped },
        Ingestor.lastId_le_add _ _, rfl⟩
      show s₁'.schedule.afterDrop (node.rename _) = (s₁.schedule.afterDrop node).rename _
      rw [shifted₁.schedule, Schedule.afterDrop_rename _ shifted₁.injective]

theorem simulates_deleteTree (path : String) :
    Simulates base gap R 0 (deleteTree path) (deleteTree path) id := by
  unfold deleteTree
  refine simulates_get_bind fun s s' shifted => ?_
  -- Both trees index as many paths, so both deletions have the same depth to go.
  rw [shifted.tree.paths_length shifted.wellFormed shifted.wellFormed']
  exact simulates_delete _ path s s' shifted

/-! ## Creating nodes and setting content -/

/-- Handing out an id and creating a node with it simulates itself. -/
theorem simulates_create {new : NodeId → NewNode} (opens : ∀ id, (new id).revMin = R)
    (renames : ∀ id, (new id).rename (NodeId.shift base gap) = new (NodeId.shift base gap id))
    {change : NodeId → Schedule → Schedule}
    (commutes : 0 ≤ gap → ∀ id schedule, change (NodeId.shift base gap id)
      (schedule.rename (NodeId.shift base gap)) = (change id schedule).rename (NodeId.shift base gap))
    {rest rest' : NodeId → IngestM β} {h : β → β} {cost : Nat}
    (restSimulates : ∀ id, Simulates base gap R cost (rest id) (rest' (NodeId.shift base gap id)) h) :
    Simulates base gap R (1 + cost) (do
      let id ← allocate
      createNode (new id)
      updateSchedule (change id)
      rest id) (do
      let id ← allocate
      createNode (new id)
      updateSchedule (change id)
      rest' id) h := by
  refine simulates_allocate.bind fun id => ?_
  rw [← renames id]
  exact (simulates_createNode (new id) (opens id)).bind_free fun _ =>
    (simulates_updateSchedule fun nonneg => commutes nonneg id).bind_free fun _ => restSimulates id

/-- Setting content for a node commutes with renaming, the content map being kept in id order. -/
theorem setContent_rename (nonneg : 0 ≤ gap) (id : NodeId) (body : ContentBody)
    (schedule : Schedule) :
    { schedule.rename (NodeId.shift base gap) with
        content := (schedule.rename (NodeId.shift base gap)).content.set
          (NodeId.shift base gap id) body } =
      ({ schedule with content := schedule.content.set id body } : Schedule).rename
        (NodeId.shift base gap) := by
  simp only [Schedule.rename_content, ContentMap.set_rename (NodeId.shift_strictMono nonneg)]
  rfl

theorem simulates_deepCopy (store : Store) (copyRevision : Revnum) :
    ∀ fuel target source, Simulates base gap R (copyCount store copyRevision fuel source)
      (deepCopy store R fuel target source copyRevision)
      (deepCopy store R fuel target source copyRevision) id
  | 0, _, _ => simulates_pure () id
  | fuel + 1, target, source => by
    rw [deepCopy, copyCount]
    cases listed : store.children source copyRevision with
    | error e => exact simulates_of_run (fun s => rfl) (fun s => rfl) fun s s' _ => rfl
    | ok children =>
      have read : (ofStore (.ok children) : IngestM (List NodeRecord)) = pure children := rfl
      have listedRows : (Except.ok children : Except StoreError _).toOption.getD [] = children := rfl
      rw [read, pure_bind, listedRows]
      refine simulates_forM fun child _ => ?_
      -- Each row of the source is copied under a new id, and a directory's rows below it.
      refine Simulates.mono ?_ (le_of_eq (Nat.add_comm _ _))
      refine simulates_create ?_ ?_ ?_ ?_
      · exact fun _ => rfl
      · exact fun _ => rfl
      · intro _ newId schedule
        simp [Schedule.create, Schedule.rename]
      · exact fun _ => Simulates.ite_cost (simulates_deepCopy store copyRevision fuel _ _)
          (simulates_pure () id)

section
variable {store : Store} {N : Nat}

theorem simulates_add (copies : CopiesWithin store N) (path : String) (change : Change) :
    Simulates base gap R (N + 1) (add store R path change) (add store R path change) id := by
  unfold add
  dsimp only
  -- The source is looked up alike on both sides.
  split
  on_goal 1 =>
    refine Simulates.bind_free ((simulates_resolveSource store _).map some) fun source => ?_
  on_goal 2 => refine Simulates.bind_free (simulates_pure none id) fun source => ?_
  -- Then the node takes the next id, and only a copied directory hands out more.
  all_goals
    refine Simulates.mono ?_ (le_of_eq (Nat.add_comm _ _))
    refine simulates_create ?_ ?_ ?_ ?_
    · exact fun _ => rfl
    · exact fun _ => rfl
    · exact fun _ newId schedule => Schedule.create_rename schedule newId
    · intro newId
      simp only [id_eq]
      -- A file's content is set under its id, then a copied directory's rows are copied.
      refine Simulates.ite ((simulates_updateSchedule ?_).bind_free fun _ => ?_) ?_
      · exact fun nonneg schedule => setContent_rename nonneg newId _ schedule
      all_goals
        split
        · exact Simulates.ite ((simulates_deepCopy store _ _ _ _).mono (copies _ _))
            ((simulates_pure () id).mono (Nat.zero_le N))
        · exact (simulates_pure () id).mono (Nat.zero_le N)

theorem simulates_modifyFile (path : String) (change : Change) :
    Simulates base gap R 0 (modifyFile path change) (modifyFile path change) id := by
  unfold modifyFile
  refine simulates_get_bind fun s s' shifted => ?_
  refine Simulates.bind_free (simulates_ofTree (shifted.tree.get_renames path))
    (fun node => ?_) s s' shifted
  simp only [LiveNode.rename_kind, LiveNode.rename_id]
  refine Simulates.ite (simulates_updateSchedule ?_) (simulates_pure () id)
  exact fun nonneg schedule => setContent_rename nonneg node.id _ schedule

theorem simulates_applyChange (copies : CopiesWithin store N) (path : String) (change : Change) :
    Simulates base gap R (N + 1) (applyChange store R path change) (applyChange store R path change)
      id := by
  unfold applyChange
  split
  · split
    · exact (simulates_pure () id).mono (Nat.zero_le _)
    · exact (simulates_throw _ id).mono (Nat.zero_le _)
  · split
    · exact (simulates_modifyFile path change).mono (Nat.zero_le _)
    · exact (simulates_deleteTree path).mono (Nat.zero_le _)
    · refine simulates_get_bind fun s s' shifted => ?_
      -- Both sides see a node the revision's copies made at the path, or neither does.
      rw [shifted.tree.find? path, shifted.schedule]
      cases s.tree.find? path with
      | none => exact simulates_add copies path change s s' shifted
      | some node =>
        have listed : (s.schedule.rename (NodeId.shift base gap)).synthesized.contains
            (node.rename (NodeId.shift base gap)).id = s.schedule.synthesized.contains node.id := by
          simp [shifted.injective.eq_iff]
        simp only [Option.map_some, listed]
        exact Simulates.ite ((simulates_deleteTree path).bind_free fun _ =>
          simulates_add copies path change) (simulates_add copies path change) s s' shifted
    · exact (simulates_deleteTree path).bind_free fun _ => simulates_add copies path change

/-- Applying a change set simulates itself while the shifted counter has room for `N + 1` ids a
change. -/
theorem simulates_apply (copies : CopiesWithin store N) (changeSet : ChangeSet) :
    Simulates base gap changeSet.revision (changeSet.changes.length * (N + 1))
      (apply store changeSet) (apply store changeSet) id := by
  -- A refusal names no node id, so both sides refuse alike.
  have refused : ∀ (e : IndexError) (rest : PUnit → IngestM PUnit),
      e.rename (NodeId.shift base gap) = e →
      Simulates base gap changeSet.revision (changeSet.changes.length * (N + 1))
        (throw e >>= rest) (throw e >>= rest) id := by
    intro e rest plain
    refine (simulates_of_run (fun s => rfl) (fun s => rfl) fun s s' _ => ?_).mono (Nat.zero_le _)
    show Except.error e = Except.error (e.rename _)
    rw [plain]
  unfold apply
  dsimp only
  refine Simulates.ite (refused _ _ rfl) (simulates_get_bind fun s s' shifted => ?_)
  rw [shifted.schedule, Schedule.isEmpty_rename]
  split
  · exact refused _ _ rfl s s' shifted
  rw [← Nat.zero_add (changeSet.changes.length * (N + 1))]
  refine (simulates_updateSchedule ?_).bind_free (fun _ s₁ s₁' shifted₁ => ?_) s s' shifted
  · exact fun _ schedule => rfl
  rw [← Nat.zero_add (changeSet.changes.length * (N + 1))]
  refine SimulatesFrom.bind (simulates_mapM fun change _ =>
      (simulates_normalize change.path).bind_free fun path => simulates_pure _ id)
    (fun s₂ s₂' normalized normalizing shifted₂ => ?_) shifted₁
  -- Each change, in order of path, costs at most `N + 1` ids.
  have counted : changeSet.changes.length * (N + 1) =
      ((sortByPath normalized).map fun _ => N + 1).sum := by
    rw [List.map_const', List.sum_replicate, sortByPath, List.length_mergeSort,
      length_of_run_mapM normalizing, smul_eq_mul]
  rw [counted, Nat.zero_add, id_eq]
  exact simulates_forM (fun (x : String × Change) _ => simulates_applyChange copies x.1 x.2)
    s₂ s₂' shifted₂

/-- Taking the plan gives the plan with its ids shifted, and starts two empty schedules. -/
theorem simulates_takePlan :
    Simulates base gap R 0 takePlan takePlan (Plan.rename (NodeId.shift base gap)) := by
  unfold takePlan
  refine simulates_get_bind fun s s' shifted room => ?_
  rw [run_bind, run_bind, run_set, run_set]
  dsimp only
  rw [shifted.schedule, Schedule.plan_rename shifted.injective shifted.tree]
  have emptied : Shifted base gap R { s with schedule := {} } { s' with schedule := {} } :=
    shifted.with_schedule
  cases Schedule.plan s.tree s.schedule with
  | error e => exact ⟨emptied, lastId_le_add _ _, rfl⟩
  | ok plan => exact ⟨emptied, lastId_le_add _ _, rfl⟩

end

end Ingestor

end TreeHistory
