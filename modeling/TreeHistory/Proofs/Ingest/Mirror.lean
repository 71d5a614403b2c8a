import Mathlib
import TreeHistory.Proofs.Ingest.Shift

/-!
# Running two ingestors side by side

Two programs of ingestor steps mirror each other under a relation when, run from any related pair
while the second counter has room for their cost, they end related with the same outcome
(`Ingestor.Mirrors`). Mirroring goes through binds, branches and loops (`mirrors_forM`).
-/

namespace TreeHistory

namespace Ingestor

variable {α β : Type} {related : Ingestor → Ingestor → Prop}

/-- From `s` and `s'`, with room for `cost` more ids, `steps` and `steps'` end related, the second
counter at most `cost` further on, with the same outcome up to `g`. -/
def MirrorsFrom (related : Ingestor → Ingestor → Prop) (s s' : Ingestor) (cost : Nat)
    (steps steps' : IngestM α) (g : α → α) : Prop :=
  s'.lastId + cost ≤ Revnum.head →
    related (s.run steps).1 (s'.run steps').1 ∧
      (s'.run steps').1.lastId ≤ s'.lastId + cost ∧
      (s'.run steps').2 = (s.run steps).2.map g

/-- `steps'` mirrors `steps` from every related pair. -/
def Mirrors (related : Ingestor → Ingestor → Prop) (cost : Nat) (steps steps' : IngestM α)
    (g : α → α) : Prop :=
  ∀ s s', related s s' → MirrorsFrom related s s' cost steps steps' g

/-- Steps that leave both ingestors as they are, with results the map relates, mirror. -/
theorem mirrors_of_run {steps steps' : IngestM α} {g : α → α}
    (same : ∀ s : Ingestor, (s.run steps).1 = s) (same' : ∀ s : Ingestor, (s.run steps').1 = s)
    (results : ∀ s s', related s s' → (s'.run steps').2 = (s.run steps).2.map g) :
    Mirrors related 0 steps steps' g := by
  intro s s' rel _
  rw [same, same']
  exact ⟨rel, lastId_le_add _ _, results s s' rel⟩

theorem mirrors_pure (a : α) (g : α → α) : Mirrors related 0 (pure a) (pure (g a)) g :=
  mirrors_of_run (fun _ => rfl) (fun _ => rfl) fun _ _ _ => rfl

theorem mirrors_throw (e : IndexError) (g : α → α) : Mirrors related 0 (throw e) (throw e) g :=
  mirrors_of_run (fun _ => rfl) (fun _ => rfl) fun _ _ _ => rfl

theorem MirrorsFrom.mono {s s' : Ingestor} {steps steps' : IngestM α} {g : α → α}
    {cost cost' : Nat} (mirrors : MirrorsFrom related s s' cost steps steps' g) (le : cost ≤ cost') :
    MirrorsFrom related s s' cost' steps steps' g := by
  intro room
  obtain ⟨rel', within, result⟩ := mirrors (by unfold NodeId at *; omega)
  exact ⟨rel', by unfold NodeId at *; omega, result⟩

theorem Mirrors.mono {steps steps' : IngestM α} {g : α → α} {cost cost' : Nat}
    (mirrors : Mirrors related cost steps steps' g) (le : cost ≤ cost') :
    Mirrors related cost' steps steps' g :=
  fun s s' rel => (mirrors s s' rel).mono le

/-- A composed run mirrors when its parts do. -/
theorem MirrorsFrom.bind {s s' : Ingestor} {first first' : IngestM α} {g : α → α}
    {rest rest' : α → IngestM β} {h : β → β} {a b : Nat}
    (mirrors : MirrorsFrom related s s' a first first' g)
    (restMirrors : ∀ s₁ s₁' x, s.run first = (s₁, .ok x) → related s₁ s₁' →
      MirrorsFrom related s₁ s₁' b (rest x) (rest' (g x)) h) :
    MirrorsFrom related s s' (a + b) (first >>= rest) (first' >>= rest') h := by
  intro room
  obtain ⟨rel₁, within, result⟩ := mirrors (by unfold NodeId at *; omega)
  rw [run_bind, run_bind]
  cases ran : s.run first with
  | mk s₁ r =>
    cases ran' : s'.run first' with
    | mk s₁' r' =>
      rw [ran, ran'] at rel₁ result
      rw [ran'] at within
      dsimp only at rel₁ result within
      cases r with
      | error e =>
        have failed : r' = .error e := result
        subst failed
        dsimp only
        exact ⟨rel₁, by unfold NodeId at *; omega, rfl⟩
      | ok x =>
        have succeeded : r' = .ok (g x) := result
        subst succeeded
        dsimp only
        obtain ⟨rel₂, within₂, result₂⟩ :=
          restMirrors s₁ s₁' x ran rel₁ (by unfold NodeId at *; omega)
        exact ⟨rel₂, by unfold NodeId at *; omega, result₂⟩

theorem Mirrors.bind {first first' : IngestM α} {g : α → α} {rest rest' : α → IngestM β}
    {h : β → β} {a b : Nat} (mirrors : Mirrors related a first first' g)
    (restMirrors : ∀ x, Mirrors related b (rest x) (rest' (g x)) h) :
    Mirrors related (a + b) (first >>= rest) (first' >>= rest') h :=
  fun s s' rel => MirrorsFrom.bind (mirrors s s' rel)
    (fun s₁ s₁' x _ rel₁ => restMirrors x s₁ s₁' rel₁)

/-- Steps that hand out nothing before the rest cost what the rest does. -/
theorem Mirrors.bind_free {first first' : IngestM α} {g : α → α} {rest rest' : α → IngestM β}
    {h : β → β} {b : Nat} (mirrors : Mirrors related 0 first first' g)
    (restMirrors : ∀ x, Mirrors related b (rest x) (rest' (g x)) h) :
    Mirrors related b (first >>= rest) (first' >>= rest') h :=
  (mirrors.bind restMirrors).mono (by omega)

/-- Steps that read the ingestor first mirror when what follows does from each related pair. -/
theorem mirrors_get_bind {rest rest' : Ingestor → IngestM β} {h : β → β} {cost : Nat}
    (restMirrors : ∀ s s', related s s' → MirrorsFrom related s s' cost (rest s) (rest' s') h) :
    Mirrors related cost (get >>= rest) (get >>= rest') h := by
  intro s s' rel
  have read : ∀ t : Ingestor, ∀ r : Ingestor → IngestM β, t.run (get >>= r) = t.run (r t) := by
    intro t r
    rw [run_bind, run_get]
  unfold MirrorsFrom
  rw [read, read]
  exact restMirrors s s' rel

theorem Mirrors.map {steps steps' : IngestM α} {g : α → α} {cost : Nat}
    (mirrors : Mirrors related cost steps steps' g) (f : α → β) (h : β → β)
    (commutes : ∀ a, h (f a) = f (g a)) :
    Mirrors related cost (f <$> steps) (f <$> steps') h := by
  rw [← bind_pure_comp, ← bind_pure_comp]
  refine (Mirrors.bind (b := 0) mirrors fun a => ?_).mono (by omega)
  rw [← commutes a]
  exact mirrors_pure (f a) h

/-- A branch mirrors what the branch taken does. -/
theorem Mirrors.ite_cost {c : Prop} [Decidable c] {steps steps' other other' : IngestM α}
    {g : α → α} {cost cost' : Nat} (yes : Mirrors related cost steps steps' g)
    (no : Mirrors related cost' other other' g) :
    Mirrors related (if c then cost else cost') (if c then steps else other)
      (if c then steps' else other') g := by
  split
  · exact yes
  · exact no

theorem Mirrors.ite {c : Prop} [Decidable c] {steps steps' other other' : IngestM α} {g : α → α}
    {cost : Nat} (yes : Mirrors related cost steps steps' g)
    (no : Mirrors related cost other other' g) :
    Mirrors related cost (if c then steps else other) (if c then steps' else other') g := by
  split
  · exact yes
  · exact no

/-- A loop over a list mirrors the loop over its image under `h` when each pass does. -/
theorem mirrors_forM {xs : List α} {h : α → α} {step step' : α → IngestM PUnit}
    {cost : α → Nat} (each : ∀ x ∈ xs, Mirrors related (cost x) (step x) (step' (h x)) id) :
    Mirrors related (xs.map cost).sum (xs.forM step) ((xs.map h).forM step') id := by
  induction xs with
  | nil =>
    show Mirrors related 0 (pure ()) (pure (id ())) id
    exact mirrors_pure () id
  | cons x rest restMirrors =>
    show Mirrors related _ (step x >>= fun _ => rest.forM step)
      (step' (h x) >>= fun _ => (rest.map h).forM step') id
    rw [List.map_cons, List.sum_cons]
    exact (each x List.mem_cons_self).bind fun _ =>
      restMirrors fun y mem => each y (List.mem_cons_of_mem x mem)

/-- A loop over one list mirrors when each pass does. -/
theorem mirrors_forM_same {xs : List α} {step step' : α → IngestM PUnit} {cost : α → Nat}
    (each : ∀ x ∈ xs, Mirrors related (cost x) (step x) (step' x) id) :
    Mirrors related (xs.map cost).sum (xs.forM step) (xs.forM step') id := by
  have loop := mirrors_forM (h := id) each
  rwa [List.map_id] at loop

theorem mirrors_forM_free {xs : List α} {step step' : α → IngestM PUnit}
    (each : ∀ x ∈ xs, Mirrors related 0 (step x) (step' x) id) :
    Mirrors related 0 (xs.forM step) (xs.forM step') id := by
  have loop : Mirrors related (xs.map fun _ => 0).sum (xs.forM step) (xs.forM step') id :=
    mirrors_forM_same each
  simpa using loop

theorem mirrors_mapM {xs : List α} {step : α → IngestM β}
    (each : ∀ x ∈ xs, Mirrors related 0 (step x) (step x) id) :
    Mirrors related 0 (xs.mapM step) (xs.mapM step) id := by
  induction xs with
  | nil => exact mirrors_pure [] id
  | cons x rest restMirrors =>
    rw [List.mapM_cons]
    exact (each x List.mem_cons_self).bind_free fun _ =>
      (restMirrors fun y mem => each y (List.mem_cons_of_mem x mem)).bind_free fun _ =>
        mirrors_pure _ id

/-- Normalizing a path reads nothing of the ingestor. -/
theorem mirrors_normalize (raw : String) :
    Mirrors related 0 (normalize raw) (normalize raw) id :=
  mirrors_of_run (fun s => by rw [run_normalize]) (fun s => by rw [run_normalize])
    fun s s' _ => by
      rw [run_normalize, run_normalize]
      cases Path.normalize raw <;> rfl

/-- Passing on the outcome of a computation mirrors when the second outcome is the first mapped. -/
theorem mirrors_ofTree {x x' : Except TreeError α} {g : α → α} (mapped : x' = x.map g) :
    Mirrors related 0 (ofTree x) (ofTree x') g := by
  refine mirrors_of_run (fun s => by rw [run_ofTree]) (fun s => by rw [run_ofTree])
    fun s s' _ => ?_
  rw [run_ofTree, run_ofTree, mapped]
  cases x <;> rfl

theorem mirrors_ofStore {x x' : Except StoreError α} {g : α → α} (mapped : x' = x.map g) :
    Mirrors related 0 (ofStore x) (ofStore x') g := by
  refine mirrors_of_run (fun s => by rw [run_ofStore]) (fun s => by rw [run_ofStore])
    fun s s' _ => ?_
  rw [run_ofStore, run_ofStore, mapped]
  cases x <;> rfl

end Ingestor

end TreeHistory
