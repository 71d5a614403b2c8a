import TreeHistory.Proofs.Ingest.CopyTree

/-!
# The order of a revision's events

`apply` sorts a revision's events by normalized path, with a stable sort, before applying any of
them. The sorted list is fixed by the events of each normalized path in their order
(`eq_of_sorted_of_filter_eq`, `sortByPath_filter`), so two change sets whose events are
permutations keeping that order make `apply` the same program (`apply_eq_of_path_order`), with the
same outcome from any ingestor (`apply_ignores_event_order`).
-/

namespace TreeHistory

/-! ## Sorted lists with the same classes -/

section Classes

variable {α β : Type} [LinearOrder β] {key : α → β}

/-- Two lists sorted by a key whose elements of each key come in the same order are equal. -/
theorem eq_of_sorted_of_filter_eq {l₁ l₂ : List α}
    (sorted₁ : l₁.Pairwise fun a b => key a ≤ key b)
    (sorted₂ : l₂.Pairwise fun a b => key a ≤ key b)
    (classes : ∀ k, l₁.filter (fun a => key a = k) = l₂.filter (fun a => key a = k)) :
    l₁ = l₂ := by
  -- On the first list: its head heads its class in both lists, so it heads the second list too.
  induction l₁ generalizing l₂ with
  | nil =>
    cases l₂ with
    | nil => rfl
    | cons b rest =>
      have empty := classes (key b)
      simp at empty
  | cons a rest ih =>
    have inClass : ∀ {l : List α} {x : α}, x ∈ l.filter (fun a => key a = key x) → x ∈ l :=
      fun mem => (List.mem_filter.1 mem).1
    have aMem : a ∈ l₂ := inClass (by rw [← classes]; simp)
    cases l₂ with
    | nil => simp at aMem
    | cons b rest₂ =>
      have bMem : b ∈ a :: rest := inClass (by rw [classes]; simp)
      have sameKey : key a = key b := by
        apply le_antisymm
        · rcases List.mem_cons.1 bMem with rfl | later
          · exact le_rfl
          · exact List.rel_of_pairwise_cons sorted₁ later
        · rcases List.mem_cons.1 aMem with rfl | later
          · exact le_rfl
          · exact List.rel_of_pairwise_cons sorted₂ later
      have heads := classes (key a)
      rw [List.filter_cons_of_pos (by simp), List.filter_cons_of_pos (by simp [sameKey])] at heads
      obtain ⟨rfl, restClass⟩ := List.cons.inj heads
      rw [ih (List.pairwise_cons.1 sorted₁).2 (List.pairwise_cons.1 sorted₂).2 fun k => ?_]
      -- The other classes lose nothing with the head.
      by_cases atHead : key a = k
      · subst atHead
        exact restClass
      · have other := classes k
        rwa [List.filter_cons_of_neg (by simpa using atHead),
          List.filter_cons_of_neg (by simpa using atHead)] at other

end Classes

namespace Ingestor

/-! ## Sorting by path keeps each path's changes in order -/

/-- The changes of one path come out of the sort in the order they went in. -/
theorem sortByPath_filter (changes : List (String × Change)) (path : String) :
    (sortByPath changes).filter (fun entry => entry.1 = path) =
      changes.filter (fun entry => entry.1 = path) := by
  -- The changes of the path are a sorted sublist of the input, so of the output; and there are
  -- as many of them in the output as in the input.
  have classSorted : (changes.filter fun entry => entry.1 = path).Pairwise
      fun a b => decide (a.1 ≤ b.1) = true := by
    refine List.Pairwise.imp_of_mem ?_ (List.pairwise_of_forall fun _ _ => True.intro)
    intro a b aMem bMem _
    rw [(by simpa using (List.mem_filter.1 aMem).2 : a.1 = path),
      (by simpa using (List.mem_filter.1 bMem).2 : b.1 = path)]
    simp
  have sub := (List.sublist_mergeSort sortByPath_trans sortByPath_total classSorted
    List.filter_sublist).filter fun entry => decide (entry.1 = path)
  rw [List.filter_filter] at sub
  simp only [Bool.and_self] at sub
  have sameLength := ((sortByPath_perm changes).filter fun entry => decide (entry.1 = path)).length_eq
  exact (sub.eq_of_length sameLength.symm).symm

/-- Changes whose paths' classes come in the same order sort to the same list. -/
theorem sortByPath_eq_of_filter_eq {changes₁ changes₂ : List (String × Change)}
    (classes : ∀ path, changes₁.filter (fun entry => entry.1 = path) =
      changes₂.filter (fun entry => entry.1 = path)) :
    sortByPath changes₁ = sortByPath changes₂ := by
  refine eq_of_sorted_of_filter_eq (sortByPath_sorted changes₁) (sortByPath_sorted changes₂)
    fun path => ?_
  rw [sortByPath_filter, sortByPath_filter]
  exact classes path

/-! ## Normalizing the paths -/

/-- A change paired with its normalized path, the raw path standing in when it does not
normalize. -/
def withNormalPath (change : Change) : String × Change :=
  ((Path.normalize change.path).toOption.getD change.path, change)

/-- Normalizing the paths of changes that all normalize fails nowhere and changes nothing: it pairs
each change with its normalized path. -/
theorem mapM_normalize_eq_pure {changes : List Change}
    (normalizes : ∀ change ∈ changes, ∃ path, Path.normalize change.path = .ok path) :
    (changes.mapM fun change => do
        let path ← normalize change.path
        pure (path, change)) = pure (changes.map withNormalPath) := by
  induction changes with
  | nil => rfl
  | cons change rest ih =>
    obtain ⟨path, normalized⟩ := normalizes change List.mem_cons_self
    rw [List.mapM_cons, ih fun other mem => normalizes other (List.mem_cons_of_mem _ mem)]
    simp [normalize, normalized, withNormalPath, Except.toOption]

/-- The paired changes of a normalized path are the changes whose paths normalize to it. -/
theorem filter_withNormalPath {changes : List Change}
    (normalizes : ∀ change ∈ changes, ∃ path, Path.normalize change.path = .ok path)
    (path : String) :
    (changes.map withNormalPath).filter (fun entry => entry.1 = path) =
      (changes.filter fun change => Path.normalize change.path = .ok path).map withNormalPath := by
  rw [List.filter_map]
  congr 1
  refine List.filter_congr fun change mem => ?_
  obtain ⟨normal, normalized⟩ := normalizes change mem
  simp [withNormalPath, normalized, Except.toOption]

/-! ## Applying the events in another order -/

/-- Two change sets of one revision, one's events a permutation of the other's that keeps the
events of each normalized path in order, every path normalizing, are the same program. -/
theorem apply_eq_of_path_order (store : Store) {changeSet₁ changeSet₂ : ChangeSet}
    (sameRevision : changeSet₁.revision = changeSet₂.revision)
    (perm : changeSet₁.changes.Perm changeSet₂.changes)
    (normalizes : ∀ change ∈ changeSet₁.changes, ∃ path, Path.normalize change.path = .ok path)
    (pathOrder : ∀ path,
      changeSet₁.changes.filter (fun change => Path.normalize change.path = .ok path) =
        changeSet₂.changes.filter (fun change => Path.normalize change.path = .ok path)) :
    apply store changeSet₁ = apply store changeSet₂ := by
  have normalizes₂ : ∀ change ∈ changeSet₂.changes, ∃ path,
      Path.normalize change.path = .ok path :=
    fun change mem => normalizes change (perm.symm.subset mem)
  -- Both change sets sort to the same list of normalized changes.
  have sorted : sortByPath (changeSet₁.changes.map withNormalPath) =
      sortByPath (changeSet₂.changes.map withNormalPath) := by
    refine sortByPath_eq_of_filter_eq fun path => ?_
    rw [filter_withNormalPath normalizes, filter_withNormalPath normalizes₂, pathOrder]
  unfold apply
  rw [mapM_normalize_eq_pure normalizes, mapM_normalize_eq_pure normalizes₂, sameRevision]
  simp only [pure_bind, sorted]

/-- Applying a change set gives the same outcome, from any ingestor and against any store, when its
events come in another order that keeps the events of each normalized path in order: the same
success or error, and the same live tree, counter and schedule after it. -/
theorem apply_ignores_event_order (s : Ingestor) (store : Store) {changeSet₁ changeSet₂ : ChangeSet}
    (sameRevision : changeSet₁.revision = changeSet₂.revision)
    (perm : changeSet₁.changes.Perm changeSet₂.changes)
    (normalizes : ∀ change ∈ changeSet₁.changes, ∃ path, Path.normalize change.path = .ok path)
    (pathOrder : ∀ path,
      changeSet₁.changes.filter (fun change => Path.normalize change.path = .ok path) =
        changeSet₂.changes.filter (fun change => Path.normalize change.path = .ok path)) :
    s.run (apply store changeSet₁) = s.run (apply store changeSet₂) := by
  rw [apply_eq_of_path_order store sameRevision perm normalizes pathOrder]

/-- A file fed before the directory it is added under, or after it: from the start and against the
empty store, both orders end alike. -/
theorem file_before_its_directory_same_outcome :
    ({} : Ingestor).run (apply (Reference.store {})
        { info := { id := 1, author := none, dateMs := 0, message := "" },
          changes := [{ path := "/a/x", action := .added, kind := .file },
            { path := "/a", action := .added, kind := .dir }] }) =
      ({} : Ingestor).run (apply (Reference.store {})
        { info := { id := 1, author := none, dateMs := 0, message := "" },
          changes := [{ path := "/a", action := .added, kind := .dir },
            { path := "/a/x", action := .added, kind := .file }] }) := by
  have file : Path.normalize "/a/x" = .ok "/a/x" := by decide
  have dir : Path.normalize "/a" = .ok "/a" := by decide
  refine apply_ignores_event_order _ _ rfl (List.Perm.swap _ _ []) ?_ fun path => ?_
  · simp only [List.forall_mem_cons, List.not_mem_nil]
    exact ⟨⟨_, file⟩, ⟨_, dir⟩, fun _ => False.elim⟩
  · -- The two paths normalize apart, so each class holds one change.
    simp only [List.filter_cons, List.filter_nil, file, dir, Except.ok.injEq]
    by_cases atFile : "/a/x" = path
    · subst atFile
      simp
    · simp [atFile]

end Ingestor
end TreeHistory
