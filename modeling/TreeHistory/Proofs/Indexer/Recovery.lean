import Mathlib
import TreeHistory.Proofs.Indexer.Budget
import TreeHistory.Proofs.Indexer.PointInTime

/-!
# The store rebuilds the live tree

On a store that only the indexer wrote, the tree rebuilt from the store's live rows is the tree as
of the last commit, which an indexer not waiting to rebuild holds already, and the id counter stays
above every stored id.
-/

namespace TreeHistory
namespace Indexer

open History

variable {engine : Engine} {lawful : engine.Lawful} {indexer : Indexer} {history : History}
  {spent : Nat}

/-- Rebuilding from the store's live rows succeeds with the tree as of the last commit, which a
settled indexer holds; within the budget the counter is at least every stored id. -/
theorem live_tree_rebuilds_from_store (reach : Reachable lawful indexer history spent) :
    (∃ live tree, indexer.store.liveNodes = .ok live ∧ LiveTree.ofRecords live = .ok tree ∧
      tree.Same (current history) ∧ (indexer.diverged = false → tree.Same indexer.ingestor.tree)) ∧
    (spent ≤ Revnum.head →
      ∀ t, indexer.store.Holds lawful t false → ∀ row ∈ t.nodes, row.id ≤ indexer.ingestor.lastId) := by
  have consistent := reach.consistent
  obtain ⟨t, holds, records⟩ := consistent.stored
  obtain ⟨live, liveRead, livePerm, sorted⟩ := holds.liveNodes
  -- The live rows, in order of path, are the records of the tree as of the last commit.
  obtain ⟨tree, built, -, same⟩ := consistent.valid.current_wellFormed.ofRecords_same
    (livePerm.trans (records.live_perm consistent.valid)) sorted
  refine ⟨⟨live, tree, liveRead, built, same, fun settled => ?_⟩,
    fun budget => (reach.withinBudget budget).stored⟩
  exact same.trans (consistent.cached settled).2.symm

/-- After revision 1 adds "/a" on the empty store, the store rebuilds the indexer's live tree,
and the id counter covers the stored ids. -/
theorem live_tree_rebuilds_after_first_commit :
    (∃ live tree, (openedEmpty.indexRevision addsDirA).1.store.liveNodes = .ok live ∧
      LiveTree.ofRecords live = .ok tree ∧
      tree.Same (openedEmpty.indexRevision addsDirA).1.ingestor.tree) ∧
    ∀ t, (openedEmpty.indexRevision addsDirA).1.store.Holds Reference.lawful t false →
      ∀ row ∈ t.nodes, row.id ≤ (openedEmpty.indexRevision addsDirA).1.ingestor.lastId := by
  obtain ⟨⟨live, tree, liveRead, built, -, settled⟩, counted⟩ :=
    live_tree_rebuilds_from_store reachable_addsDirA
  exact ⟨⟨live, tree, liveRead, built, settled (by decide +kernel)⟩, counted (by decide)⟩

end Indexer
end TreeHistory
