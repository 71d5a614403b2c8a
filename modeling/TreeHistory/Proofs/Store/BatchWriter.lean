import Mathlib
import TreeHistory.Proofs.Store.Writers
import TreeHistory.Proofs.Store.Reference

/-!
# A buffer runs every statement once, in the order it was added

After `k` statements have been added to a buffer of capacity `b` (0 acting as 1), as long as none
fails, the store has run exactly the first `b * (k / b)` of them, in order, and the other `k % b`
wait; flushing or closing runs them (`Buffer.batches_keep_rows_in_order`). The invariant
`Buffer.Batched` says this of a buffer and the statements added so far; one `add` keeps it
(`Batched.add`), so a run of adds does (`Batched.addAll`).
-/

namespace TreeHistory

namespace Store

/-- Running two lists of statements in turn is running their concatenation. -/
theorem execAll_append_eq_none {store final : Store} {first rest : List Statement} :
    store.execAll (first ++ rest) = (final, none) ↔
      ∃ middle, store.execAll first = (middle, none) ∧ middle.execAll rest = (final, none) := by
  induction first generalizing store with
  | nil => simp
  | cons statement more ih =>
    rw [List.cons_append, execAll.eq_2, execAll.eq_2]
    obtain ⟨⟨after, result⟩, ran⟩ : ∃ outcome, store.exec statement = outcome := ⟨_, rfl⟩
    rw [ran]
    cases result with
    | ok u => exact ih
    | error e => simp

/-- A first part of statements that go through goes through. -/
theorem execAll_of_append_eq_none {store : Store} {first rest : List Statement}
    (goes : (store.execAll (first ++ rest)).2 = none) :
    ∃ middle, store.execAll first = (middle, none) := by
  obtain ⟨final, ran⟩ : ∃ final, store.execAll (first ++ rest) = (final, none) :=
    ⟨_, Prod.ext rfl goes⟩
  obtain ⟨middle, ranFirst, -⟩ := execAll_append_eq_none.1 ran
  exact ⟨middle, ranFirst⟩

end Store

namespace Buffer

variable {buffer : Buffer} {store store' : Store} {statement : Statement}

/-- Flushing runs the waiting statements in order and empties the buffer. -/
theorem flush_of_execAll (ran : store.execAll buffer.pending = (store', none)) :
    buffer.flush store =
      (store', { buffer with pending := [], written := buffer.written + buffer.pending.length },
        .ok buffer.pending.length) := by
  rw [flush, ran]

/-- Closing runs the waiting statements and gives the number written in all. -/
theorem close_eq_of_execAll (ran : store.execAll buffer.pending = (store', none)) :
    buffer.close store = (store', .ok (buffer.written + buffer.pending.length)) := by
  rw [close, flush_of_execAll ran]

/-- An added statement that does not fill the batch waits. -/
theorem add_of_lt (room : buffer.pending.length + 1 < buffer.capacity) :
    buffer.add store statement =
      (store, { buffer with pending := buffer.pending ++ [statement] }, none) := by
  have notFull : ¬(buffer.pending ++ [statement]).length ≥ buffer.capacity := by
    rw [List.length_append, List.length_singleton]
    omega
  rw [add, if_neg notFull]

/-- An added statement that fills the batch runs it, the statement last. -/
theorem add_of_full (full : buffer.capacity ≤ buffer.pending.length + 1)
    (ran : store.execAll (buffer.pending ++ [statement]) = (store', none)) :
    buffer.add store statement =
      (store', { buffer with pending := [], written := buffer.written + (buffer.pending.length + 1) },
        none) := by
  have isFull : (buffer.pending ++ [statement]).length ≥ buffer.capacity := by
    rw [List.length_append, List.length_singleton]
    exact full
  rw [add, if_pos isFull, flush_of_execAll ran]
  simp

/-- Adds statements in order, stopping at the first failure. -/
def addAll (buffer : Buffer) (store : Store) : List Statement → Store × Buffer × Option StoreError
  | [] => (store, buffer, none)
  | statement :: rest =>
    let added := buffer.add store statement
    if added.2.2.isNone then added.2.1.addAll added.1 rest else added

theorem addAll_cons_of_add {buffer' : Buffer} {rest : List Statement}
    (added : buffer.add store statement = (store', buffer', none)) :
    buffer.addAll store (statement :: rest) = buffer'.addAll store' rest := by
  simp only [addAll, added, Option.isNone_none, if_true]

/-- The buffer after the statements `added` were handed to it from `start`: the first `written`
of them ran, in order, a whole number of batches, and less than a batch waits. -/
structure Batched (capacity : Nat) (start : Store) (added : List Statement) (buffer : Buffer)
    (store : Store) : Prop where
  capacity_eq : buffer.capacity = capacity
  ran : start.execAll (added.take buffer.written) = (store, none)
  pending_eq : buffer.pending = added.drop buffer.written
  written_le : buffer.written ≤ added.length
  whole : capacity ∣ buffer.written
  waiting : buffer.pending.length < capacity

namespace Batched

variable {capacity : Nat} {start : Store} {added : List Statement}

/-- A new buffer has run nothing and holds nothing. -/
theorem new (capacity : Nat) (start : Store) :
    Batched (max capacity 1) start [] (Buffer.new capacity) start where
  capacity_eq := rfl
  ran := rfl
  pending_eq := rfl
  written_le := le_refl 0
  whole := dvd_zero _
  waiting := by simp [Buffer.new]

/-- The statements that ran and the ones that wait make up, in order, all that was added. -/
theorem length_eq (batched : Batched capacity start added buffer store) :
    added.length = buffer.written + buffer.pending.length := by
  rw [batched.pending_eq, List.length_drop]
  have := batched.written_le
  omega

/-- What ran and what waits, counted by batches: `written` is the whole batches and the
statements that wait are what is left over. -/
theorem counts (batched : Batched capacity start added buffer store) :
    buffer.written = capacity * (added.length / capacity) ∧
      buffer.pending.length = added.length % capacity := by
  obtain ⟨q, hq⟩ := batched.whole
  have split := batched.length_eq
  have positive : 0 < capacity := lt_of_le_of_lt (Nat.zero_le _) batched.waiting
  have quotient : added.length / capacity = q ∧ added.length % capacity = buffer.pending.length :=
    (Nat.div_mod_unique positive).2 ⟨by rw [split, hq]; ring, batched.waiting⟩
  exact ⟨by rw [quotient.1, hq], quotient.2.symm⟩

/-- Adding a statement keeps the invariant: it waits or completes a batch, which then runs. -/
theorem add (batched : Batched capacity start added buffer store)
    (goes : (start.execAll (added ++ [statement])).2 = none) :
    ∃ store' buffer', buffer.add store statement = (store', buffer', none) ∧
      Batched capacity start (added ++ [statement]) buffer' store' := by
  have within := batched.written_le
  have waiting' : buffer.pending ++ [statement] = (added ++ [statement]).drop buffer.written := by
    rw [List.drop_append_of_le_length within, batched.pending_eq]
  by_cases room : buffer.pending.length + 1 < buffer.capacity
  · -- The statement waits; nothing runs.
    refine ⟨store, _, add_of_lt room, ?_⟩
    refine ⟨batched.capacity_eq, ?_, waiting', ?_, batched.whole, ?_⟩
    · rw [List.take_append_of_le_length within]
      exact batched.ran
    · simp only [List.length_append, List.length_singleton]
      omega
    · simp only [List.length_append, List.length_singleton]
      rw [← batched.capacity_eq]
      exact room
  · -- The statement completes a batch: the batch runs, after the statements that ran before.
    have full : buffer.capacity ≤ buffer.pending.length + 1 := not_lt.1 room
    have batch : buffer.pending.length + 1 = capacity := by
      have := batched.waiting
      rw [batched.capacity_eq] at full
      omega
    have whole : (added ++ [statement]).take buffer.written ++ (buffer.pending ++ [statement]) =
        added ++ [statement] := by
      rw [waiting', List.take_append_drop]
    obtain ⟨store', ran'⟩ : ∃ store', start.execAll (added ++ [statement]) = (store', none) :=
      ⟨_, Prod.ext rfl goes⟩
    rw [← whole, Store.execAll_append_eq_none] at ran'
    obtain ⟨middle, first, rest⟩ := ran'
    have sameStore : middle = store := by
      rw [List.take_append_of_le_length within, batched.ran] at first
      exact (Prod.mk.inj first).1.symm
    rw [sameStore] at rest
    refine ⟨store', _, add_of_full full rest, ?_⟩
    have length : buffer.written + (buffer.pending.length + 1) = (added ++ [statement]).length := by
      rw [List.length_append, List.length_singleton, batched.length_eq]
      omega
    refine ⟨batched.capacity_eq, ?_, ?_, ?_, ?_, ?_⟩
    · rw [length, List.take_length, ← whole]
      exact Store.execAll_append_eq_none.2 ⟨store, by rw [← sameStore]; exact first, rest⟩
    · rw [length, List.drop_length]
    · exact length.le
    · rw [batch]
      exact dvd_add batched.whole (dvd_refl capacity)
    · exact lt_of_le_of_lt (Nat.zero_le _) batched.waiting

/-- A run of adds keeps the invariant, as long as the statements added go through. -/
theorem addAll (batched : Batched capacity start added buffer store) {rest : List Statement}
    (goes : (start.execAll (added ++ rest)).2 = none) :
    ∃ store' buffer', buffer.addAll store rest = (store', buffer', none) ∧
      Batched capacity start (added ++ rest) buffer' store' := by
  induction rest generalizing added buffer store with
  | nil => exact ⟨store, buffer, rfl, by simpa using batched⟩
  | cons statement more ih =>
    -- The first statement's add goes through, since the statements up to it do.
    have first : (start.execAll (added ++ [statement])).2 = none := by
      have whole : (start.execAll ((added ++ [statement]) ++ more)).2 = none := by
        rwa [List.append_assoc, List.singleton_append]
      obtain ⟨middle, ran⟩ := Store.execAll_of_append_eq_none whole
      rw [ran]
    obtain ⟨store₁, buffer₁, added₁, batched₁⟩ := batched.add first
    obtain ⟨store', buffer', run, final⟩ :=
      ih batched₁ (by rwa [List.append_assoc, List.singleton_append])
    refine ⟨store', buffer', by rw [addAll_cons_of_add added₁, run], ?_⟩
    rwa [List.append_assoc, List.singleton_append] at final

/-- Flushing runs the statements that wait, in order, after the ones that ran. -/
theorem flush (batched : Batched capacity start added buffer store)
    (goes : (start.execAll added).2 = none) :
    ∃ final, start.execAll added = (final, none) ∧ store.execAll buffer.pending = (final, none) ∧
      buffer.flush store =
        (final, { buffer with pending := [], written := added.length },
          .ok buffer.pending.length) := by
  obtain ⟨final, ran⟩ : ∃ final, start.execAll added = (final, none) := ⟨_, Prod.ext rfl goes⟩
  have whole : added.take buffer.written ++ buffer.pending = added := by
    rw [batched.pending_eq, List.take_append_drop]
  have split := ran
  rw [← whole, Store.execAll_append_eq_none] at split
  obtain ⟨middle, first, rest⟩ := split
  rw [batched.ran] at first
  rw [← (Prod.mk.inj first).1] at rest
  refine ⟨final, ran, rest, ?_⟩
  rw [flush_of_execAll rest, ← batched.length_eq]

/-- Closing runs the statements that wait and gives the number of statements added. -/
theorem close (batched : Batched capacity start added buffer store)
    (goes : (start.execAll added).2 = none) :
    buffer.close store = ((start.execAll added).1, .ok added.length) := by
  obtain ⟨final, ran, rest, -⟩ := batched.flush goes
  rw [close_eq_of_execAll rest, ← batched.length_eq, ran]

end Batched

/-- A buffer keeps every statement, once and in order. Add statements one by one to a new buffer
of capacity `b` (0 acting as 1), as long as running them goes through: every add goes through, the
store has run exactly the first `b * (k / b)` of the `k` statements in order, the other `k % b`
wait, and `written` is `b * (k / b)`. Flushing runs the waiting statements in order and gives
their number; closing runs them and gives `k`. -/
theorem batches_keep_rows_in_order (capacity : Nat) (start : Store) (rows : List Statement)
    (goes : (start.execAll rows).2 = none) :
    ∃ store buffer, (Buffer.new capacity).addAll start rows = (store, buffer, none) ∧
      start.execAll (rows.take (max capacity 1 * (rows.length / max capacity 1))) =
        (store, none) ∧
      buffer.pending = rows.drop (max capacity 1 * (rows.length / max capacity 1)) ∧
      buffer.pending.length = rows.length % max capacity 1 ∧
      buffer.written = max capacity 1 * (rows.length / max capacity 1) ∧
      store.execAll buffer.pending = ((start.execAll rows).1, none) ∧
      buffer.flush store = ((start.execAll rows).1,
        { buffer with pending := [], written := rows.length }, .ok (rows.length % max capacity 1)) ∧
      buffer.close store = ((start.execAll rows).1, .ok rows.length) := by
  have fromEmpty : (start.execAll ([] ++ rows)).2 = none := by rwa [List.nil_append]
  obtain ⟨store, buffer, run, batched⟩ := (Batched.new capacity start).addAll fromEmpty
  rw [List.nil_append] at batched
  obtain ⟨written, pending⟩ := batched.counts
  obtain ⟨final, ran, rest, flushed⟩ := batched.flush goes
  refine ⟨store, buffer, run, ?_, ?_, pending, written, ?_, ?_, batched.close goes⟩
  · rw [← written]
    exact batched.ran
  · rw [← written]
    exact batched.pending_eq
  · rw [ran]
    exact rest
  · rw [ran, flushed, pending]

/-- Five revision rows through a buffer of two: four run in two batches, the fifth waits. -/
theorem five_rows_in_batches_of_two :
    let rows := (List.range 5).map fun n =>
      Statement.insertRevision { id := n + 1, author := none, dateMs := 0, message := "" }
    ((Reference.store {}).execAll rows).2 = none ∧
      ∃ store buffer, (Buffer.new 2).addAll (Reference.store {}) rows = (store, buffer, none) ∧
        (Reference.store {}).execAll (rows.take (max 2 1 * (rows.length / max 2 1))) =
          (store, none) ∧
        buffer.pending = rows.drop (max 2 1 * (rows.length / max 2 1)) ∧
        buffer.pending.length = rows.length % max 2 1 ∧
        buffer.written = max 2 1 * (rows.length / max 2 1) ∧
        store.execAll buffer.pending = (((Reference.store {}).execAll rows).1, none) ∧
        buffer.flush store = (((Reference.store {}).execAll rows).1,
          { buffer with pending := [], written := rows.length },
          .ok (rows.length % max 2 1)) ∧
        buffer.close store = (((Reference.store {}).execAll rows).1, .ok rows.length) :=
  ⟨by decide, batches_keep_rows_in_order 2 _ _ (by decide)⟩

end Buffer

end TreeHistory
