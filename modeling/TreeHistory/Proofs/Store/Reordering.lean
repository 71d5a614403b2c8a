import Mathlib
import TreeHistory.Proofs.Store.Committed

/-!
# Reordering the writes of a revision

The tables see the writes of different writers in interleavings that depend on the batch size;
only the order within each writer matters. Two writes of one revision through different writers
are independent (`Statement.Admits`, `Statement.apply`): writes to different tables never meet,
and a closing write only selects rows that opened before the revision. Hence lists that hand each
writer the same writes in order run alike (`Tables.runAlike_of_through`), and so do their prefixes
(`Tables.execAll_of_prefix`).
-/

namespace TreeHistory

namespace Revnum

/-- The revision windows close at lies below every revision from 1 on, 64-bit wrapping
included. -/
theorem prev_lt {r : Revnum} (positive : 1 ≤ r) : prev r < r := by
  unfold prev wrap64
  unfold Revnum at *
  omega

end Revnum

namespace Tables

/-- A content row once the live content windows of `node` that opened by `revMax` end there. -/
def closeContentAt (node : NodeId) (revMax : Revnum) (row : ContentRecord) : ContentRecord :=
  if closesContent node revMax row then { row with revMax := revMax } else row

@[simp] theorem node_closeContentAt (node : NodeId) (revMax : Revnum) (row : ContentRecord) :
    (closeContentAt node revMax row).node = row.node := by
  unfold closeContentAt
  split <;> rfl

@[simp] theorem revMin_closeContentAt (node : NodeId) (revMax : Revnum) (row : ContentRecord) :
    (closeContentAt node revMax row).revMin = row.revMin := by
  unfold closeContentAt
  split <;> rfl

/-- A row that opened after `revMax` is not closed at it. -/
theorem closeContentAt_of_lt {node : NodeId} {revMax : Revnum} {row : ContentRecord}
    (later : revMax < row.revMin) : closeContentAt node revMax row = row := by
  have notClosing : closesContent node revMax row = false := by
    simp [closesContent, Int.not_le.2 later]
  simp [closeContentAt, notClosing]

theorem closesNode_of_lt {node : NodeId} {revMax : Revnum} {row : NodeRecord}
    (later : revMax < row.revMin) : closesNode node revMax row = false := by
  simp [closesNode, Int.not_le.2 later]

theorem closeAt_of_lt {node : NodeId} {revMax : Revnum} {row : NodeRecord}
    (later : revMax < row.revMin) : closeAt [node] revMax row = row := by
  simp [closeAt, Int.not_le.2 later]

theorem closesNode_eq_closeAt (node : NodeId) (revMax : Revnum) (row : NodeRecord) :
    (if closesNode node revMax row then { row with revMax := revMax } else row) =
      closeAt [node] revMax row := by
  simp [closesNode, closeAt, and_assoc]

end Tables

namespace Statement

/-- The writer a statement goes through; the revision row is written on its own. -/
def writer : Statement → Option Writer
  | .insertRevision _ => none
  | .outdateContent .. => some .contentOutdates
  | .outdateNode .. => some .nodeOutdates
  | .insertNode _ => some .nodeInserts
  | .insertContent .. => some .contentInserts

/-- The statement is one of revision `R`'s writes: windows close at the revision before `R`, and
rows open at `R`. -/
def OfRevision (R : Revnum) : Statement → Prop
  | .insertRevision _ => False
  | .outdateContent _ revMax => revMax = Revnum.prev R
  | .outdateNode _ revMax => revMax = Revnum.prev R
  | .insertNode record => record.revMin = R
  | .insertContent _ revMin _ => revMin = R

/-- Whether a write goes through on the tables: the schema's checks and keys hold, and closing a
node's window selects exactly one row. -/
def Admits : Statement → Tables → Prop
  | .insertRevision info, t => info.id ∉ t.revisions.map (·.id)
  | .insertNode record, t => record.revMin ≤ record.revMax ∧ record.id ∉ t.nodes.map (·.id)
  | .outdateNode node revMax, t => t.nodes.countP (Tables.closesNode node revMax) = 1
  | .insertContent node revMin _, t =>
    revMin ≤ Revnum.head ∧ (node, revMin) ∉ t.contents.map fun row => (row.node, row.revMin)
  | .outdateContent .., _ => True

/-- The tables after a write that goes through. -/
def apply : Statement → Tables → Tables
  | .insertRevision info, t => { t with revisions := t.revisions ++ [info] }
  | .insertNode record, t => { t with nodes := t.nodes ++ [record] }
  | .outdateNode node revMax, t => { t with nodes := t.nodes.map (Tables.closeAt [node] revMax) }
  | .insertContent node revMin data, t =>
    { t with contents := t.contents ++
        [{ node := node, revMin := revMin, revMax := Revnum.head, data := data }] }
  | .outdateContent node revMax, t =>
    { t with contents := t.contents.map (Tables.closeContentAt node revMax) }

/-- Every write of a revision goes through one of the writers. -/
theorem writer_isSome {R : Revnum} {s : Statement} (ofRevision : s.OfRevision R) :
    ∃ w, s.writer = some w := by
  cases s <;> simp_all [OfRevision, writer]

end Statement

namespace Tables

open Statement

/-- A write goes through exactly when the tables admit it, and then does what `apply` says. -/
theorem exec_eq_ok_iff {t t' : Tables} {s : Statement} :
    t.exec s = (t', .ok ()) ↔ s.Admits t ∧ t' = s.apply t := by
  cases s with
  | insertRevision info =>
    simp only [exec, write]
    by_cases taken : t.revisions.any (·.id == info.id) = true
    · rw [if_pos taken]
      refine iff_of_false (by simp) fun admitted => admitted.1 ?_
      simpa using taken
    · rw [if_neg taken]
      have fresh : info.id ∉ t.revisions.map (·.id) := by simpa using taken
      simp only [verify, Admits, apply, Prod.mk.injEq, and_true]
      exact ⟨fun same => ⟨fresh, same.symm⟩, fun admitted => admitted.2.symm⟩
  | insertNode record =>
    simp only [exec, write]
    by_cases reversed : record.revMax < record.revMin
    · rw [if_pos reversed]
      exact iff_of_false (by simp) fun admitted => absurd admitted.1.1 (Int.not_le.2 reversed)
    rw [if_neg reversed]
    by_cases taken : t.nodes.any (·.id == record.id) = true
    · rw [if_pos taken]
      refine iff_of_false (by simp) fun admitted => admitted.1.2 ?_
      simpa using taken
    · rw [if_neg taken]
      have fresh : record.id ∉ t.nodes.map (·.id) := by simpa using taken
      simp only [verify, Admits, apply, Prod.mk.injEq, and_true]
      exact ⟨fun same => ⟨⟨Int.not_lt.1 reversed, fresh⟩, same.symm⟩,
        fun admitted => admitted.2.symm⟩
  | outdateNode node revMax =>
    simp only [exec, write, verify, Admits, apply, closesNode_eq_closeAt]
    by_cases one : t.nodes.countP (closesNode node revMax) = 1
    · simp only [one, if_true, Prod.mk.injEq, and_true, true_and]
      exact eq_comm
    · simp [one]
  | insertContent node revMin data =>
    simp only [exec, write]
    by_cases reversed : Revnum.head < revMin
    · rw [if_pos reversed]
      exact iff_of_false (by simp) fun admitted => absurd admitted.1.1 (Int.not_le.2 reversed)
    rw [if_neg reversed]
    by_cases taken : t.contents.any (fun row => row.node == node && row.revMin == revMin) = true
    · rw [if_pos taken]
      refine iff_of_false (by simp) fun admitted => admitted.1.2 ?_
      simpa using taken
    · rw [if_neg taken]
      have fresh : (node, revMin) ∉ t.contents.map fun row => (row.node, row.revMin) := by
        simpa using taken
      simp only [verify, Admits, apply, Prod.mk.injEq, and_true]
      exact ⟨fun same => ⟨⟨Int.not_lt.1 reversed, fresh⟩, same.symm⟩,
        fun admitted => admitted.2.symm⟩
  | outdateContent node revMax =>
    simp only [exec, write, verify, Admits, apply, Prod.mk.injEq, and_true, true_and]
    constructor
    · intro same
      rw [← same]
      rfl
    · intro same
      rw [same]
      rfl

/-- Writes in order run without a failure exactly when each is admitted by the tables the writes
before it left. -/
theorem execAll_cons_eq_none {t t' : Tables} {s : Statement} {rest : List Statement} :
    t.execAll (s :: rest) = (t', none) ↔ s.Admits t ∧ (s.apply t).execAll rest = (t', none) := by
  rw [execAll]
  cases stepped : t.exec s with
  | mk t₁ result =>
    cases result with
    | error e =>
      refine iff_of_false (by simp) ?_
      rintro ⟨admitted, -⟩
      have ran := exec_eq_ok_iff.2 ⟨admitted, rfl⟩
      rw [stepped] at ran
      simp at ran
    | ok u =>
      obtain ⟨admitted, rfl⟩ := exec_eq_ok_iff.1 stepped
      simp [admitted]

theorem execAll_append_eq_none {t t' : Tables} {first second : List Statement} :
    t.execAll (first ++ second) = (t', none) ↔
      ∃ t₁, t.execAll first = (t₁, none) ∧ t₁.execAll second = (t', none) := by
  induction first generalizing t with
  | nil => simp [execAll]
  | cons s rest restRuns =>
    rw [List.cons_append, execAll_cons_eq_none, restRuns]
    simp only [execAll_cons_eq_none]
    constructor
    · rintro ⟨admitted, t₁, ran, ranSecond⟩
      exact ⟨t₁, ⟨admitted, ran⟩, ranSecond⟩
    · rintro ⟨t₁, ⟨admitted, ran⟩, ranSecond⟩
      exact ⟨admitted, t₁, ran, ranSecond⟩

/-! ## Lists of writes that run alike -/

/-- Two lists of writes run alike: from any tables, one runs without a failure exactly when the
other does, and to the same tables. -/
def RunAlike (first second : List Statement) : Prop :=
  ∀ t t' : Tables, t.execAll first = (t', none) ↔ t.execAll second = (t', none)

theorem RunAlike.refl (writes : List Statement) : RunAlike writes writes := fun _ _ => Iff.rfl

theorem RunAlike.symm {first second : List Statement} (alike : RunAlike first second) :
    RunAlike second first := fun t t' => (alike t t').symm

theorem RunAlike.trans {first second third : List Statement} (alike : RunAlike first second)
    (alike' : RunAlike second third) : RunAlike first third :=
  fun t t' => (alike t t').trans (alike' t t')

theorem RunAlike.append {first first' second second' : List Statement}
    (alike : RunAlike first first') (alike' : RunAlike second second') :
    RunAlike (first ++ second) (first' ++ second') := by
  intro t t'
  simp only [execAll_append_eq_none, alike t, alike' _ t']

theorem RunAlike.cons (s : Statement) {first second : List Statement}
    (alike : RunAlike first second) : RunAlike (s :: first) (s :: second) :=
  (RunAlike.refl [s]).append alike

/-- A write that does not change whether another goes through, and whose effect commutes with the
other's. -/
def Independent (s s' : Statement) : Prop :=
  (∀ t, s'.Admits (s.apply t) ↔ s'.Admits t) ∧ ∀ t, s'.apply (s.apply t) = s.apply (s'.apply t)

/-- Two writes independent of each other run alike in either order. -/
theorem runAlike_swap {s s' : Statement} (independent : Independent s s')
    (independent' : Independent s' s) : RunAlike [s, s'] [s', s] := by
  intro t t'
  simp only [execAll_cons_eq_none, independent.1, independent'.1, independent.2]
  constructor
  · rintro ⟨admitted, admitted', ran⟩
    exact ⟨admitted', admitted, ran⟩
  · rintro ⟨admitted', admitted, ran⟩
    exact ⟨admitted, admitted', ran⟩

/-- A write independent of the writes before it runs alike when moved in front of them. -/
theorem runAlike_move_front {s : Statement} :
    ∀ {before : List Statement}, (∀ x ∈ before, Independent x s ∧ Independent s x) →
      RunAlike (before ++ [s]) (s :: before)
  | [], _ => RunAlike.refl _
  | x :: rest, independent => by
    have moved := runAlike_move_front fun y mem => independent y (List.mem_cons_of_mem x mem)
    obtain ⟨independent₁, independent₂⟩ := independent x List.mem_cons_self
    exact (moved.cons x).trans
      ((runAlike_swap independent₁ independent₂).append (RunAlike.refl rest))

end Tables

namespace Statement

open Tables

/-- Two writes of one revision through different writers are independent. -/
theorem independent_of_writer_ne {R : Revnum} (positive : 1 ≤ R) {s s' : Statement}
    (ofRevision : s.OfRevision R) (ofRevision' : s'.OfRevision R)
    (differ : s.writer ≠ s'.writer) : Independent s s' := by
  have below := Revnum.prev_lt positive
  cases s <;> cases s' <;>
    simp only [OfRevision, writer, ne_eq, not_true_eq_false] at ofRevision ofRevision' differ
  all_goals
    subst ofRevision ofRevision'
    refine ⟨fun t => ?_, fun t => ?_⟩ <;>
      simp [Admits, apply, List.countP_append, closesNode_of_lt, closeAt_of_lt,
        closeContentAt_of_lt, below]

end Statement

namespace Tables

open Statement

/-! ## Each writer's writes, in order -/

/-- The writes of `writes` that go through writer `w`, in order. -/
def through (w : Writer) (writes : List Statement) : List Statement :=
  writes.filter (·.writer == some w)

theorem through_append (w : Writer) (first second : List Statement) :
    through w (first ++ second) = through w first ++ through w second :=
  List.filter_append ..

theorem writer_of_mem_through {w : Writer} {writes : List Statement} {s : Statement}
    (mem : s ∈ through w writes) : s.writer = some w := by
  simpa [through] using (List.mem_filter.1 mem).2

/-- Writes that all go through one writer are all of that writer's, and none of another's. -/
theorem through_of_writer {w' : Writer} {writes : List Statement}
    (all : ∀ s ∈ writes, s.writer = some w') (w : Writer) :
    through w writes = if w = w' then writes else [] := by
  split
  · rename_i same
    subst same
    exact List.filter_eq_self.2 fun s mem => by simp [all s mem]
  · rename_i differ
    refine List.filter_eq_nil_iff.2 fun s mem => ?_
    simp [all s mem, Ne.symm differ]

/-- The writes in the order closing the writers runs them: each writer's in the order it was
handed them, the writers in the order they close. -/
def inWriterOrder (part : Writer → List Statement) : List Statement :=
  part .contentOutdates ++ part .nodeOutdates ++ part .nodeInserts ++ part .contentInserts

/-- The writes of `writes` in the order closing the writers runs them. -/
def byWriter (writes : List Statement) : List Statement :=
  inWriterOrder (through · writes)

theorem through_inWriterOrder {part : Writer → List Statement}
    (own : ∀ w, ∀ s ∈ part w, s.writer = some w) (w : Writer) :
    through w (inWriterOrder part) = part w := by
  simp only [inWriterOrder, through_append, through_of_writer (own _)]
  cases w <;> simp

@[simp] theorem through_byWriter (w : Writer) (writes : List Statement) :
    through w (byWriter writes) = through w writes :=
  through_inWriterOrder (fun _ _ mem => writer_of_mem_through mem) w

theorem mem_of_mem_byWriter {writes : List Statement} {s : Statement} (mem : s ∈ byWriter writes) :
    s ∈ writes := by
  simp only [byWriter, inWriterOrder, List.mem_append] at mem
  rcases mem with ((mem | mem) | mem) | mem <;> exact List.mem_of_mem_filter mem

/-- Writes of one revision run alike when each writer is handed the same writes in the same
order: only the interleaving of the writers differs. -/
theorem runAlike_of_through {R : Revnum} (positive : 1 ≤ R) :
    ∀ {first second : List Statement}, (∀ s ∈ first, s.OfRevision R) →
      (∀ s ∈ second, s.OfRevision R) → (∀ w, through w first = through w second) →
      RunAlike first second
  | [], second, _, ofRevision, same => by
    -- Every write of a revision has a writer, so nothing is left for `second` either.
    have empty : second = [] := by
      refine List.eq_nil_iff_forall_not_mem.2 fun s mem => ?_
      obtain ⟨w, hw⟩ := writer_isSome (ofRevision s mem)
      have listed : s ∈ through w second := List.mem_filter.2 ⟨mem, by simp [hw]⟩
      rw [← same w] at listed
      simp [through] at listed
    rw [empty]
    exact RunAlike.refl []
  | s :: rest, second, ofRevision, ofRevision', same => by
    obtain ⟨w, hw⟩ := writer_isSome (ofRevision s List.mem_cons_self)
    -- `s` is the first write of its writer in `second`: the writes before it go elsewhere.
    have firstOfWriter : through w second = s :: through w rest := by
      rw [← same w]
      simp [through, hw]
    obtain ⟨before, after, split, others, -, restSame⟩ := List.filter_eq_cons_iff.1 firstOfWriter
    subst split
    have independent : ∀ x ∈ before, Independent x s ∧ Independent s x := by
      intro x mem
      have elsewhere : x.writer ≠ s.writer := by
        simpa [hw] using others x mem
      exact ⟨independent_of_writer_ne positive (ofRevision' x (by simp [mem]))
          (ofRevision s List.mem_cons_self) elsewhere,
        independent_of_writer_ne positive (ofRevision s List.mem_cons_self)
          (ofRevision' x (by simp [mem])) elsewhere.symm⟩
    have moved : RunAlike (before ++ s :: after) (s :: (before ++ after)) := by
      simpa using (runAlike_move_front independent).append (RunAlike.refl after)
    -- The rest of each writer's writes agree once `s` is taken out.
    have restThrough : ∀ w', through w' rest = through w' (before ++ after) := by
      intro w'
      have sameW' := same w'
      by_cases sameWriter : w' = w
      · subst sameWriter
        have beforeNone : through w' before = [] := List.filter_eq_nil_iff.2 others
        simp only [through] at beforeNone restSame ⊢
        rw [List.filter_append, beforeNone, List.nil_append, restSame]
      · simp only [through, List.filter_cons, hw, List.filter_append] at sameW' ⊢
        simpa [Ne.symm sameWriter] using sameW'
    have restAlike := runAlike_of_through positive
      (fun x mem => ofRevision x (List.mem_cons_of_mem s mem))
      (fun x mem => ofRevision' x (by
        rcases List.mem_append.1 mem with mem | mem <;> simp [mem])) restThrough
    exact (restAlike.cons s).trans moved.symm

/-- Writes that each go through a writer, each writer taking a first part of its writes in a
revision's writes, are writes of that revision. -/
theorem ofRevision_of_writerPrefixes {R : Revnum} {writes done : List Statement}
    (ofRevision : ∀ s ∈ writes, s.OfRevision R) (hasWriter : ∀ s ∈ done, s.writer.isSome)
    (prefixes : ∀ w, through w done <+: through w writes) : ∀ s ∈ done, s.OfRevision R := by
  intro s mem
  obtain ⟨w, hw⟩ := Option.isSome_iff_exists.1 (hasWriter s mem)
  have listed : s ∈ through w done := List.mem_filter.2 ⟨mem, by simp [hw]⟩
  exact ofRevision s (List.mem_of_mem_filter ((prefixes w).subset listed))

/-- Writes in which every writer has run all of a revision's writes for it, in order, run alike
with the writes in the writers' order. -/
theorem runAlike_byWriter {R : Revnum} (positive : 1 ≤ R) {writes done : List Statement}
    (ofRevision : ∀ s ∈ writes, s.OfRevision R) (hasWriter : ∀ s ∈ done, s.writer.isSome)
    (same : ∀ w, through w done = through w writes) : RunAlike done (byWriter writes) :=
  runAlike_of_through positive
    (ofRevision_of_writerPrefixes ofRevision hasWriter fun w => (same w) ▸ List.prefix_refl _)
    (fun s mem => ofRevision s (mem_of_mem_byWriter mem)) (fun w => by rw [same w, through_byWriter])

/-- When a revision's writes go through in the writers' order, so does any list in which each
writer has run a first part of its writes. -/
theorem execAll_of_prefix {R : Revnum} (positive : 1 ≤ R) {writes done : List Statement}
    {t t' : Tables} (ofRevision : ∀ s ∈ writes, s.OfRevision R)
    (hasWriter : ∀ s ∈ done, s.writer.isSome) (prefixes : ∀ w, through w done <+: through w writes)
    (runs : t.execAll (byWriter writes) = (t', none)) : ∃ t₁, t.execAll done = (t₁, none) := by
  -- Complete `done` with what each writer has left, in the writers' order.
  let left : Writer → List Statement := fun w => (through w writes).drop (through w done).length
  have leftOwn : ∀ w, ∀ s ∈ left w, s.writer = some w :=
    fun w s mem => writer_of_mem_through (List.mem_of_mem_drop mem)
  have completed : ∀ w, through w (done ++ inWriterOrder left) = through w writes := by
    intro w
    rw [through_append, through_inWriterOrder leftOwn]
    exact List.prefix_iff_eq_append.1 (prefixes w)
  have completedWriter : ∀ s ∈ done ++ inWriterOrder left, s.writer.isSome := by
    intro s mem
    rcases List.mem_append.1 mem with mem | mem
    · exact hasWriter s mem
    · simp only [inWriterOrder, List.mem_append] at mem
      rcases mem with ((mem | mem) | mem) | mem <;> simp [leftOwn _ s mem]
  have alike := runAlike_byWriter positive ofRevision completedWriter completed
  obtain ⟨t₁, ranDone, -⟩ := execAll_append_eq_none.1 ((alike t t').2 runs)
  exact ⟨t₁, ranDone⟩

end Tables

end TreeHistory
