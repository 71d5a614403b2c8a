import TreeHistory.Proofs.Tree.Rebuild
import Mathlib.Data.List.TakeWhile

/-!
# Paths at or under a path

A path lies within another when it is that path or below it (`Path.Within`). An event changes the
tree at or below its path, and two paths within neither of each other have nothing below them in
common (`Within.comparable`).
-/

namespace TreeHistory

namespace Path

/-- `path` is `ancestor` or lies below it: the characters of `ancestor`, then the rest, which
starts a new segment. -/
def Within (ancestor path : String) : Prop :=
  ∃ rest, path.toList = ancestor.toList ++ rest ∧
    (rest = [] ∨ rest.head? = some '/' ∨ ancestor.toList.getLast? = some '/')

theorem Within.refl (path : String) : Within path path := ⟨[], by simp, .inl rfl⟩

theorem Within.trans {a b c : String} (ab : Within a b) (bc : Within b c) : Within a c := by
  obtain ⟨first, bChars, firstBoundary⟩ := ab
  obtain ⟨second, cChars, secondBoundary⟩ := bc
  refine ⟨first ++ second, by rw [cChars, bChars, List.append_assoc], ?_⟩
  rcases firstBoundary with rfl | slash | ends
  · -- `b` is `a`, so the boundary after `b` is one after `a`.
    rw [List.append_nil] at bChars
    rw [List.nil_append]
    rw [bChars] at secondBoundary
    exact secondBoundary
  · cases first with
    | nil => exact absurd slash (by simp)
    | cons head tail => exact .inr (.inl slash)
  · exact .inr (.inr ends)

/-- A path within `d` that starts `b`, itself within `d`, is within `b`. -/
theorem Within.of_prefix {a b d : String} (ad : Within a d) (bd : Within b d) {middle : List Char}
    (bChars : b.toList = a.toList ++ middle) : Within a b := by
  obtain ⟨first, dChars, boundary⟩ := ad
  obtain ⟨second, dChars', -⟩ := bd
  refine ⟨middle, bChars, ?_⟩
  -- The rest after `a` in `d` is `middle` and then the rest after `b`.
  have rests : first = middle ++ second := by
    rw [dChars', bChars, List.append_assoc] at dChars
    exact (List.append_cancel_left dChars).symm
  rcases boundary with empty | slash | ends
  · rw [empty] at rests
    exact .inl (List.append_eq_nil_iff.1 rests.symm).1
  · cases middle with
    | nil => exact .inl rfl
    | cons head tail =>
      rw [rests] at slash
      exact .inr (.inl slash)
  · exact .inr (.inr ends)

/-- Two paths a path lies within lie one within the other. -/
theorem Within.comparable {a b d : String} (ad : Within a d) (bd : Within b d) :
    Within a b ∨ Within b a := by
  have aPrefix : a.toList <+: d.toList := by
    obtain ⟨rest, chars, -⟩ := ad
    exact ⟨rest, chars.symm⟩
  have bPrefix : b.toList <+: d.toList := by
    obtain ⟨rest, chars, -⟩ := bd
    exact ⟨rest, chars.symm⟩
  rcases le_total a.toList.length b.toList.length with shorter | longer
  · obtain ⟨middle, chars⟩ := List.prefix_of_prefix_length_le aPrefix bPrefix shorter
    exact .inl (ad.of_prefix bd chars.symm)
  · obtain ⟨middle, chars⟩ := List.prefix_of_prefix_length_le bPrefix aPrefix longer
    exact .inr (bd.of_prefix ad chars.symm)

/-- A path sorts after every other path it lies within. -/
theorem Within.lt {a b : String} (within : Within a b) (ne : a ≠ b) : a < b := by
  obtain ⟨rest, chars, -⟩ := within
  cases rest with
  | nil => exact absurd (String.toList_inj.1 (by rw [chars, List.append_nil])) ne
  | cons head tail =>
    rw [String.lt_iff, chars]
    have longer : a.toList ++ [] < a.toList ++ head :: tail :=
      List.append_left_lt (List.nil_lt_cons head tail)
    simpa using longer

/-- Of two paths neither of which lies within the other, nothing lies within both. -/
theorem Within.apart {a b path : String} (ab : ¬ Within a b) (ba : ¬ Within b a)
    (within : Within a path) : ¬ Within b path :=
  fun other => (within.comparable other).elim ab ba

/-- A path lies within the parent it splits into. -/
theorem within_of_split {path parent name : String} (split : Path.split path = .ok (parent, name)) :
    Within parent path := by
  unfold Path.split at split
  by_cases isRoot : path = root
  · simp [isRoot] at split
  cases broken : breakLast path.toList with
  | none => simp [isRoot, broken] at split
  | some pieces =>
    obtain ⟨parentChars, nameChars⟩ := pieces
    have chars := breakLast_eq_some broken
    cases parentChars with
    | nil =>
      simp only [isRoot, broken, if_false, Except.ok.injEq, Prod.mk.injEq] at split
      obtain ⟨rfl, -⟩ := split
      -- Below the root the rest follows the root's own slash.
      exact ⟨nameChars, by rw [chars]; rfl, .inr (.inr rfl)⟩
    | cons first others =>
      simp only [isRoot, broken, if_false, Except.ok.injEq, Prod.mk.injEq] at split
      obtain ⟨rfl, -⟩ := split
      exact ⟨'/' :: nameChars, by rw [chars, String.toList_ofList], .inr (.inl rfl)⟩

/-- The name a path splits into has no slash. -/
theorem not_slash_of_split {path parent name : String}
    (split : Path.split path = .ok (parent, name)) : '/' ∉ name.toList := by
  unfold Path.split at split
  by_cases isRoot : path = root
  · simp [isRoot] at split
  cases broken : breakLast path.toList with
  | none => simp [isRoot, broken] at split
  | some pieces =>
    obtain ⟨parentChars, nameChars⟩ := pieces
    have named : name = String.ofList nameChars := by
      cases parentChars <;>
        simp only [isRoot, broken, if_false, Except.ok.injEq, Prod.mk.injEq] at split <;>
        exact split.2.symm
    rw [named, String.toList_ofList]
    -- The name is what comes after the last slash.
    unfold breakLast at broken
    rw [List.span_eq_takeWhile_dropWhile] at broken
    cases rest : List.dropWhile (fun c => c != '/') path.toList.reverse with
    | nil => simp [rest] at broken
    | cons slash parentRev =>
      simp only [rest, Option.some.injEq, Prod.mk.injEq] at broken
      rw [← broken.2, List.mem_reverse]
      intro taken
      simpa using List.mem_takeWhile_imp taken

/-- The child `name` of a path lies within it. -/
theorem within_join {parent : String} (name : String) : Within parent (join parent name) := by
  by_cases isRoot : parent = root
  · subst isRoot
    exact ⟨name.toList, by simp [join, root], .inr (.inr rfl)⟩
  · exact ⟨'/' :: name.toList, by simp [join, isRoot], .inr (.inl rfl)⟩

/-- Joining a name without a slash to a path other than the root splits back into the two. -/
theorem split_join {parent name : String} (notRoot : parent ≠ root) (nonempty : parent ≠ "")
    (noSlash : '/' ∉ name.toList) : Path.split (join parent name) = .ok (parent, name) := by
  have chars : (join parent name).toList = parent.toList ++ '/' :: name.toList := by
    simp [join, notRoot]
  have broken : breakLast (join parent name).toList = some (parent.toList, name.toList) := by
    rw [chars]
    unfold breakLast
    have kept : ∀ c ∈ name.toList.reverse, (c != '/') = true := by
      intro c mem
      have differs : c ≠ '/' := fun same => noSlash (same ▸ List.mem_reverse.1 mem)
      simpa using differs
    simp [List.span_eq_takeWhile_dropWhile, List.takeWhile_append_of_pos kept,
      List.dropWhile_append_of_pos kept]
  have notRootPath : join parent name ≠ root := by
    intro isRoot
    have lengths := congrArg (fun path : String => path.toList.length) isRoot
    simp only [chars, List.length_append, List.length_cons] at lengths
    have positive : 0 < parent.toList.length :=
      List.length_pos_iff.2 fun empty => nonempty (String.toList_inj.1 (by simpa using empty))
    simp [root] at lengths
    omega
  cases parentChars : parent.toList with
  | nil => exact absurd (String.toList_inj.1 (by simpa using parentChars)) nonempty
  | cons first others =>
    rw [parentChars] at broken
    rw [Path.split, if_neg notRootPath, broken]
    simp only
    rw [← parentChars, String.ofList_toList, String.ofList_toList]

end Path
end TreeHistory
