import Mathlib
import TreeHistory.Proofs.Tree.Within

/-!
# Canonical paths

`Path.normalize` trims the raw text, cuts it at slashes and writes back the non-empty pieces:
its results are `Segmented`, and a segmented path splits into a parent and a name that join back
into it (`Segmented.join_split`). Normalizing is not a projection: a blank before a trailing slash
survives the first pass and is trimmed by the second (`normalize_keeps_blank_before_slash`). A
result is normalized to itself exactly when it does not end in a blank
(`normalize_normalize_iff`).
-/

namespace TreeHistory
namespace Path

/-! ## Cutting at slashes -/

theorem splitSlash_ne_nil : ∀ cs : List Char, splitSlash cs ≠ []
  | [] => by simp [splitSlash]
  | c :: cs => by
    unfold splitSlash
    split
    · simp
    · split <;> simp

/-- A character other than a slash joins the first piece. -/
theorem splitSlash_cons_of_ne {c : Char} (notSlash : c ≠ '/') {cs : List Char}
    {piece : List Char} {pieces : List (List Char)} (cut : splitSlash cs = piece :: pieces) :
    splitSlash (c :: cs) = (c :: piece) :: pieces := by
  simp [splitSlash, notSlash, cut]

/-- A slash between two texts separates their pieces. -/
theorem splitSlash_append_slash (first rest : List Char) :
    splitSlash (first ++ '/' :: rest) = splitSlash first ++ splitSlash rest := by
  induction first with
  | nil => simp [splitSlash]
  | cons c first ih =>
    by_cases slash : c = '/'
    · simp [splitSlash, slash, ih]
    · obtain ⟨piece, pieces, cut⟩ := List.exists_cons_of_ne_nil (splitSlash_ne_nil first)
      rw [List.cons_append, splitSlash_cons_of_ne slash (by rw [ih, cut, List.cons_append]),
        splitSlash_cons_of_ne slash cut, List.cons_append]

/-- A text without a slash is one piece. -/
theorem splitSlash_of_not_slash {cs : List Char} (noSlash : '/' ∉ cs) : splitSlash cs = [cs] := by
  induction cs with
  | nil => rfl
  | cons c cs ih =>
    have notSlash : c ≠ '/' := fun same => noSlash (same ▸ List.mem_cons_self)
    exact splitSlash_cons_of_ne notSlash (ih fun mem => noSlash (List.mem_cons_of_mem c mem))

/-- The pieces hold no slash, and only characters of the text. -/
theorem mem_splitSlash {cs piece : List Char} (mem : piece ∈ splitSlash cs) :
    '/' ∉ piece ∧ ∀ c ∈ piece, c ∈ cs := by
  induction cs generalizing piece with
  | nil =>
    simp only [splitSlash, List.mem_singleton] at mem
    subst mem
    simp
  | cons c cs ih =>
    by_cases slash : c = '/'
    · simp only [splitSlash, slash, if_true, List.mem_cons] at mem
      rcases mem with rfl | later
      · simp
      · exact ⟨(ih later).1, fun x xMem => List.mem_cons_of_mem _ ((ih later).2 x xMem)⟩
    · obtain ⟨first, pieces, cut⟩ := List.exists_cons_of_ne_nil (splitSlash_ne_nil cs)
      rw [splitSlash_cons_of_ne slash cut, List.mem_cons] at mem
      rcases mem with rfl | later
      · have firstMem := ih (cut ▸ List.mem_cons_self)
        refine ⟨?_, fun x xMem => ?_⟩
        · simp [Ne.symm slash, firstMem.1]
        · rcases List.mem_cons.1 xMem with rfl | inFirst
          · exact List.mem_cons_self
          · exact List.mem_cons_of_mem _ (firstMem.2 x inFirst)
      · have laterMem := ih (cut ▸ List.mem_cons_of_mem _ later)
        exact ⟨laterMem.1, fun x xMem => List.mem_cons_of_mem _ (laterMem.2 x xMem)⟩

/-- Each piece and the slash after it account for the text and one more character. -/
theorem sum_splitSlash_length (cs : List Char) :
    ((splitSlash cs).map fun piece => piece.length + 1).sum = cs.length + 1 := by
  induction cs with
  | nil => simp [splitSlash]
  | cons c cs ih =>
    by_cases slash : c = '/'
    · simp only [splitSlash, slash, if_true, List.map_cons, List.sum_cons, List.length_cons,
        List.length_nil]
      omega
    · obtain ⟨piece, pieces, cut⟩ := List.exists_cons_of_ne_nil (splitSlash_ne_nil cs)
      rw [cut, List.map_cons, List.sum_cons] at ih
      simp only [splitSlash_cons_of_ne slash cut, List.map_cons, List.sum_cons, List.length_cons]
      omega

/-! ## Writing segments back -/

/-- The pieces of a text without its leading slash, after that slash, are its segments. -/
theorem splitSlash_render {first : List Char} {rest : List (List Char)} (noSlash : '/' ∉ first)
    (restNoSlash : ∀ seg ∈ rest, '/' ∉ seg) :
    splitSlash (first ++ rest.flatMap fun seg => '/' :: seg) = first :: rest := by
  induction rest generalizing first with
  | nil => simp [splitSlash_of_not_slash noSlash]
  | cons seg rest ih =>
    rw [List.flatMap_cons, List.cons_append, splitSlash_append_slash, splitSlash_of_not_slash noSlash,
      ih (restNoSlash seg List.mem_cons_self) fun other mem =>
        restNoSlash other (List.mem_cons_of_mem _ mem)]
    rfl

/-- Segments, none empty or holding a slash, written back are cut into themselves. -/
theorem segments_renderChars {segs : List (List Char)}
    (valid : ∀ seg ∈ segs, seg ≠ [] ∧ '/' ∉ seg) : segments (renderChars segs) = segs := by
  cases segs with
  | nil => rfl
  | cons first rest =>
    have cut : splitSlash (renderChars (first :: rest)) = [] :: first :: rest := by
      have written : renderChars (first :: rest) =
          [] ++ '/' :: (first ++ rest.flatMap fun seg => '/' :: seg) := rfl
      rw [written, splitSlash_append_slash, splitSlash_render (valid first List.mem_cons_self).2
        fun seg mem => (valid seg (List.mem_cons_of_mem _ mem)).2]
      rfl
    rw [segments, cut]
    simp only [List.isEmpty_nil, Bool.not_true, Bool.false_eq_true, not_false_eq_true,
      List.filter_cons_of_neg]
    refine List.filter_eq_self.2 fun seg mem => ?_
    simpa using (valid seg mem).1

/-- Writing back the segments of a text that starts with a slash makes it no longer. -/
theorem length_renderChars_segments_le (rest : List Char) :
    (renderChars (segments ('/' :: rest))).length ≤ rest.length + 1 := by
  have sameSegments : segments ('/' :: rest) = segments rest := by
    simp [segments, splitSlash]
  rw [sameSegments]
  cases written : segments rest with
  | nil => simp [renderChars]
  | cons first others =>
    have lengths : (renderChars (first :: others)).length =
        ((first :: others).map fun piece => piece.length + 1).sum := by
      simp [renderChars, List.length_flatMap]
      omega
    rw [lengths, ← written, ← sum_splitSlash_length rest]
    exact (List.filter_sublist.map _).sum_le_sum fun _ _ => Nat.zero_le _

/-! ## Segmented paths -/

/-- A path written as a slash before each of its segments, none empty or holding a slash. -/
def Segmented (path : String) : Prop :=
  ∃ segs : List (List Char), (∀ seg ∈ segs, seg ≠ [] ∧ '/' ∉ seg) ∧
    path.toList = renderChars segs

/-- What a successful normalization found: the trimmed text, not empty, holding no control
character and no dot segment, whose segments the result writes back. -/
theorem normalize_eq_ok {raw path : String} (normalized : normalize raw = .ok path) :
    Text.trimChars raw.toList ≠ [] ∧
      (∀ c ∈ Text.trimChars raw.toList, Text.isControl c = false) ∧
      (segments (Text.trimChars raw.toList)).find? isDotSegment = none ∧
      path.toList = renderChars (segments (Text.trimChars raw.toList)) := by
  unfold normalize at normalized
  dsimp only at normalized
  split at normalized
  · simp at normalized
  rename_i nonempty
  split at normalized
  · simp at normalized
  rename_i noControl
  split at normalized
  · simp at normalized
  rename_i noDot
  refine ⟨by simpa using nonempty, by simpa using noControl, noDot, ?_⟩
  rw [← (Except.ok.inj normalized), String.toList_ofList]

/-- The segments of a text hold none of its slashes, and are not empty. -/
theorem segments_valid (cs : List Char) : ∀ seg ∈ segments cs, seg ≠ [] ∧ '/' ∉ seg := by
  intro seg mem
  obtain ⟨piece, pieceNonempty⟩ := List.mem_filter.1 mem
  exact ⟨by simpa using pieceNonempty, (mem_splitSlash piece).1⟩

/-- A character written back is a slash or a character of the text. -/
theorem mem_renderChars_segments {cs : List Char} {c : Char}
    (mem : c ∈ renderChars (segments cs)) : c = '/' ∨ c ∈ cs := by
  cases written : segments cs with
  | nil =>
    rw [written] at mem
    exact .inl (List.mem_singleton.1 mem)
  | cons first others =>
    rw [written] at mem
    obtain ⟨seg, segMem, inSeg⟩ := List.mem_flatMap.1 mem
    rcases List.mem_cons.1 inSeg with rfl | inPiece
    · exact .inl rfl
    · have piece : seg ∈ splitSlash cs := (List.mem_filter.1 (written ▸ segMem)).1
      exact .inr ((mem_splitSlash piece).2 c inPiece)

theorem Segmented.of_normalize {raw path : String} (normalized : normalize raw = .ok path) :
    Segmented path :=
  ⟨_, segments_valid _, (normalize_eq_ok normalized).2.2.2⟩

/-- A segmented path other than the root splits into a segmented parent and a name that join
back into it. -/
theorem Segmented.join_split {path : String} (segmented : Segmented path) (notRoot : path ≠ root) :
    ∃ parent name, split path = .ok (parent, name) ∧ join parent name = path ∧
      Segmented parent := by
  obtain ⟨segs, valid, chars⟩ := segmented
  -- The root has no segments; otherwise the last segment is the name.
  obtain ⟨init, last, rfl⟩ : ∃ init last, segs = init ++ [last] := by
    cases segs using List.reverseRecOn with
    | nil => exact absurd (String.toList_inj.1 (by rw [chars]; rfl)) notRoot
    | append_singleton init last _ => exact ⟨init, last, rfl⟩
  have lastValid := valid last (by simp)
  have initValid : ∀ seg ∈ init, seg ≠ [] ∧ '/' ∉ seg :=
    fun seg mem => valid seg (List.mem_append_left _ mem)
  have written : path.toList = init.flatMap (fun seg => '/' :: seg) ++ '/' :: last := by
    rw [chars]
    cases init <;> simp [renderChars]
  have broken : breakLast path.toList = some (init.flatMap (fun seg => '/' :: seg), last) := by
    have kept : ∀ c ∈ last.reverse, (c != '/') = true := by
      intro c mem
      have differs : c ≠ '/' := fun same => lastValid.2 (same ▸ List.mem_reverse.1 mem)
      simpa using differs
    rw [written]
    simp [breakLast, List.span_eq_takeWhile_dropWhile, List.takeWhile_append_of_pos kept,
      List.dropWhile_append_of_pos kept]
  cases init with
  | nil =>
    refine ⟨root, String.ofList last, ?_, ?_, ⟨[], by simp, rfl⟩⟩
    · rw [split, if_neg notRoot, broken]
      rfl
    · apply String.toList_inj.1
      simp [join, written, root]
  | cons first others =>
    have parentChars : renderChars (first :: others) =
        (first :: others).flatMap fun seg => '/' :: seg := rfl
    have parentNotRoot : String.ofList ((first :: others).flatMap fun seg => '/' :: seg) ≠ root := by
      intro isRoot
      have lengths := congrArg (fun path : String => path.toList.length) isRoot
      have firstNonempty := (initValid first List.mem_cons_self).1
      simp only [String.toList_ofList, List.flatMap_cons, List.length_append, List.length_cons,
        root] at lengths
      have : 0 < first.length := List.length_pos_iff.2 firstNonempty
      simp at lengths
      omega
    refine ⟨_, String.ofList last, ?_, ?_, ⟨first :: others, initValid, by
      rw [String.toList_ofList, parentChars]⟩⟩
    · rw [split, if_neg notRoot, broken]
      rfl
    · apply String.toList_inj.1
      rw [join, if_neg parentNotRoot]
      simp [written]

/-- A parent path is shorter than the path it was split from. -/
theorem length_lt_of_split {path parent name : String}
    (split : Path.split path = .ok (parent, name)) : parent.length < path.length := by
  obtain ⟨rest, chars, -⟩ := within_of_split split
  have differs : parent ≠ path := ne_of_lt (split_lt split)
  cases rest with
  | nil => exact absurd (String.toList_inj.1 (by rw [chars, List.append_nil])) differs
  | cons c rest =>
    have lengths := congrArg List.length chars
    simp only [List.length_append, List.length_cons] at lengths
    rw [← String.length_toList, ← String.length_toList, lengths]
    omega

/-! ## Normalizing a normalized path -/

/-- Trimming a text that starts with a character that is not blank only trims its end. -/
theorem trimChars_of_head {c : Char} (notBlank : Text.isBlank c = false) (rest : List Char) :
    Text.trimChars (c :: rest) = (c :: rest).rdropWhile Text.isBlank := by
  simp [Text.trimChars, Text.trimFront, notBlank, List.rdropWhile]

/-- Trimming the end of a text that starts with a character other than a blank keeps that
character. -/
theorem rdropWhile_blank_of_head {c : Char} (notBlank : Text.isBlank c = false) (rest : List Char) :
    ∃ kept, (c :: rest).rdropWhile Text.isBlank = c :: kept := by
  have prefixOf := List.rdropWhile_prefix (p := Text.isBlank) (l := c :: rest)
  have nonempty : (c :: rest).rdropWhile Text.isBlank ≠ [] := by
    rw [Ne, List.rdropWhile_eq_nil_iff]
    intro allBlank
    rw [allBlank c List.mem_cons_self] at notBlank
    exact Bool.noConfusion notBlank
  obtain ⟨head, tail, consEq⟩ := List.exists_cons_of_ne_nil nonempty
  obtain ⟨extra, extraEq⟩ := id prefixOf
  rw [consEq, List.cons_append] at extraEq
  obtain ⟨rfl, -⟩ := List.cons.inj extraEq
  exact ⟨tail, consEq⟩

/-- Trimming the end of a text that ends in a blank makes it shorter. -/
theorem length_rdropWhile_blank_lt {chars : List Char} {c : Char}
    (last : chars.getLast? = some c) (blank : Text.isBlank c = true) :
    (chars.rdropWhile Text.isBlank).length < chars.length := by
  have prefixOf := List.rdropWhile_prefix (p := Text.isBlank) (l := chars)
  have notSelf : chars.rdropWhile Text.isBlank ≠ chars := by
    rw [Ne, List.rdropWhile_eq_self_iff]
    intro notLast
    have nonempty : chars ≠ [] := by
      rintro rfl
      simp at last
    rw [List.getLast?_eq_some_getLast nonempty] at last
    exact notLast nonempty (Option.some.inj last ▸ blank)
  exact lt_of_le_of_ne prefixOf.length_le fun same => notSelf (prefixOf.eq_of_length same)

/-- A normalized path is normalized to itself exactly when it does not end in a blank character,
as `a /` gives `/a `, which normalizes to `/a`. -/
theorem normalize_normalize_iff {raw path : String} (normalized : normalize raw = .ok path) :
    normalize path = .ok path ↔
      ∀ c, path.toList.getLast? = some c → Text.isBlank c = false := by
  obtain ⟨-, noControl, noDot, chars⟩ := normalize_eq_ok normalized
  -- The path is a slash, then what follows it.
  obtain ⟨rest, startsWithSlash⟩ : ∃ rest, path.toList = '/' :: rest := by
    rw [chars]
    cases segments (Text.trimChars raw.toList) with
    | nil => exact ⟨[], rfl⟩
    | cons first others => exact ⟨_, rfl⟩
  have slashNotBlank : Text.isBlank '/' = false := by decide
  have trimmed := trimChars_of_head slashNotBlank rest
  constructor
  · intro again c last
    by_contra notFalse
    have blank : Text.isBlank c = true := by simpa using notFalse
    -- Trimming drops the blank at the end, and writing the segments back makes nothing longer.
    obtain ⟨-, -, -, againChars⟩ := normalize_eq_ok again
    rw [startsWithSlash, trimmed] at againChars
    obtain ⟨kept, keptChars⟩ := rdropWhile_blank_of_head slashNotBlank rest
    have shorter := length_rdropWhile_blank_lt (startsWithSlash ▸ last) blank
    rw [keptChars] at shorter
    have bound := length_renderChars_segments_le kept
    rw [← keptChars, ← againChars] at bound
    simp only [List.length_cons] at bound shorter
    omega
  · intro notBlankAtEnd
    -- Trimming finds nothing to drop, and the segments are the ones written.
    have untrimmed : Text.trimChars path.toList = path.toList := by
      rw [startsWithSlash, trimmed, List.rdropWhile_eq_self_iff]
      intro nonempty blank
      have endsIn := notBlankAtEnd _ (by rw [startsWithSlash, List.getLast?_eq_some_getLast nonempty])
      rw [endsIn] at blank
      exact Bool.noConfusion blank
    have sameSegments : segments path.toList = segments (Text.trimChars raw.toList) := by
      rw [chars, segments_renderChars (segments_valid _)]
    have noControlInPath : ∀ c ∈ path.toList, Text.isControl c = false := by
      intro c mem
      rw [chars] at mem
      rcases mem_renderChars_segments mem with rfl | inTrimmed
      · decide
      · exact noControl c inTrimmed
    unfold normalize
    rw [untrimmed, if_neg (by simp [startsWithSlash]), if_neg (by simpa using noControlInPath),
      sameSegments, noDot, ← chars, String.ofList_toList]

/-- A path without blanks is normalized to itself: `trunk//src/` gives `/trunk/src`, which
normalizing leaves alone. -/
theorem normalize_trunk_src_twice :
    normalize "trunk//src/" = .ok "/trunk/src" ∧ normalize "/trunk/src" = .ok "/trunk/src" := by
  have normalized : normalize "trunk//src/" = .ok "/trunk/src" := by decide
  refine ⟨normalized, (normalize_normalize_iff normalized).2 fun c last => ?_⟩
  have endsIn : ("/trunk/src" : String).toList.getLast? = some 'c' := by decide
  rw [endsIn, Option.some.injEq] at last
  rw [← last]
  decide

/-- A blank before a trailing slash survives normalizing once and not twice: `a /` gives `/a `,
which gives `/a`. -/
theorem normalize_keeps_blank_before_slash :
    normalize "a /" = .ok "/a " ∧ normalize "/a " = .ok "/a" := by
  decide

end Path
end TreeHistory
