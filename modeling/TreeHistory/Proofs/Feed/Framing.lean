import Mathlib
import TreeHistory.Feed.Lines
import TreeHistory.Proofs.Except

/-!
# How a JSON-lines feed is framed

Pulling change sets from a UTF-8 feed gives, call after call, the reading of each line that is
not blank once trimmed, in order, and then nothing (`Reader.pulls_nonblank_lines`); an error
carries the line's number among all the lines. It rests on UTF-8 decoding splitting at a byte
below 0x80 (`Text.decodeUtf8_append_of_ascii`) and the reader's pieces being the feed's lines
(`Feed.splitLines_eq`).
-/

namespace TreeHistory

/-! ## UTF-8 splits at a byte below 0x80 -/

namespace Text

/-- No byte below 0x80 continues a sequence. -/
theorem isContinuation_of_ascii {c : UInt8} (ascii : c < 0x80) : isContinuation c = false := by
  simp only [isContinuation, Bool.and_eq_false_iff, decide_eq_false_iff_not]
  exact .inl (UInt8.not_le.2 ascii)

/-- A byte below 0x80 is below every bound the second byte of a sequence must reach. -/
theorem decide_le_of_ascii {c : UInt8} (ascii : c < 0x80) {k : UInt8} (high : 0x80 ≤ k) :
    decide (k ≤ c) = false := by
  rw [UInt8.lt_iff_toNat_lt] at ascii
  rw [UInt8.le_iff_toNat_le] at high
  simp only [decide_eq_false_iff_not, UInt8.le_iff_toNat_le]
  simp only [UInt8.toNat_ofNat] at ascii high
  omega

/-- A byte below 0x80 is a character of its own. -/
theorem decodeUtf8_ascii_cons {b : UInt8} (ascii : b < 0x80) (rest : List UInt8) :
    decodeUtf8 (b :: rest) = (decodeUtf8 rest).map (Char.ofNat b.toNat :: ·) := by
  cases rest with
  | nil => rw [decodeUtf8.eq_3, if_pos ascii]
  | cons c more => rw [decodeUtf8.eq_2, if_pos ascii]

/-- A lead byte alone is no character. -/
theorem decodeUtf8_lead_nil {b : UInt8} (lead : ¬b < 0x80) : decodeUtf8 [b] = none := by
  rw [decodeUtf8.eq_3, if_neg lead]
  split_ifs <;> rfl

/-- A lead byte followed by a byte below 0x80 is no character. -/
theorem decodeUtf8_lead_ascii {b c : UInt8} (lead : ¬b < 0x80) (ascii : c < 0x80)
    (more : List UInt8) : decodeUtf8 (b :: c :: more) = none := by
  have low128 := decide_le_of_ascii ascii (k := 128) (by decide)
  have low144 := decide_le_of_ascii ascii (k := 144) (by decide)
  have low160 := decide_le_of_ascii ascii (k := 160) (by decide)
  have alone := isContinuation_of_ascii ascii
  rw [decodeUtf8.eq_2, if_neg lead]
  -- One case for each length of sequence the lead byte announces.
  split
  · simp [alone]
  split
  · cases more with
    | nil => rfl
    | cons d more => simp [low128, low160, alone]
  split
  · rcases more with _ | ⟨d, _ | ⟨e, more⟩⟩
    · rfl
    · rfl
    · simp [low128, low144, alone]
  · rfl

/-- A lead byte followed by the end or by a byte below 0x80 is no character. -/
theorem decodeUtf8_lead_boundary {b : UInt8} (lead : ¬b < 0x80) {rest : List UInt8}
    (boundary : ∀ c ∈ rest.head?, c < 0x80) : decodeUtf8 (b :: rest) = none := by
  cases rest with
  | nil => exact decodeUtf8_lead_nil lead
  | cons c more => exact decodeUtf8_lead_ascii lead (boundary c rfl) more

section Leads

variable {b : UInt8} (notAscii : ¬b < 0x80)
  (notTwo : ¬(decide (0xC2 ≤ b) && decide (b ≤ 0xDF)) = true)
include notAscii notTwo

/-- A three-byte lead and one byte, then the end or a byte below 0x80, is no character. -/
theorem decodeUtf8_three_boundary (three : (decide (0xE0 ≤ b) && decide (b ≤ 0xEF)) = true)
    (c : UInt8) {rest : List UInt8} (boundary : ∀ d ∈ rest.head?, d < 0x80) :
    decodeUtf8 (b :: c :: rest) = none := by
  rw [decodeUtf8.eq_2, if_neg notAscii, if_neg notTwo, if_pos three]
  cases rest with
  | nil => rfl
  | cons d more => simp [isContinuation_of_ascii (boundary d rfl)]

/-- A byte that leads no sequence is no character. -/
theorem decodeUtf8_not_lead (notThree : ¬(decide (0xE0 ≤ b) && decide (b ≤ 0xEF)) = true)
    (notFour : ¬(decide (0xF0 ≤ b) && decide (b ≤ 0xF4)) = true) (rest : List UInt8) :
    decodeUtf8 (b :: rest) = none := by
  cases rest with
  | nil =>
    rw [decodeUtf8.eq_3, if_neg notAscii, if_neg notTwo, if_neg notThree, if_neg notFour]
  | cons c more =>
    rw [decodeUtf8.eq_2, if_neg notAscii, if_neg notTwo, if_neg notThree, if_neg notFour]

variable (notThree : ¬(decide (0xE0 ≤ b) && decide (b ≤ 0xEF)) = true)
  (four : (decide (0xF0 ≤ b) && decide (b ≤ 0xF4)) = true)
include notThree four

/-- A four-byte lead and one byte, then the end or a byte below 0x80, is no character. -/
theorem decodeUtf8_four_boundary (c : UInt8) {rest : List UInt8}
    (boundary : ∀ d ∈ rest.head?, d < 0x80) : decodeUtf8 (b :: c :: rest) = none := by
  rw [decodeUtf8.eq_2, if_neg notAscii, if_neg notTwo, if_neg notThree, if_pos four]
  rcases rest with _ | ⟨d, _ | ⟨e, more⟩⟩
  · rfl
  · rfl
  · simp [isContinuation_of_ascii (boundary d rfl)]

/-- A four-byte lead and two bytes, then the end or a byte below 0x80, is no character. -/
theorem decodeUtf8_four_boundary₂ (c d : UInt8) {rest : List UInt8}
    (boundary : ∀ e ∈ rest.head?, e < 0x80) : decodeUtf8 (b :: c :: d :: rest) = none := by
  rw [decodeUtf8.eq_2, if_neg notAscii, if_neg notTwo, if_neg notThree, if_pos four]
  cases rest with
  | nil => rfl
  | cons e more => simp [isContinuation_of_ascii (boundary e rfl)]

end Leads

theorem map_cons_bind (ch : Char) (o p : Option (List Char)) :
    (o.bind fun x => p.map (x ++ ·)).map (ch :: ·) =
      (o.map (ch :: ·)).bind fun x => p.map (x ++ ·) := by
  cases o <;> simp [Function.comp_def]

/-- Decoding splits where the bytes after the split start with a byte below 0x80, or end: such a
byte never completes a character begun before it. -/
theorem decodeUtf8_append_of_ascii {a b : List UInt8} (boundary : ∀ c ∈ b.head?, c < 0x80) :
    decodeUtf8 (a ++ b) = (decodeUtf8 a).bind fun x => (decodeUtf8 b).map (x ++ ·) := by
  -- The cases of the decoder on `a`: a whole character is decoded alike in `a ++ b`, and a
  -- character cut short by the end of `a` meets a byte of `b` that cannot continue it.
  fun_induction decodeUtf8 a
  case case1 => simp
  case case2 byte rest ascii ih =>
    rw [List.cons_append, decodeUtf8_ascii_cons ascii, ih, map_cons_bind]
  case case3 lead notAscii two c more cont ih =>
    rw [List.cons_append, List.cons_append, decodeUtf8.eq_2, if_neg notAscii, if_pos two,
      if_pos cont, ih, map_cons_bind]
  case case4 lead notAscii two c more notCont =>
    rw [List.cons_append, List.cons_append, decodeUtf8.eq_2, if_neg notAscii, if_pos two,
      if_neg notCont]
    rfl
  case case5 lead notAscii two =>
    exact decodeUtf8_lead_boundary notAscii boundary
  case case6 lead notAscii notTwo three c d more secondOk ok ih =>
    rw [List.cons_append, List.cons_append, List.cons_append, decodeUtf8.eq_2, if_neg notAscii,
      if_neg notTwo, if_pos three]
    dsimp only
    rw [if_pos ok, ih, map_cons_bind]
  case case7 lead notAscii notTwo three c d more secondOk notOk =>
    rw [List.cons_append, List.cons_append, List.cons_append, decodeUtf8.eq_2, if_neg notAscii,
      if_neg notTwo, if_pos three]
    dsimp only
    rw [if_neg notOk]
    rfl
  case case8 lead rest notAscii notTwo three short =>
    rcases rest with _ | ⟨c, _ | ⟨d, more⟩⟩
    · exact decodeUtf8_lead_boundary notAscii boundary
    · exact decodeUtf8_three_boundary notAscii notTwo three c boundary
    · exact absurd rfl (short c d more)
  case case9 lead notAscii notTwo notThree four c d e more secondOk ok ih =>
    rw [List.cons_append, List.cons_append, List.cons_append, List.cons_append, decodeUtf8.eq_2,
      if_neg notAscii, if_neg notTwo, if_neg notThree, if_pos four]
    dsimp only
    rw [if_pos ok, ih, map_cons_bind]
  case case10 lead notAscii notTwo notThree four c d e more secondOk notOk =>
    rw [List.cons_append, List.cons_append, List.cons_append, List.cons_append, decodeUtf8.eq_2,
      if_neg notAscii, if_neg notTwo, if_neg notThree, if_pos four]
    dsimp only
    rw [if_neg notOk]
    rfl
  case case11 lead rest notAscii notTwo notThree four short =>
    rcases rest with _ | ⟨c, _ | ⟨d, _ | ⟨e, more⟩⟩⟩
    · exact decodeUtf8_lead_boundary notAscii boundary
    · exact decodeUtf8_four_boundary notAscii notTwo notThree four c boundary
    · exact decodeUtf8_four_boundary₂ notAscii notTwo notThree four c d boundary
    · exact absurd rfl (short c d e more)
  case case12 lead rest notAscii notTwo notThree notFour =>
    rw [List.cons_append, decodeUtf8_not_lead notAscii notTwo notThree notFour]
    rfl

/-- Decoding splits at a line feed. -/
theorem decodeUtf8_append_lf (a b : List UInt8) :
    decodeUtf8 (a ++ 10 :: b) = (decodeUtf8 a).bind fun x => (decodeUtf8 b).map (x ++ '\n' :: ·) := by
  have lf : (10 : UInt8) < 0x80 := by decide
  rw [decodeUtf8_append_of_ascii fun c mem => by cases mem; exact lf, decodeUtf8_ascii_cons lf]
  cases decodeUtf8 a <;> cases decodeUtf8 b <;> rfl

end Text

/-! ## The lines of a feed -/

namespace Feed

/-- `lines` are the lines of `text` cut at `sep`, only the last one's `sep` possibly missing. -/
def Lines {α : Type} (sep : α) (text : List α) (lines : List (List α)) : Prop :=
  (∀ line ∈ lines, sep ∉ line) ∧
    ((lines.map (· ++ [sep])).flatten = text ∨
      (lines.map (· ++ [sep])).flatten = text ++ [sep] ∧ text ≠ [] ∧ text.getLast? ≠ some sep)

theorem terminated_concat {α : Type} {sep : α} (init : List (List α)) (last : List α) :
    ((init ++ [last]).map (· ++ [sep])).flatten =
      (init.map (· ++ [sep])).flatten ++ last ++ [sep] := by
  simp

/-- Cutting lines that each end in `sep` gives them back, then the cuts of what follows. -/
theorem splitOn_terminated {α : Type} [BEq α] [LawfulBEq α] {sep : α} {lines : List (List α)}
    (free : ∀ line ∈ lines, sep ∉ line) (rest : List α) :
    ((lines.map (· ++ [sep])).flatten ++ rest).splitOn sep = lines ++ rest.splitOn sep := by
  induction lines with
  | nil => simp
  | cons line more ih =>
    rw [List.map_cons, List.flatten_cons, List.append_assoc, List.append_assoc,
      List.singleton_append, List.splitOn_append_cons_self_of_not_mem (free line List.mem_cons_self),
      ih fun l mem => free l (List.mem_cons_of_mem line mem), List.cons_append]

/-- The pieces the reader cuts a feed into are its lines. -/
theorem splitLines_eq {bytes : List UInt8} {lines : List (List UInt8)}
    (cut : Lines 10 bytes lines) : splitLines bytes = lines := by
  obtain ⟨free, whole | ⟨whole, nonempty, unterminated⟩⟩ := cut
  · rcases List.eq_nil_or_concat' lines with rfl | ⟨init, last, rfl⟩
    · simp only [List.map_nil, List.flatten_nil] at whole
      rw [← whole]
      rfl
    · -- The feed ends in a line feed, after which the cut leaves an empty piece.
      have pieces := splitOn_terminated free []
      rw [List.append_nil, whole, List.splitOn_nil] at pieces
      have ends : bytes.getLast? = some 10 := by
        rw [← whole, terminated_concat, List.getLast?_append_of_ne_nil _ (by simp)]
        rfl
      have filled : bytes.isEmpty = false := by
        rw [List.isEmpty_eq_false_iff]
        intro empty
        rw [empty] at ends
        cases ends
      rw [splitLines, if_neg (by rw [filled]; decide)]
      simp only [ends, if_true, pieces, List.dropLast_concat]
  · -- The last line has no line feed: the cut gives it as the last piece.
    rcases List.eq_nil_or_concat' lines with rfl | ⟨init, last, rfl⟩
    · simp at whole
    have lastFree : (10 : UInt8) ∉ last := free last (by simp)
    have initFree : ∀ line ∈ init, (10 : UInt8) ∉ line := fun line mem => free line (by simp [mem])
    rw [terminated_concat] at whole
    have text : (init.map (· ++ [10])).flatten ++ last = bytes := List.append_cancel_right whole
    have pieces := splitOn_terminated initFree last
    rw [text, List.splitOn_eq_singleton lastFree] at pieces
    have filled : bytes.isEmpty = false := List.isEmpty_eq_false_iff.2 nonempty
    rw [splitLines, if_neg (by rw [filled]; decide)]
    simp only [unterminated, if_false, pieces]

/-- Decoding lines that each end in a line feed decodes each line. -/
theorem decodeUtf8_terminated (lines : List (List UInt8)) :
    Text.decodeUtf8 (lines.map (· ++ [10])).flatten =
      (lines.mapM Text.decodeUtf8).map fun texts => (texts.map (· ++ ['\n'])).flatten := by
  induction lines with
  | nil => rfl
  | cons line more ih =>
    rw [List.map_cons, List.flatten_cons, List.append_assoc, List.singleton_append,
      Text.decodeUtf8_append_lf, ih, List.mapM_cons]
    cases Text.decodeUtf8 line <;> cases more.mapM Text.decodeUtf8 <;> simp

/-- The lines of a UTF-8 text are UTF-8 each. -/
theorem mapM_decodeUtf8_of_lines {bytes : List UInt8} (valid : Text.decodeUtf8 bytes ≠ none)
    {lines : List (List UInt8)} (cut : Lines 10 bytes lines) :
    ∃ texts, lines.mapM Text.decodeUtf8 = some texts := by
  obtain ⟨-, whole | ⟨whole, -, -⟩⟩ := cut
  · rw [← whole, decodeUtf8_terminated] at valid
    exact Option.ne_none_iff_exists'.1 fun decoded => valid (by rw [decoded]; rfl)
  · -- The line feed added at the end decodes on its own.
    have added := Text.decodeUtf8_append_lf bytes []
    rw [← whole, decodeUtf8_terminated] at added
    cases decoded : lines.mapM Text.decodeUtf8 with
    | some texts => exact ⟨texts, rfl⟩
    | none =>
      rw [decoded] at added
      cases original : Text.decodeUtf8 bytes with
      | none => exact absurd original valid
      | some chars => rw [original] at added; cases added

/-! ## Every error of a line carries its number -/

end Feed

/-- The number of the line an error belongs to; an error of the stream belongs to none. -/
def FeedError.line? : FeedError → Option Nat
  | .io _ => none
  | .json line => some line
  | .code line _ => some line
  | .path line _ => some line
  | .date line _ => some line
  | .malformed line _ => some line

theorem ChangeLine.toChange_raises (raw : ChangeLine) (line : Nat) :
    Except.Raises (fun e => e.line? = some line) (raw.toChange line) := by
  unfold ChangeLine.toChange
  refine Except.Raises.bind (Except.raises_mapError (fun _ => by rfl) _) fun action _ => ?_
  refine Except.Raises.bind (Except.raises_mapError (fun _ => by rfl) _) fun kind _ => ?_
  refine Except.Raises.bind (Except.raises_mapError (fun _ => by rfl) _) fun path _ => ?_
  dsimp only
  -- The copy source: both halves, neither, or one of them.
  split
  · split
    · exact Except.Raises.bind (Except.raises_mapError (fun _ => by rfl) _) fun _ _ =>
        Except.Raises.bind (Except.raises_pure _) fun _ _ => Except.raises_pure _
    · exact Except.raises_throw_bind (by rfl)
  · exact Except.Raises.bind (Except.raises_pure _) fun _ _ => Except.raises_pure _
  · exact Except.raises_throw_bind (by rfl)
  · exact Except.raises_throw_bind (by rfl)

theorem RevisionLine.toChangeSet_raises (raw : RevisionLine) (line : Nat) :
    Except.Raises (fun e => e.line? = some line) (raw.toChangeSet line) := by
  unfold RevisionLine.toChangeSet
  dsimp only
  split
  · exact Except.raises_throw_bind (by rfl)
  · split
    · exact Except.Raises.bind (Except.raises_pure _) fun _ _ =>
        Except.Raises.bind (Except.raises_mapM fun change _ => change.toChange_raises line)
          fun _ _ => Except.raises_pure _
    · exact Except.raises_throw_bind (by rfl)

/-- Every error of reading a line, whether its JSON, a code, a path, its date or a rule of the
feed is wrong, carries the line's number. -/
theorem Feed.readLine_raises (line : Nat) (text : String) :
    Except.Raises (fun e => e.line? = some line) (Feed.readLine line text) := by
  unfold Feed.readLine
  split
  · exact RevisionLine.toChangeSet_raises _ line
  · intro e failed
    cases failed
    rfl

/-! ## Pulling change sets -/

namespace Feed

/-- The lines of `texts` that are not blank once trimmed, trimmed, each with its number, the
first line numbered `first`. -/
def nonBlank (first : Nat) (texts : List (List Char)) : List (Nat × String) :=
  (texts.zipIdx first).filterMap fun entry =>
    if (Text.trimChars entry.1).isEmpty then none
    else some (entry.2, String.ofList (Text.trimChars entry.1))

theorem nonBlank_cons_blank {first : Nat} {chars : List Char} (texts : List (List Char))
    (blank : (Text.trimChars chars).isEmpty = true) :
    nonBlank first (chars :: texts) = nonBlank (first + 1) texts := by
  simp [nonBlank, List.isEmpty_iff.1 blank]

theorem nonBlank_cons {first : Nat} {chars : List Char} (texts : List (List Char))
    (filled : (Text.trimChars chars).isEmpty = false) :
    nonBlank first (chars :: texts) =
      (first, String.ofList (Text.trimChars chars)) :: nonBlank (first + 1) texts := by
  simp [nonBlank, List.isEmpty_eq_false_iff.1 filled]

/-- Blank lines, a carriage return or a no-break space among them, count for the numbers. -/
example : nonBlank 1 [['\r'], ['\u00a0'], ['{', '}'], ['x']] = [(3, "{}"), (4, "x")] := by
  decide

/-- What a call answers for a non-blank line: its change set, or the error reading it. -/
def answerOf (entry : Nat × String) : Except FeedError (Option ChangeSet) :=
  (readLine entry.1 entry.2).map some

namespace Reader

/-- What the call after `n` calls answers. -/
def nthAnswer (reader : Reader) (n : Nat) : Except FeedError (Option ChangeSet) :=
  ((Prod.snd ∘ next)^[n] reader).next.1

theorem nthAnswer_zero (reader : Reader) : reader.nthAnswer 0 = reader.next.1 := rfl

theorem nthAnswer_succ (reader : Reader) (n : Nat) :
    reader.nthAnswer (n + 1) = reader.next.2.nthAnswer n := by
  simp only [nthAnswer, Function.iterate_succ_apply, Function.comp_apply]

/-- Readers whose next call agrees agree at every call. -/
theorem nthAnswer_congr {reader other : Reader} (same : reader.next = other.next) (n : Nat) :
    reader.nthAnswer n = other.nthAnswer n := by
  cases n with
  | zero => rw [nthAnswer_zero, nthAnswer_zero, same]
  | succ n => rw [nthAnswer_succ, nthAnswer_succ, same]

/-- At the end of the feed every call answers `none`. -/
theorem nthAnswer_end (line n : Nat) : ({ rest := [], line := line } : Reader).nthAnswer n = .ok none := by
  induction n with
  | zero => rfl
  | succ n ih => rw [nthAnswer_succ]; exact ih

theorem nextFrom_blank {line : Nat} {bytes : List UInt8} {chars : List Char}
    (decoded : Text.decodeUtf8 bytes = some chars) (blank : (Text.trimChars chars).isEmpty = true)
    (rest : List (List UInt8)) : nextFrom line (bytes :: rest) = nextFrom (line + 1) rest := by
  rw [nextFrom, decoded]
  exact if_pos blank

theorem nextFrom_filled {line : Nat} {bytes : List UInt8} {chars : List Char}
    (decoded : Text.decodeUtf8 bytes = some chars) (filled : (Text.trimChars chars).isEmpty = false)
    (rest : List (List UInt8)) :
    nextFrom line (bytes :: rest) =
      (answerOf (line + 1, String.ofList (Text.trimChars chars)), { rest := rest, line := line + 1 }) := by
  rw [nextFrom, decoded]
  exact if_neg (by rw [filled]; decide)

/-- A reader that has read `line` lines answers, call after call, for the non-blank lines left,
numbered on from `line + 1`, and then `none`. -/
theorem nthAnswer_lines {lines : List (List UInt8)} {texts : List (List Char)}
    (decoded : lines.mapM Text.decodeUtf8 = some texts) (line n : Nat) :
    ({ rest := lines, line := line } : Reader).nthAnswer n =
      ((nonBlank (line + 1) texts).map answerOf).getD n (.ok none) := by
  induction lines generalizing texts line n with
  | nil =>
    cases decoded
    exact nthAnswer_end line n
  | cons bytes rest ih =>
    rw [List.mapM_cons] at decoded
    obtain ⟨chars, first, decoded⟩ := Option.bind_eq_some_iff.1 decoded
    obtain ⟨others, more, made⟩ := Option.bind_eq_some_iff.1 decoded
    cases made
    cases filled : (Text.trimChars chars).isEmpty with
    | true =>
      -- A blank line is passed over, and counted.
      have passed : ({ rest := bytes :: rest, line := line } : Reader).next =
          ({ rest := rest, line := line + 1 } : Reader).next :=
        nextFrom_blank first filled rest
      rw [nthAnswer_congr passed, nonBlank_cons_blank _ filled]
      exact ih more (line + 1) n
    | false =>
      rw [nonBlank_cons _ filled]
      cases n with
      | zero => rw [nthAnswer_zero, next, nextFrom_filled first filled]; rfl
      | succ n =>
        rw [nthAnswer_succ, next, nextFrom_filled first filled]
        exact ih more (line + 1) n

/-- Pulling change sets from a UTF-8 feed: the call after `n` calls answers for the `n`-th line
that is not blank once trimmed, in order, and `none` once these run out. Each line is read with
its number among all the lines, from 1, and an error carries that number. -/
theorem pulls_nonblank_lines {bytes : List UInt8} (valid : Text.decodeUtf8 bytes ≠ none)
    {lines : List (List UInt8)} (cut : Lines 10 bytes lines) :
    ∃ texts, lines.mapM Text.decodeUtf8 = some texts ∧
      ∀ n, (ofBytes bytes).nthAnswer n = ((nonBlank 1 texts).map answerOf).getD n (.ok none) ∧
        ∀ e, (ofBytes bytes).nthAnswer n = .error e →
          ∃ entry ∈ (nonBlank 1 texts)[n]?, e.line? = some entry.1 := by
  obtain ⟨texts, decoded⟩ := mapM_decodeUtf8_of_lines valid cut
  have answers : ∀ n, (ofBytes bytes).nthAnswer n =
      ((nonBlank 1 texts).map answerOf).getD n (.ok none) := by
    intro n
    rw [ofBytes, splitLines_eq cut]
    exact nthAnswer_lines decoded 0 n
  refine ⟨texts, decoded, fun n => ⟨answers n, fun e failed => ?_⟩⟩
  rw [answers n] at failed
  -- An error comes from the reading of the `n`-th non-blank line.
  rw [List.getD_eq_getElem?_getD, List.getElem?_map] at failed
  cases entry : (nonBlank 1 texts)[n]? with
  | none =>
    rw [entry] at failed
    cases failed
  | some entry' =>
    rw [entry, Option.map_some, Option.getD_some] at failed
    refine ⟨entry', rfl, Feed.readLine_raises entry'.1 entry'.2 e ?_⟩
    cases reading : readLine entry'.1 entry'.2 with
    | error e' =>
      rw [answerOf, reading] at failed
      cases failed
      rfl
    | ok changeSet =>
      rw [answerOf, reading] at failed
      cases failed

/-- A feed whose first line is a lone carriage return and second a no-break space, with no final
line feed: the calls answer for its third and fourth lines. -/
theorem pulls_past_blank_lines :
    Text.decodeUtf8 [13, 10, 0xC2, 0xA0, 10, 123, 125, 10, 120] ≠ none ∧
      Lines (10 : UInt8) [13, 10, 0xC2, 0xA0, 10, 123, 125, 10, 120]
        [[13], [0xC2, 0xA0], [123, 125], [120]] ∧
      ∃ texts, [[13], [0xC2, 0xA0], [123, 125], [120]].mapM Text.decodeUtf8 = some texts ∧
        ∀ n, (ofBytes [13, 10, 0xC2, 0xA0, 10, 123, 125, 10, 120]).nthAnswer n =
            ((nonBlank 1 texts).map answerOf).getD n (.ok none) ∧
          ∀ e, (ofBytes [13, 10, 0xC2, 0xA0, 10, 123, 125, 10, 120]).nthAnswer n = .error e →
            ∃ entry ∈ (nonBlank 1 texts)[n]?, e.line? = some entry.1 := by
  have valid : Text.decodeUtf8 [13, 10, 0xC2, 0xA0, 10, 123, 125, 10, 120] ≠ none := by decide
  have cut : Lines (10 : UInt8) [13, 10, 0xC2, 0xA0, 10, 123, 125, 10, 120]
      [[13], [0xC2, 0xA0], [123, 125], [120]] :=
    ⟨by decide, .inr ⟨by decide, by decide, by decide⟩⟩
  exact ⟨valid, cut, pulls_nonblank_lines valid cut⟩

end Reader

end Feed

end TreeHistory
