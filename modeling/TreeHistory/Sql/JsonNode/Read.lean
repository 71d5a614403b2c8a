import TreeHistory.Sql.JsonNode

/-!
# Reading JSON text

`JsonNode.read` reads a document from text, standard JSON or the forms of JSON5, noting whether
any JSON5 form was used. A text it cannot read gives the position of the first character it could
not take. The reader steps through the text as an array of characters, where a NUL or the end
stands for the end of the text.
-/

namespace TreeHistory
namespace Sql
namespace JsonRead

/-- The deepest that arrays and objects may nest. -/
def maxDepth : Nat := 1000

/-- What reading has noted: whether a JSON5 form was used, and the position of the last mark
or error seen. -/
structure Notes where
  nonstandard : Bool := false
  mark : Nat := 0

/-- Reading that keeps notes. -/
abbrev Reading := StateM Notes

/-- What one step of reading found. -/
inductive Step where
  /-- A value, and the position after it. -/
  | value (node : JsonNode) (next : Nat)
  /-- A closing brace, at the noted mark. -/
  | closeObject
  /-- A closing bracket, at the noted mark. -/
  | closeArray
  /-- A comma, at the noted mark. -/
  | comma
  /-- A colon, at the noted mark. -/
  | colon
  /-- The end of the text. -/
  | finished
  /-- Something that cannot be read, at the noted mark. -/
  | failed

/-- The character at a position; NUL past the end. -/
def charAt (z : Array Char) (i : Nat) : Char := z.getD i (Char.ofNat 0)

/-- The characters from one position up to another. -/
def slice (z : Array Char) (i j : Nat) : String := String.ofList (z.extract i j).toList

/-- Notes a position and gives a step. -/
def markWith (i : Nat) (step : Step) : Reading Step := do
  modify fun n => { n with mark := i }
  pure step

/-- Notes that a form of JSON5 was used. -/
def noteNonstandard : Reading Unit := modify fun n => { n with nonstandard := true }

/-- The blanks of standard JSON. -/
def isJsonSpace (c : Char) : Bool := c = ' ' ∨ c = '\t' ∨ c = '\n' ∨ c = '\r'

/-- The blanks JSON5 adds: the vertical tab, the form feed, and the Unicode spaces, separators
and byte order mark. -/
def isExtraBlank (c : Char) : Bool :=
  let n := c.toNat
  n = 0x0B ∨ n = 0x0C ∨ n = 0xA0 ∨ n = 0x1680 ∨ (0x2000 ≤ n ∧ n ≤ 0x200A) ∨ n = 0x2028 ∨
    n = 0x2029 ∨ n = 0x202F ∨ n = 0x205F ∨ n = 0x3000 ∨ n = 0xFEFF

/-- Whether a character is an ASCII letter or digit. -/
def isWordChar (c : Char) : Bool := c.isAlphanum

/-- Whether a character is a hexadecimal digit. -/
def isHexChar (c : Char) : Bool :=
  c.isDigit ∨ ('a' ≤ c ∧ c ≤ 'f') ∨ ('A' ≤ c ∧ c ≤ 'F')

/-- The position after a run of standard blanks. -/
def skipSpaces (z : Array Char) (i : Nat) : Nat :=
  if i < z.size ∧ isJsonSpace (charAt z i) then skipSpaces z (i + 1) else i
termination_by z.size - i

/-- The position after a run of hexadecimal digits. -/
def hexEnd (z : Array Char) (i : Nat) : Nat :=
  if i < z.size ∧ isHexChar (charAt z i) then hexEnd z (i + 1) else i
termination_by z.size - i

/-- Whether the text at a position spells a word, letters matched in either case. -/
def spellsAt (z : Array Char) (i : Nat) (word : String) : Bool :=
  word.toList.zipIdx.all fun (c, k) => (charAt z (i + k)).toLower = c.toLower

/-- Whether the text at a position is exactly a word, not followed by a letter or digit. -/
def literalAt (z : Array Char) (i : Nat) (word : String) : Bool :=
  word.toList.zipIdx.all (fun (c, k) => charAt z (i + k) = c) ∧
    !isWordChar (charAt z (i + word.length))

/-- The position just past the `*/` that closes a block comment, searching from `j`. -/
def commentClose (z : Array Char) (j : Nat) : Option Nat :=
  if j < z.size then
    let c := charAt z j
    if c = Char.ofNat 0 then none
    else if c = '/' ∧ charAt z (j - 1) = '*' then some (j + 1)
    else commentClose z (j + 1)
  else none
termination_by z.size - j

/-- The position of the end of a line comment's text, searching from `j`: a line break or the
end of the text. -/
def lineEnd (z : Array Char) (j : Nat) : Nat :=
  if j < z.size then
    let c := charAt z j
    if c = Char.ofNat 0 ∨ JsonText.isLineBreak c then j else lineEnd z (j + 1)
  else j
termination_by z.size - j

/-- The position after a comment at `n`, if one starts there: a block comment up to its closing
`*/`, or a line comment up to and past the line break that ends it. -/
def commentAfter (z : Array Char) (n : Nat) : Option Nat :=
  if charAt z n = '/' ∧ charAt z (n + 1) = '*' ∧ charAt z (n + 2) ≠ Char.ofNat 0 then
    commentClose z (n + 3)
  else if charAt z n = '/' ∧ charAt z (n + 1) = '/' then
    let j := lineEnd z (n + 2)
    some (if charAt z j = Char.ofNat 0 then j else j + 1)
  else none

/-- The position after a run of blanks and comments, the blanks of JSON5 included. A block
comment that is not closed is not a blank. -/
def blankEnd (z : Array Char) (n : Nat) : Nat :=
  if n < z.size then
    let c := charAt z n
    if isJsonSpace c ∨ isExtraBlank c then blankEnd z (n + 1)
    else
      match commentAfter z n with
      | some j => if n < j then blankEnd z j else n
      | none => n
  else n
termination_by z.size - n

/-- Whether four hexadecimal digits stand at a position. -/
def fourHexAt (z : Array Char) (i : Nat) : Bool :=
  [0, 1, 2, 3].all fun k => isHexChar (charAt z (i + k))

/-- Whether a `\u` escape with its four digits follows a backslash at `i - 1`. -/
def unicodeEscapeAt (z : Array Char) (i : Nat) : Bool :=
  charAt z i = 'u' ∧ fourHexAt z (i + 1)

/-- Whether a character may start an unquoted key: a letter, `_`, `$` or a character beyond
ASCII. -/
def isKeyStart (c : Char) : Bool := c.isAlpha ∨ c = '_' ∨ c = '$' ∨ c.toNat ≥ 0x80

/-- The end of an unquoted key from `k`, and whether it holds a `\u` escape: key characters and
digits that are not blanks, and backslashes that start a `\u` escape. -/
def keyEnd (z : Array Char) (k : Nat) (escaped : Bool) : Nat × Bool :=
  if k < z.size then
    let c := charAt z k
    if (isKeyStart c ∨ c.isDigit) ∧ !isExtraBlank c then keyEnd z (k + 1) escaped
    else if c = '\\' ∧ unicodeEscapeAt z (k + 1) then keyEnd z (k + 1) true
    else (k, escaped)
  else (k, escaped)
termination_by z.size - k

/-- An unquoted key at `k`, and the position after it. -/
def unquotedKey (z : Array Char) (k : Nat) : Option (JsonText × Nat) :=
  let c := charAt z k
  let escapeFirst := c = '\\' ∧ unicodeEscapeAt z (k + 1)
  if isKeyStart c ∨ escapeFirst then
    let (e, escaped) := keyEnd z (k + 1) escapeFirst
    some (⟨slice z k e, if escaped then .escaped else .plain⟩, e)
  else none

/-- The node for a number's text: hexadecimal or with a bare point when it is JSON5, and real
when it has a fraction or an exponent. -/
def numberNode (json5 real : Bool) (text : String) : JsonNode :=
  match json5, real with
  | false, false => .int text
  | true, false => .hex text
  | false, true => .real text
  | true, true => .bareReal text

/-- Reads the digits, point and exponent of a number, or gives the position of an error. -/
def numberBody (z : Array Char) (i j : Nat) (json5 real seenE : Bool) :
    Except Nat (Nat × Bool × Bool) :=
  if j < z.size then
    let c := charAt z j
    if c.isDigit then numberBody z i (j + 1) json5 real seenE
    else if c = '.' then
      if real then .error j else numberBody z i (j + 1) json5 true seenE
    else if c = 'e' ∨ c = 'E' then
      let prev := charAt z (j - 1)
      let bare := prev.toNat < 48
      if bare ∧ !(prev = '.' ∧ j ≥ i + 2 ∧ (charAt z (j - 2)).isDigit) then .error j
      else if seenE then .error j
      else
        let signed := charAt z (j + 1) = '+' ∨ charAt z (j + 1) = '-'
        let k := if signed then j + 1 else j
        if !(charAt z (k + 1)).isDigit then .error k
        else if signed then numberBody z i (j + 2) (json5 || bare) true true
        else numberBody z i (j + 1) (json5 || bare) true true
    else .ok (j, json5, real)
  else .ok (j, json5, real)
termination_by z.size - j

/-- Finishes a number from `i` to `j`, a leading `+` dropped from its text. -/
def numberAt (z : Array Char) (i j : Nat) (json5 real : Bool) : Reading Step :=
  let start := if charAt z i = '+' then i + 1 else i
  pure (.value (numberNode json5 real (slice z start j)) j)

/-- Reads the rest of a number from `j`, the number starting at `i`: its body, then a point at
its end that is bare, which must follow a digit. -/
def numberRest (z : Array Char) (i j : Nat) (json5 real : Bool) : Reading Step := do
  match numberBody z i j json5 real false with
  | .error p => markWith p .failed
  | .ok (j, json5, real) =>
    let prev := charAt z (j - 1)
    if prev.toNat < 48 then
      if prev = '.' ∧ j ≥ i + 2 ∧ (charAt z (j - 2)).isDigit then
        noteNonstandard
        numberAt z i j true real
      else markWith j .failed
    else
      if json5 then noteNonstandard
      numberAt z i j json5 real

/-- Reads a number at `i`, which starts with a sign, a digit or a point. -/
def scanNumber (z : Array Char) (i : Nat) : Reading Step := do
  let c := charAt z i
  if c = '.' then
    if (charAt z (i + 1)).isDigit then do
      noteNonstandard
      numberRest z i (i + 1) true true
    else markWith i .failed
  else
    if c = '+' then noteNonstandard
    let d := charAt z (i + 1)
    if c = '0' then
      if (d = 'x' ∨ d = 'X') ∧ isHexChar (charAt z (i + 2)) then do
        noteNonstandard
        numberAt z i (hexEnd z (i + 3)) true false
      else if d.isDigit then markWith (i + 1) .failed
      else numberRest z i (i + 1) false false
    else if c = '+' ∨ c = '-' then
      if !d.isDigit then
        if spellsAt z (i + 1) "inf" then do
          noteNonstandard
          let next := i + (if spellsAt z (i + 4) "inity" then 9 else 4)
          pure (.value (.real (if c = '-' then "-9e999" else "9e999")) next)
        else if d = '.' then do
          noteNonstandard
          numberRest z i (i + 1) true false
        else markWith i .failed
      else if d = '0' then
        let e := charAt z (i + 2)
        if e.isDigit then markWith (i + 1) .failed
        else if (e = 'x' ∨ e = 'X') ∧ isHexChar (charAt z (i + 3)) then do
          noteNonstandard
          numberAt z i (hexEnd z (i + 4)) true false
        else numberRest z i (i + 1) false false
      else numberRest z i (i + 1) false false
    else numberRest z i (i + 1) false false

/-- Reads the body of a string to its closing delimiter, or notes the position of an error. -/
def stringEnd (z : Array Char) (delim : Char) (j : Nat) (form : TextForm) :
    Reading (Option (Nat × TextForm)) := do
  if h : j < z.size then
    let c := charAt z j
    if c = delim then pure (some (j, form))
    else if c = '\\' then
      let e := charAt z (j + 1)
      if e = '"' ∨ e = '\\' ∨ e = '/' ∨ e = 'b' ∨ e = 'f' ∨ e = 'n' ∨ e = 'r' ∨ e = 't' ∨
          (e = 'u' ∧ fourHexAt z (j + 2)) then
        stringEnd z delim (j + 2) (if form = .plain then .escaped else form)
      else if e = '\'' ∨ e = 'v' ∨ e = '\n' ∨ e = '0' ∨ e.toNat = 0x2028 ∨ e.toNat = 0x2029 ∨
          (e = 'x' ∧ isHexChar (charAt z (j + 2)) ∧ isHexChar (charAt z (j + 3))) then do
        noteNonstandard
        stringEnd z delim (j + 2) .extended
      else if e = '\r' then do
        noteNonstandard
        if charAt z (j + 2) = '\n' then stringEnd z delim (j + 3) .extended
        else stringEnd z delim (j + 2) .extended
      else do
        let _ ← markWith (j + 1) .failed
        pure none
    else if c.toNat ≤ 0x1F then
      if c = Char.ofNat 0 then do
        let _ ← markWith j .failed
        pure none
      else do
        noteNonstandard
        stringEnd z delim (j + 1) .extended
    else if c = '"' then stringEnd z delim (j + 1) .extended
    else stringEnd z delim (j + 1) form
  else do
    let _ ← markWith j .failed
    pure none
termination_by z.size - j

/-- Reads a string whose opening delimiter is at `i`. -/
def scanString (z : Array Char) (i : Nat) : Reading Step := do
  match ← stringEnd z (charAt z i) (i + 1) .plain with
  | some (j, form) => pure (.value (.str ⟨slice z (i + 1) j, form⟩) (j + 1))
  | none => pure .failed

/-- Reads a name JSON5 takes as a number: infinities, and NaNs as null. -/
def namedNumber (z : Array Char) (i : Nat) : Reading Step := do
  let whole (word : String) := spellsAt z i word ∧ !isWordChar (charAt z (i + word.length))
  if whole "inf" then do noteNonstandard; pure (.value (.real "9e999") (i + 3))
  else if whole "infinity" then do noteNonstandard; pure (.value (.real "9e999") (i + 8))
  else if whole "nan" then do noteNonstandard; pure (.value .null (i + 3))
  else if whole "qnan" then do noteNonstandard; pure (.value .null (i + 4))
  else if whole "snan" then do noteNonstandard; pure (.value .null (i + 4))
  else markWith i .failed

mutual

/-- Reads one step at position `i`: a value, a closing mark, a comma or colon, or the end,
after any blanks. `depth` counts the arrays and objects around the position. -/
def scan : Nat → Array Char → Nat → Nat → Reading Step
  | 0, _, _, i => markWith i .failed
  | fuel + 1, z, depth, i =>
    let c := charAt z i
    if c = '{' then
      if depth + 1 > maxDepth then markWith i .failed
      else objectFrom fuel z (depth + 1) (i + 1) []
    else if c = '[' then
      if depth + 1 > maxDepth then markWith i .failed
      else arrayFrom fuel z (depth + 1) (i + 1) []
    else if c = '"' then scanString z i
    else if c = '\'' then do
      noteNonstandard
      scanString z i
    else if c = 't' then
      if literalAt z i "true" then pure (.value (.bool true) (i + 4)) else markWith i .failed
    else if c = 'f' then
      if literalAt z i "false" then pure (.value (.bool false) (i + 5)) else markWith i .failed
    else if c = '+' ∨ c = '-' ∨ c = '.' ∨ c.isDigit then scanNumber z i
    else if c = '}' then markWith i .closeObject
    else if c = ']' then markWith i .closeArray
    else if c = ',' then markWith i .comma
    else if c = ':' then markWith i .colon
    else if c = Char.ofNat 0 then pure .finished
    else if isJsonSpace c then scan fuel z depth (skipSpaces z (i + 1))
    else if c = '/' ∨ isExtraBlank c then
      let j := blankEnd z i
      if j > i then do
        noteNonstandard
        scan fuel z depth j
      else markWith i .failed
    else if c = 'n' ∧ literalAt z i "null" then pure (.value .null (i + 4))
    else namedNumber z i

/-- Reads the items of an array, given those read so far, last first. -/
def arrayFrom : Nat → Array Char → Nat → Nat → List JsonNode → Reading Step
  | 0, _, _, j, _ => markWith j .failed
  | fuel + 1, z, depth, j, items => do
    match ← scan fuel z depth j with
    | .closeArray =>
      if !items.isEmpty then noteNonstandard
      pure (.value (.array items.reverse) ((← get).mark + 1))
    | .value v x =>
      let items := v :: items
      let c := charAt z x
      if c = ',' then arrayFrom fuel z depth (x + 1) items
      else if c = ']' then pure (.value (.array items.reverse) (x + 1))
      else
        let y := if isJsonSpace c then skipSpaces z (x + 1) else x
        if isJsonSpace c ∧ charAt z y = ',' then arrayFrom fuel z depth (y + 1) items
        else if isJsonSpace c ∧ charAt z y = ']' then pure (.value (.array items.reverse) (y + 1))
        else
          match ← scan fuel z depth y with
          | .comma => arrayFrom fuel z depth ((← get).mark + 1) items
          | .closeArray => pure (.value (.array items.reverse) ((← get).mark + 1))
          | _ => markWith y .failed
    | .failed => pure .failed
    | _ => markWith j .failed

/-- Reads the members of an object, given those read so far, last first. -/
def objectFrom : Nat → Array Char → Nat → Nat → List (JsonText × JsonNode) → Reading Step
  | 0, _, _, j, _ => markWith j .failed
  | fuel + 1, z, depth, j, members => do
    let first ← scan fuel z depth j
    match first with
    | .closeObject =>
      if !members.isEmpty then noteNonstandard
      pure (.value (.object members.reverse) ((← get).mark + 1))
    | .value (.str key) x => memberValue fuel z depth members key x
    | .value _ _ => markWith j .failed
    | other =>
      let k := blankEnd z j
      match unquotedKey z k with
      | some (key, x) => do
        noteNonstandard
        memberValue fuel z depth members key x
      | none =>
        match other with
        | .failed => pure .failed
        | _ => markWith k .failed

/-- Reads the colon and the value of a member whose key ends at `x`, then the rest of the
object. -/
def memberValue : Nat → Array Char → Nat → List (JsonText × JsonNode) → JsonText → Nat →
    Reading Step
  | 0, _, _, _, _, x => markWith x .failed
  | fuel + 1, z, depth, members, key, x => do
    let c := charAt z x
    let y := if isJsonSpace c then skipSpaces z (x + 1) else x
    let start : Option Nat ← do
      if c = ':' then pure (some (x + 1))
      else if isJsonSpace c ∧ charAt z y = ':' then pure (some (y + 1))
      else
        match ← scan fuel z depth y with
        | .colon => pure (some ((← get).mark + 1))
        | .failed => pure none
        | _ => do
          let _ ← markWith y .failed
          pure none
    match start with
    | none => pure .failed
    | some s =>
      match ← scan fuel z depth s with
      | .value v x =>
        let members := (key, v) :: members
        let c := charAt z x
        if c = ',' then objectFrom fuel z depth (x + 1) members
        else if c = '}' then pure (.value (.object members.reverse) (x + 1))
        else
          let y := if isJsonSpace c then skipSpaces z (x + 1) else x
          if isJsonSpace c ∧ charAt z y = ',' then objectFrom fuel z depth (y + 1) members
          else if isJsonSpace c ∧ charAt z y = '}' then
            pure (.value (.object members.reverse) (y + 1))
          else
            match ← scan fuel z depth y with
            | .comma => objectFrom fuel z depth ((← get).mark + 1) members
            | .closeObject => pure (.value (.object members.reverse) ((← get).mark + 1))
            | _ => markWith y .failed
      | .failed => pure .failed
      | _ => markWith s .failed

end

end JsonRead

/-- A document read from text, and whether the text used a form that only JSON5 allows. -/
structure ParsedJson where
  node : JsonNode
  nonstandard : Bool

/-- Reads a JSON document from text, blanks and comments around it allowed. -/
def JsonNode.read (text : String) : Except Nat ParsedJson :=
  let z := text.toList.toArray
  let (step, notes) := (JsonRead.scan (4 * z.size + 16) z 0 0).run {}
  match step with
  | .value node i =>
    let i := JsonRead.skipSpaces z i
    if JsonRead.charAt z i = Char.ofNat 0 then .ok ⟨node, notes.nonstandard⟩
    else if JsonRead.charAt z (JsonRead.blankEnd z i) = Char.ofNat 0 then .ok ⟨node, true⟩
    else .error notes.mark
  | _ => .error notes.mark

end Sql
end TreeHistory
