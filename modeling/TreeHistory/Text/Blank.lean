/-!
# Blank and control characters

`isBlank` is the Unicode White_Space property (which core's `Char.isWhitespace` is not), and
`isControl` the general category Cc. `trim` drops blank characters from both ends of a text.
-/

namespace TreeHistory
namespace Text

/-- The White_Space property. -/
def isBlank (c : Char) : Bool :=
  let n := c.toNat
  (0x09 ≤ n && n ≤ 0x0D) || n == 0x20 || n == 0x85 || n == 0xA0 || n == 0x1680 ||
    (0x2000 ≤ n && n ≤ 0x200A) || n == 0x2028 || n == 0x2029 || n == 0x202F ||
    n == 0x205F || n == 0x3000

/-- The general category Cc: the C0 controls, delete and the C1 controls. -/
def isControl (c : Char) : Bool :=
  let n := c.toNat
  n ≤ 0x1F || (0x7F ≤ n && n ≤ 0x9F)

/-- Drops blank characters from the front of a character list. -/
def trimFront (cs : List Char) : List Char :=
  cs.dropWhile isBlank

/-- Drops blank characters from both ends of a character list. -/
def trimChars (cs : List Char) : List Char :=
  (trimFront (trimFront cs).reverse).reverse

/-- Drops blank characters from both ends of a text. -/
def trim (s : String) : String :=
  String.ofList (trimChars s.toList)

@[simp] theorem isBlank_space : isBlank ' ' = true := rfl

@[simp] theorem isControl_nul : isControl (Char.ofNat 0) = true := rfl

/-- Every character that core calls whitespace is blank. -/
theorem isBlank_of_isWhitespace (c : Char) (h : c.isWhitespace = true) : isBlank c = true := by
  simp only [Char.isWhitespace, Bool.or_eq_true, decide_eq_true_eq] at h
  simp only [isBlank, Bool.or_eq_true, Bool.and_eq_true, decide_eq_true_eq, beq_iff_eq]
  rcases h with ((h | h) | h) | h <;> subst h <;> decide

end Text
end TreeHistory
