import TreeHistory.Text.Printable

/-!
# Quoted text

The quoted form that error messages use: the text between double quotes, with NUL, tab, carriage
return, line feed, backslash and double quote escaped, and every grapheme extender or unprintable
character written `\u` with its code point in braces. `quote` is `escapeChar` applied character
by character.
-/

namespace TreeHistory
namespace Text

/-- The escape `\u` with the code point in lowercase hexadecimal between braces. -/
def unicodeEscape (c : Char) : List Char :=
  ['\\', 'u', '\x7b'] ++ Nat.toDigits 16 c.toNat ++ ['\x7d']

/-- How one character is written inside quotes. -/
def escapeChar (c : Char) : List Char :=
  if c = Char.ofNat 0 then ['\\', '0']
  else if c = '\t' then ['\\', 't']
  else if c = '\r' then ['\\', 'r']
  else if c = '\n' then ['\\', 'n']
  else if c = '\\' then ['\\', '\\']
  else if c = '"' then ['\\', '"']
  else if isGraphemeExtend c then unicodeEscape c
  else if isPrintable c then [c]
  else unicodeEscape c

/-- The characters of the quoted form, quotes excluded. -/
def escapeChars (cs : List Char) : List Char :=
  cs.flatMap escapeChar

/-- The quoted form of a text. -/
def quote (s : String) : String :=
  String.ofList ('"' :: escapeChars s.toList ++ ['"'])

@[simp] theorem escapeChars_nil : escapeChars [] = [] := rfl

@[simp] theorem escapeChars_cons (c : Char) (cs : List Char) :
    escapeChars (c :: cs) = escapeChar c ++ escapeChars cs := by
  simp [escapeChars]

theorem escapeChars_append (xs ys : List Char) :
    escapeChars (xs ++ ys) = escapeChars xs ++ escapeChars ys := by
  simp [escapeChars]

/-- A letter stands for itself. -/
theorem escapeChar_a : escapeChar (Char.ofNat 97) = [Char.ofNat 97] := by decide +kernel

/-- A combining acute accent is written as an escape. -/
theorem escapeChar_acute : escapeChar (Char.ofNat 0x301) = "\\u\x7b301\x7d".toList := by decide +kernel

end Text
end TreeHistory
