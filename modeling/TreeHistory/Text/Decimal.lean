/-!
# Decimal numbers

How numbers written by people are read: an optional sign, then at least one decimal digit and
nothing else. Leading zeros are allowed; blanks are not, so callers that allow them trim first.
An unsigned number may have a `+` but not a `-` in front; a number out of the range of its
setting is refused.
-/

namespace TreeHistory
namespace Text

/-- The value of a run of decimal digits. -/
def digitsValue (digits : List Char) : Nat :=
  digits.foldl (fun acc d => acc * 10 + (d.toNat - 48)) 0

/-- Digits only, at least one. -/
def isDigits (digits : List Char) : Bool :=
  !digits.isEmpty && digits.all Char.isDigit

/-- Reads an unsigned decimal of at most `limit`. -/
def readUnsigned (limit : Nat) (text : String) : Option Nat :=
  let digits := match text.toList with
    | '+' :: rest => rest
    | cs => cs
  if isDigits digits then
    let n := digitsValue digits
    if n ≤ limit then some n else none
  else none

/-- Reads a signed decimal that fits in 64 bits. -/
def readSigned (text : String) : Option Int :=
  let (negative, digits) := match text.toList with
    | '+' :: rest => (false, rest)
    | '-' :: rest => (true, rest)
    | cs => (false, cs)
  if isDigits digits then
    let magnitude : Int := digitsValue digits
    let n := if negative then -magnitude else magnitude
    if -9223372036854775808 ≤ n ∧ n ≤ 9223372036854775807 then some n else none
  else none

theorem readUnsigned_plus : readUnsigned 10 "+7" = some 7 := by decide

theorem readUnsigned_minus : readUnsigned 10 "-0" = none := by decide

theorem readSigned_minus : readSigned "-12" = some (-12) := by decide

end Text
end TreeHistory
