/-!
# Doubles as exact rationals

A double's bits read as an exact rational `± mantissa · 2^exponent`, the double nearest to a
rational, and a double's text form: fifteen significant digits, rounded half up. Working on the
exact rational keeps comparisons between integers and doubles exact, as the database's are.
-/

namespace TreeHistory
namespace Sql
namespace Double

/-- A finite double as `(-1)^negative · mantissa · 2^exponent`. -/
structure Parts where
  negative : Bool
  mantissa : Nat
  exponent : Int
  deriving DecidableEq, Repr

/-- The parts of a finite double; `none` for an infinity or a NaN. -/
def decode (x : Float) : Option Parts :=
  let bits : Nat := x.toBits.toNat
  let negative := decide (bits ≥ Nat.pow 2 63)
  let biased : Nat := (bits / Nat.pow 2 52) % 2048
  let fraction : Nat := bits % Nat.pow 2 52
  if biased = 2047 then none
  else if biased = 0 then some ⟨negative, fraction, -1074⟩
  else some ⟨negative, fraction + Nat.pow 2 52, (biased : Int) - 1075⟩

/-- Whether a double is a NaN. -/
def isNaN (x : Float) : Bool :=
  let bits := x.toBits.toNat
  (bits / Nat.pow 2 52) % 2048 == 2047 && bits % Nat.pow 2 52 != 0

/-- The numerator of the magnitude of a finite double. -/
def Parts.num (p : Parts) : Nat :=
  if p.exponent ≥ 0 then p.mantissa * Nat.pow 2 p.exponent.toNat else p.mantissa

/-- The denominator of the magnitude of a finite double. -/
def Parts.den (p : Parts) : Nat :=
  if p.exponent ≥ 0 then 1 else Nat.pow 2 (-p.exponent).toNat

/-- The largest `e` with `2^e ≤ num / den`, for positive `num` and `den`. -/
def binaryExponent (num den : Nat) : Int :=
  let guess : Int := (Nat.log2 num : Int) - (Nat.log2 den : Int)
  let fits :=
    if guess ≥ 0 then num ≥ den * Nat.pow 2 guess.toNat else num * Nat.pow 2 (-guess).toNat ≥ den
  if fits then guess else guess - 1

/-- `num / den · 2^(-shift)` rounded to the nearest integer, ties to even. -/
def roundScaled (num den : Nat) (shift : Int) : Nat :=
  let (n, d) :=
    if shift ≥ 0 then (num, den * Nat.pow 2 shift.toNat) else (num * Nat.pow 2 (-shift).toNat, den)
  let q := n / d
  let r := n % d
  if 2 * r > d then q + 1 else if 2 * r = d then q + q % 2 else q

/-- The double with the given sign and bit fields. -/
def ofFields (negative : Bool) (biased fraction : Nat) : Float :=
  Float.ofBits
    (UInt64.ofNat ((if negative then Nat.pow 2 63 else 0) + biased * Nat.pow 2 52 + fraction))

/-- The double nearest to `± num / den`, ties to even; an infinity past the largest double. -/
def ofRat (negative : Bool) (num den : Nat) : Float :=
  if num = 0 ∨ den = 0 then ofFields negative 0 0
  else
    let e := binaryExponent num den
    if e > 1023 then ofFields negative 2047 0
    else if e < -1022 then
      let q := roundScaled num den (-1074)
      if q ≥ Nat.pow 2 52 then ofFields negative 1 (q - Nat.pow 2 52) else ofFields negative 0 q
    else
      let q := roundScaled num den (e - 52)
      let (q, e) := if q = Nat.pow 2 53 then (Nat.pow 2 52, e + 1) else (q, e)
      if e > 1023 then ofFields negative 2047 0
      else ofFields negative (e + 1023).toNat (q - Nat.pow 2 52)

/-- The double nearest to an integer. -/
def ofInt (n : Int) : Float :=
  ofRat (decide (n < 0)) n.natAbs 1

/-- The double nearest to `± digits · 10^exponent`. Exponents far outside the range of doubles
give zero or an infinity without computing the power. -/
def ofDecimal (negative : Bool) (digits : Nat) (exponent : Int) : Float :=
  let size : Int := (toString digits).length
  if digits = 0 then ofFields negative 0 0
  else if size + exponent > 400 then ofFields negative 2047 0
  else if size + exponent < -400 then ofFields negative 0 0
  else if exponent ≥ 0 then ofRat negative (digits * Nat.pow 10 exponent.toNat) 1
  else ofRat negative digits (Nat.pow 10 (-exponent).toNat)

/-- Compares an integer with a finite double exactly: `lt`, `eq` or `gt` as the integer is below,
at or above it. -/
def compareInt (n : Int) (p : Parts) : Ordering :=
  let lhs : Int := n * p.den
  let rhs : Int := if p.negative then -(p.num : Int) else p.num
  compare lhs rhs

/-- The integer part of a finite double, toward zero. -/
def truncate (p : Parts) : Int :=
  let magnitude := p.num / p.den
  if p.negative then -(magnitude : Int) else magnitude

/-- The largest 64-bit integer. -/
def maxInt : Int := 9223372036854775807

/-- The smallest 64-bit integer. -/
def minInt : Int := -9223372036854775808

/-- A double as a 64-bit integer the way the database converts one: toward zero, held to the
64-bit range; a NaN gives 0. -/
def toInt64 (x : Float) : Int :=
  match decode x with
  | some p => max minInt (min maxInt (truncate p))
  | none => if isNaN x then 0 else if x < 0 then minInt else maxInt

/-- The integer a double equals, when it equals one strictly inside the 64-bit range. -/
def exactInt? (x : Float) : Option Int :=
  match decode x with
  | some p =>
    if p.num % p.den = 0 then
      let n := truncate p
      if minInt < n ∧ n < maxInt then some n else none
    else none
  | none => none

/-- The largest `k` with `10^k ≤ num / den`, for positive `num` and `den`. -/
def decimalExponent (num den : Nat) : Int :=
  let guess : Int := ((toString num).length : Int) - (toString den).length
  let atLeast (k : Int) : Bool :=
    if k ≥ 0 then num ≥ den * Nat.pow 10 k.toNat else num * Nat.pow 10 (-k).toNat ≥ den
  if atLeast guess then guess else guess - 1

/-- The first `precision` significant digits of `num / den`, rounded half up, and the decimal
exponent of the first of them. -/
def significant (precision : Nat) (num den : Nat) : Nat × Int :=
  let e := decimalExponent num den
  let shift : Int := (precision : Int) - 1 - e
  let (n, d) :=
    if shift ≥ 0 then (num * Nat.pow 10 shift.toNat, den) else (num, den * Nat.pow 10 (-shift).toNat)
  let q := n / d + (if 2 * (n % d) ≥ d then 1 else 0)
  if q ≥ Nat.pow 10 precision then (q / 10, e + 1) else (q, e)

/-- Drops the zeros at the end of a digit string, keeping at least one digit. -/
def trimZeros (digits : List Char) : List Char :=
  match (digits.reverse.dropWhile (· = '0')).reverse with
  | [] => ['0']
  | kept => kept

/-- The exponent suffix of exponent notation: a sign and at least two digits. -/
def exponentText (e : Int) : String :=
  let magnitude := toString e.natAbs
  (if e < 0 then "e-" else "e+") ++ (if magnitude.length < 2 then "0" ++ magnitude else magnitude)

/-- The high half of a double for a Dekker product: its significand with the low 26 bits
cleared, so that the product of two high halves is exact. -/
def highHalf (x : Float) : Float := Float.ofBits (x.toBits &&& 0xFFFFFFFFFC000000)

/-- Multiplies a double-double `x.1 + x.2` by a constant given as a double-double `y + yy`,
keeping about twice the precision of a double (Dekker's product). -/
def dekkerMul (x : Float × Float) (y yy : Float) : Float × Float :=
  let hx := highHalf x.1
  let tx := x.1 - hx
  let hy := highHalf y
  let ty := y - hy
  let p := hx * hy
  let q := hx * ty + tx * hy
  let c := p + q
  let cc := p - c + q + tx * ty
  let cc := x.1 * yy + x.2 * y + cc
  let x0 := c + cc
  (x0, c - x0 + cc)

/-- Multiplies a double-double by a power of ten while a test holds of its high part, counting
the steps in the exponent. -/
def scaleWhile (test : Float → Bool) (y yy : Float) (step : Int) :
    Nat → (Float × Float) × Int → (Float × Float) × Int
  | 0, acc => acc
  | fuel + 1, (x, exp) =>
    if test x.1 then scaleWhile test y yy step fuel (dekkerMul x y yy, exp + step) else (x, exp)

/-- A positive finite double as `v · 10^exp`, `v` of eighteen or nineteen digits, scaled as the
formatter scales it in double-double arithmetic. -/
def scaledDigits (x : Float) : Nat × Int :=
  let start : (Float × Float) × Int := ((x, 0), 0)
  let ((hi, lo), exp) :=
    if x > 9.223372036854774784e18 then
      let s := scaleWhile (· > 9.223372036854774784e118) 1.0e-100 (-1.99918998026028836196e-117)
        100 8 start
      let s := scaleWhile (· > 9.223372036854774784e28) 1.0e-10 (-3.6432197315497741579e-27) 10 40 s
      scaleWhile (· > 9.223372036854774784e18) 1.0e-1 (-5.5511151231257827021e-18) 1 40 s
    else
      let s := scaleWhile (· < 9.223372036854774784e-83) 1.0e100 (-1.5902891109759918046e83)
        (-100) 8 start
      let s := scaleWhile (· < 9.223372036854774784e7) 1.0e10 0 (-10) 40 s
      scaleWhile (· < 9.22337203685477478e17) 10 0 (-1) 40 s
  let v : Int := if lo < 0 then toInt64 hi - toInt64 (-lo) else toInt64 hi + toInt64 lo
  (v.toNat, exp)

/-- Multiplies a double-double by a constant `y + yy` a number of times. -/
def dekkerPow (y yy : Float) : Nat → Float × Float → Float × Float
  | 0, x => x
  | n + 1, x => dekkerPow y yy n (dekkerMul x y yy)

/-- The significand below which reading a number moves a power of ten out of a positive exponent
into the significand. -/
def growLimit : Nat := (18446744073709551615 - 0x7ff) / 10

/-- Moves powers of ten between the significand and the exponent. -/
def normalize : Nat → Nat × Int → Nat × Int
  | 0, acc => acc
  | fuel + 1, (s, e) =>
    if e > 0 ∧ s < growLimit then normalize fuel (s * 10, e - 1)
    else if e < 0 ∧ s % 10 = 0 ∧ s ≠ 0 then normalize fuel (s / 10, e + 1)
    else (s, e)

/-- The double the database reads for `s · 10^e`: `s` taken as a double-double and multiplied
by powers of ten in double-double arithmetic, which is not always the nearest double. -/
def ofScaled (s : Nat) (e : Int) : Float :=
  let (s, e) := normalize 64 (s, e)
  if e = 0 then ofInt s
  else
    let hi := ofInt s
    let s2 : Nat := match decode hi with
      | some p => min (p.num / p.den) 18446744073709551615
      | none => 18446744073709551615
    let lo := if s ≥ s2 then ofInt (s - s2) else -ofInt (s2 - s)
    let n := e.natAbs
    let x :=
      if e > 0 then
        let x := dekkerPow 1.0e100 (-1.5902891109759918046e83) (n / 100) (hi, lo)
        let x := dekkerPow 1.0e10 0 (n % 100 / 10) x
        dekkerPow 10 0 (n % 10) x
      else
        let x := dekkerPow 1.0e-100 (-1.99918998026028836196e-117) (n / 100) (hi, lo)
        let x := dekkerPow 1.0e-10 (-3.6432197315497741579e-27) (n % 100 / 10) x
        dekkerPow 1.0e-1 (-5.5511151231257827021e-18) (n % 10) x
    let r := x.1 + x.2
    if isNaN r then ofFields false 2047 0 else r

/-- The first `count` significant digits of a positive finite double as the formatter reads them,
rounded half up, and the decimal exponent of the first. -/
def formatterDigits (count : Nat) (x : Float) : Nat × Int :=
  let (v, exp) := scaledDigits x
  let length := (toString v).length
  let e : Int := (length : Int) - 1 + exp
  if length ≤ count then (v * Nat.pow 10 (count - length), e)
  else
    let cut := Nat.pow 10 (length - count)
    let q := v / cut + (if v % cut ≥ cut / 2 then 1 else 0)
    if q ≥ Nat.pow 10 count then (q / 10, e + 1) else (q, e)

/-- The text of a double: fifteen significant digits as described above; `Inf` and `-Inf` for
the infinities. -/
def render (x : Float) : String :=
  match decode x with
  | none => if x < 0 then "-Inf" else "Inf"
  | some p =>
    if p.mantissa = 0 then "0.0"
    else
      let (q, e) := formatterDigits 15 (if p.negative then -x else x)
      let digits := (toString q).toList
      let sign := if p.negative then "-" else ""
      if e < -4 ∨ e > 14 then
        sign ++ String.ofList (digits.take 1) ++ "." ++ String.ofList (trimZeros (digits.drop 1)) ++
          exponentText e
      else if e ≥ 0 then
        let whole := digits.take (e.toNat + 1)
        sign ++ String.ofList whole ++ "." ++ String.ofList (trimZeros (digits.drop (e.toNat + 1)))
      else
        sign ++ "0." ++ String.ofList (List.replicate ((-e).toNat - 1) '0' ++ trimZeros digits)

/-- The text of a double with seventeen significant digits in exponent notation, which reads
back as the same double. -/
def renderExact (x : Float) : String :=
  match decode x with
  | none => if x < 0 then "-1e999" else "1e999"
  | some p =>
    if p.mantissa = 0 then (if p.negative then "-0.0" else "0.0")
    else
      let (q, e) := significant 17 p.num p.den
      let digits := (toString q).toList
      (if p.negative then "-" else "") ++ String.ofList (digits.take 1) ++ "." ++
        String.ofList (digits.drop 1) ++ exponentText e

end Double
end Sql
end TreeHistory
