import TreeHistory.Sql.Double

/-!
# Values of the database

A value is `NULL`, a 64-bit integer, a double, a text or a blob. Columns have an affinity, read
from their declared type, that converts values as they are stored. Arithmetic on text uses its
longest numeric prefix, so `'12ab' + 1` is `13`. Values compare by storage class first, then
numbers by value, texts by their UTF-8 bytes.
-/

namespace TreeHistory
namespace Sql

inductive Value where
  | null
  | int (n : Int)
  | real (x : Float)
  | text (s : String)
  | blob (bytes : List UInt8)
  deriving Repr, Inhabited

inductive StorageClass where
  | null
  | integer
  | real
  | text
  | blob
  deriving DecidableEq, Repr

namespace StorageClass

/-- The name of a storage class in messages about column types. -/
def name : StorageClass → String
  | .null => "Null"
  | .integer => "Integer"
  | .real => "Real"
  | .text => "Text"
  | .blob => "Blob"

def typeName : StorageClass → String
  | .null => "null"
  | .integer => "integer"
  | .real => "real"
  | .text => "text"
  | .blob => "blob"

end StorageClass

/-- How a column or an expression converts values before they are stored or compared. -/
inductive Affinity where
  | blob
  | text
  | numeric
  | integer
  | real
  deriving DecidableEq, Repr

namespace Affinity

def isNumeric : Affinity → Bool
  | .numeric | .integer | .real => true
  | _ => false

/-- The affinity a declared type gives, by the substrings it holds, else numeric. -/
def ofType (type : String) : Affinity :=
  if type.isEmpty then .blob
  else
    let chars := type.toList.map Char.toLower
    let step (state : Affinity × List Char × Bool) (c : Char) : Affinity × List Char × Bool :=
      let (aff, window, done) := state
      if done then state
      else
        let window := (window ++ [c]).drop (if window.length ≥ 4 then 1 else 0)
        let tail3 := window.drop (window.length - 3)
        let word := String.ofList window
        if tail3 = ['i', 'n', 't'] then (.integer, window, true)
        else if word = "char" ∨ word = "clob" ∨ word = "text" then (.text, window, false)
        else if word = "blob" ∧ (aff = .numeric ∨ aff = .real) then (.blob, window, false)
        else if (word = "real" ∨ word = "floa" ∨ word = "doub") ∧ aff = .numeric then
          (.real, window, false)
        else (aff, window, false)
    (chars.foldl step (.numeric, [], false)).1

end Affinity

/-- The blanks the database skips around numbers. -/
def isSpace (c : Char) : Bool :=
  c = ' ' ∨ c = '\t' ∨ c = '\n' ∨ c = '\r' ∨ c.toNat = 11 ∨ c.toNat = 12

/-- The limit past which further significand digits are dropped. -/
def significandLimit : Nat := (18446744073709551615 - 9) / 10

/-- What reading a number from text found. -/
structure RealScan where
  negative : Bool := false
  significand : Nat := 0
  shift : Int := 0
  digits : Nat := 0
  kind : Nat := 1
  exponentValid : Bool := true
  exponent : Int := 0
  exponentNegative : Bool := false
  deriving Repr

/-- Reads digits into the significand; past the limit they only move the point. -/
def scanWhole (scan : RealScan) : List Char → RealScan × List Char
  | c :: rest =>
    if c.isDigit then
      if scan.significand ≥ significandLimit then
        scanWhole { scan with shift := scan.shift + 1 } rest
      else
        scanWhole { scan with significand := scan.significand * 10 + (c.toNat - 48),
                              digits := scan.digits + 1 } rest
    else (scan, c :: rest)
  | [] => (scan, [])

/-- Reads the digits of a fraction; past the limit they are dropped. -/
def scanFraction (scan : RealScan) : List Char → RealScan × List Char
  | c :: rest =>
    if c.isDigit then
      if scan.significand < significandLimit then
        scanFraction { scan with significand := scan.significand * 10 + (c.toNat - 48),
                                 shift := scan.shift - 1, digits := scan.digits + 1 } rest
      else scanFraction scan rest
    else (scan, c :: rest)
  | [] => (scan, [])

/-- Reads the digits of an exponent, holding it at 10000. -/
def scanExponent (scan : RealScan) : List Char → RealScan × List Char
  | c :: rest =>
    if c.isDigit then
      scanExponent { scan with exponent := if scan.exponent < 10000
                                 then scan.exponent * 10 + (c.toNat - 48) else 10000,
                               exponentValid := true } rest
    else (scan, c :: rest)
  | [] => (scan, [])

/-- Reads the longest number at the start of a text, with a code: all digits (1), with a fraction
or exponent (2 or 3), a prefix only (-1), or none (0). -/
def scanReal (text : List Char) : Float × Int :=
  let text := text.dropWhile isSpace
  if text.isEmpty then (0.0, 0)
  else
    let (negative, text) := match text with
      | '-' :: rest => (true, rest)
      | '+' :: rest => (false, rest)
      | _ => (false, text)
    let (scan, text) := scanWhole { negative := negative } text
    let (scan, text) := match text with
      | '.' :: rest => scanFraction { scan with kind := scan.kind + 1 } rest
      | _ => (scan, text)
    let (scan, text) := match text with
      | e :: rest =>
        if e = 'e' ∨ e = 'E' then
          let scan := { scan with kind := scan.kind + 1, exponentValid := false }
          match rest with
          | '-' :: more => scanExponent { scan with exponentNegative := true } more
          | '+' :: more => scanExponent scan more
          | _ => scanExponent scan rest
        else (scan, text)
      | [] => (scan, [])
    let text := text.dropWhile isSpace
    let exponent := (if scan.exponentNegative then -scan.exponent else scan.exponent) + scan.shift
    let magnitude := if scan.significand = 0 then 0.0 else Double.ofScaled scan.significand exponent
    let value := if scan.negative then -magnitude else magnitude
    let code : Int :=
      if text.isEmpty ∧ scan.digits > 0 ∧ scan.exponentValid then scan.kind
      else if scan.kind ≥ 2 ∧ (scan.kind = 3 ∨ scan.exponentValid) ∧ scan.digits > 0 then -1
      else 0
    (value, code)

/-- Reads the integer at the start of a text, held to the 64-bit range, with a code as above. -/
def scanInt (text : List Char) : Int × Int :=
  let text := text.dropWhile isSpace
  let (negative, text) := match text with
    | '-' :: rest => (true, rest)
    | '+' :: rest => (false, rest)
    | _ => (false, text)
  let afterSign := text
  let text := text.dropWhile (· = '0')
  let digits := text.takeWhile Char.isDigit
  let rest := text.drop digits.length
  let magnitude : Nat := digits.foldl (fun n c => n * 10 + (c.toNat - 48)) 0
  let clamped : Int :=
    if negative then max Double.minInt (-(magnitude : Int)) else min Double.maxInt magnitude
  let code : Int :=
    if digits.isEmpty ∧ afterSign.length = text.length then -1
    else if rest.any (fun c => !isSpace c) then 1
    else 0
  if digits.length < 19 then (clamped, code)
  else if magnitude < 9223372036854775808 then (clamped, code)
  else if magnitude > 9223372036854775808 then (clamped, 2)
  else (clamped, if negative then code else 3)

/-- Whether a double equals an integer small enough that the two are interchangeable. -/
def sameAsInt (x : Float) (n : Int) : Bool :=
  match Double.decode x with
  | some p => Double.compareInt n p == .eq && -2251799813685248 ≤ n && n < 2251799813685248
  | none => false

namespace Value

def storageClass : Value → StorageClass
  | .null => .null
  | .int _ => .integer
  | .real _ => .real
  | .text _ => .text
  | .blob _ => .blob

def isNull : Value → Bool
  | .null => true
  | _ => false

/-- The characters of the bytes of a blob read as UTF-8; bytes that do not decode give U+FFFD. -/
def bytesText (bytes : List UInt8) : String :=
  match String.fromUTF8? (ByteArray.mk bytes.toArray) with
  | some s => s
  | none => String.fromUTF8! (ByteArray.mk (bytes.map fun b => if b < 128 then b else 63).toArray)

def textBytes (s : String) : List UInt8 := s.toUTF8.toList

/-- A double as a value: a NaN is `NULL`. -/
def ofReal (x : Float) : Value :=
  if Double.isNaN x then .null else .real x

/-- The text of a value, for a value that is not `NULL`. -/
def toText? : Value → Option String
  | .null => none
  | .int n => some (toString n)
  | .real x => some (Double.render x)
  | .text s => some s
  | .blob bytes => some (bytesText bytes)

/-- The characters a value reads as when it is taken as text. -/
def chars (v : Value) : List Char := (v.toText?.getD "").toList

/-- A value as a number for arithmetic: text and blobs read by their prefix. -/
def toNumeric (v : Value) : Value :=
  match v with
  | .null | .int _ | .real _ => v
  | _ =>
    let text := v.chars
    let (x, code) := scanReal text
    let (n, intCode) := scanInt text
    if code ≤ 0 then (if code = 0 ∧ intCode ≤ 1 then .int n else .ofReal x)
    else if code = 1 ∧ intCode = 0 then .int n
    else .ofReal x

/-- A value as `CAST ... AS NUMERIC` converts it. -/
def numerify (v : Value) : Value :=
  match v with
  | .null | .int _ | .real _ => v
  | _ =>
    let text := v.chars
    let (x, code) := scanReal text
    let (n, intCode) := scanInt text
    if (code = 0 ∨ code = 1) ∧ intCode ≤ 1 then .int n
    else
      let m := Double.toInt64 x
      if sameAsInt x m then .int m else .ofReal x

/-- A value as an integer: doubles toward zero, text by its integer prefix, `NULL` as 0. -/
def toInt : Value → Int
  | .null => 0
  | .int n => n
  | .real x => Double.toInt64 x
  | v => (scanInt v.chars).1

/-- A value as a double: text by its numeric prefix, `NULL` as 0. -/
def toReal : Value → Float
  | .null => 0.0
  | .int n => Double.ofInt n
  | .real x => x
  | v => (scanReal v.chars).1

/-- The truth of a value: `NULL` is unknown, others true when not zero as numbers. -/
def truth? : Value → Option Bool
  | .null => none
  | .int n => some (n != 0)
  | .real x => some (x != 0.0)
  | v => some ((scanReal v.chars).1 != 0.0)

/-- Text that reads wholly as a number, converted the way a numeric column stores it. -/
def numericAffinity (v : Value) (tryInt : Bool) : Value :=
  match v with
  | .text s =>
    let text := s.toList
    let (x, code) := scanReal text
    if code ≤ 0 then v
    else
      let n := Double.toInt64 x
      if code = 1 ∧ (sameAsInt x n ∨ (scanInt text).2 = 0) then .int (scanInt text).1
      else if tryInt then
        match Double.exactInt? x with
        | some m => .int m
        | none => .ofReal x
      else .ofReal x
  | _ => v

/-- A value converted by an affinity as it is stored in a column. -/
def applyAffinity (aff : Affinity) (v : Value) : Value :=
  match aff, v with
  | .blob, _ => v
  | .text, .int _ => .text (v.toText?.getD "")
  | .text, .real _ => .text (v.toText?.getD "")
  | .text, _ => v
  | .real, _ =>
    match v.numericAffinity true with
    | .int n => .real (Double.ofInt n)
    | other => other
  | _, .real x =>
    match Double.exactInt? x with
    | some n => .int n
    | none => v
  | _, _ => v.numericAffinity true

/-- The rank of a storage class in the order of values. -/
def classRank : Value → Nat
  | .null => 0
  | .int _ | .real _ => 1
  | .text _ => 2
  | .blob _ => 3

/-- Compares two doubles; neither is a NaN. -/
def compareReals (x y : Float) : Ordering :=
  if x < y then .lt else if y < x then .gt else .eq

/-- Compares two lists of bytes as unsigned strings, a prefix first. -/
def compareBytes : List UInt8 → List UInt8 → Ordering
  | [], [] => .eq
  | [], _ => .lt
  | _, [] => .gt
  | a :: as, b :: bs => if a < b then .lt else if b < a then .gt else compareBytes as bs

def compare (a b : Value) : Ordering :=
  match a, b with
  | .int m, .int n => Ord.compare m n
  | .int m, .real y =>
    match Double.decode y with
    | some p => Double.compareInt m p
    | none => if y < 0 then .gt else .lt
  | .real x, .int n =>
    match Double.decode x with
    | some p => (Double.compareInt n p).swap
    | none => if x < 0 then .lt else .gt
  | .real x, .real y => compareReals x y
  | .text s, .text t => if s < t then .lt else if t < s then .gt else .eq
  | .blob s, .blob t => compareBytes s t
  | _, _ => Ord.compare a.classRank b.classRank

/-- Whether two values are the same for grouping and keys, `NULL` matching `NULL`. -/
def same (a b : Value) : Bool := compare a b == .eq

end Value

/-- An integer result, or the double it becomes when it leaves the 64-bit range. -/
def intResult (n : Int) (overflow : Unit → Float) : Value :=
  if Double.minInt ≤ n ∧ n ≤ Double.maxInt then .int n else .ofReal (overflow ())

inductive ArithOp where
  | add
  | sub
  | mul
  | div
  | rem
  deriving DecidableEq, Repr

def quotient (a b : Int) : Int := Int.tdiv a b

/-- Applies an arithmetic operator: `NULL` gives `NULL`, integers stay integers unless they leave
the range, and division by zero gives `NULL`. -/
def arith (op : ArithOp) (a b : Value) : Value :=
  match a.toNumeric, b.toNumeric with
  | .null, _ | _, .null => .null
  | .int m, .int n =>
    match op with
    | .add => intResult (m + n) fun _ => Double.ofInt m + Double.ofInt n
    | .sub => intResult (m - n) fun _ => Double.ofInt m - Double.ofInt n
    | .mul => intResult (m * n) fun _ => Double.ofInt m * Double.ofInt n
    | .div =>
      if n = 0 then .null
      else if m = Double.minInt ∧ n = -1 then .ofReal (Double.ofInt m / Double.ofInt n)
      else .int (quotient m n)
    | .rem =>
      if n = 0 then .null
      else .int (Int.tmod m (if n = -1 then 1 else n))
  | x, y =>
    let rx := x.toReal
    let ry := y.toReal
    match op with
    | .add => .ofReal (rx + ry)
    | .sub => .ofReal (rx - ry)
    | .mul => .ofReal (rx * ry)
    | .div => if ry == 0.0 then .null else .ofReal (rx / ry)
    | .rem =>
      let m := a.toInt
      let n := b.toInt
      if n = 0 then .null else .real (Double.ofInt (Int.tmod m (if n = -1 then 1 else n)))

/-- The bitwise operators, on values read as integers. -/
inductive BitOp where
  | and
  | or
  | shiftLeft
  | shiftRight
  deriving DecidableEq, Repr

/-- The 64-bit two's-complement pattern of an integer in range. -/
def toBits64 (n : Int) : Nat := (n % 18446744073709551616).toNat

/-- The integer in range with a 64-bit two's-complement pattern. -/
def ofBits64 (bits : Nat) : Int :=
  let bits := bits % 18446744073709551616
  if bits ≥ 9223372036854775808 then (bits : Int) - 18446744073709551616 else bits

/-- Shifts left by a count, a negative count shifting right; 64 or more leaves 0 or -1. -/
def shiftBits (n : Int) (count : Int) : Int :=
  if count ≥ 0 then
    if count ≥ 64 then 0 else ofBits64 (toBits64 n * Nat.pow 2 count.toNat)
  else
    let k := (-count).toNat
    if k ≥ 64 then (if n < 0 then -1 else 0) else n / Int.pow 2 k

/-- Applies a bitwise operator; `NULL` in gives `NULL` out. -/
def bitwise (op : BitOp) (a b : Value) : Value :=
  if a.isNull ∨ b.isNull then .null
  else
    let m := a.toInt
    let n := b.toInt
    match op with
    | .and => .int (ofBits64 (Nat.land (toBits64 m) (toBits64 n)))
    | .or => .int (ofBits64 (Nat.lor (toBits64 m) (toBits64 n)))
    | .shiftLeft => .int (shiftBits m n)
    | .shiftRight => .int (shiftBits m (-n))

/-- Joins two values as text; `NULL` in gives `NULL` out. -/
def concat (a b : Value) : Value :=
  match a.toText?, b.toText? with
  | some s, some t => .text (s ++ t)
  | _, _ => .null

end Sql
end TreeHistory
