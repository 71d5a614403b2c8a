import TreeHistory.Sql.Value

/-!
# The printf function

`printf(format, ...)`, also called `format`, writes its arguments into its format text the way
the database's own formatter does. A conversion is a `%`, flags, a width, a precision, an
optional `l` or `ll`, and a conversion character; a `*` takes the width or precision from the
next argument. An argument is read as the conversion needs it, a missing one as 0 or `NULL`. An
unknown conversion character ends the output, and a format that writes nothing gives `NULL`. A
double is written from the digits the formatter scales it to (`Double.scaledDigits`).
-/

namespace TreeHistory
namespace Sql
namespace Printf

/-- The flags, width and precision of a conversion. -/
structure Spec where
  leftJustify : Bool := false
  /-- The character written before a number that is not negative: `+`, a blank, or none. -/
  sign : Option Char := none
  alternate : Bool := false
  /-- The `!` flag. -/
  characters : Bool := false
  zeroPad : Bool := false
  thousands : Bool := false
  width : Nat := 0
  precision : Option Nat := none
  deriving Repr

/-- How a double is written. -/
inductive FloatStyle where
  /-- `f`: fixed notation. -/
  | fixed
  /-- `e`, `E`: one digit before the point and an exponent. -/
  | exponent (upper : Bool)
  /-- `g`, `G`: the shorter of the two, without trailing zeros. -/
  | general (upper : Bool)
  deriving DecidableEq, Repr

/-- What a conversion writes. -/
inductive Conversion where
  /-- An integer in a base, with how it is written. -/
  | integer (signed : Bool) (base : Nat) (upper : Bool) (marker : String) (grouped : Bool)
      (ordinal : Bool)
  | float (style : FloatStyle)
  | string
  /-- Text with a quote character doubled, enclosed in quotes when asked; and the text written
  for `NULL`. -/
  | quoted (quote : UInt8) (enclose : Bool) (null : String)
  | character
  | percent
  /-- `n`: writes nothing. -/
  | nothing
  deriving Repr

/-- The conversion a character names, if the formatter knows it. -/
def conversion? : Char → Option Conversion
  | 'd' | 'i' => some (.integer true 10 false "" true false)
  | 'u' => some (.integer false 10 false "" true false)
  | 'x' => some (.integer false 16 false "0x" false false)
  | 'X' => some (.integer false 16 true "0X" false false)
  | 'o' => some (.integer false 8 false "0" false false)
  | 'p' => some (.integer false 16 true "0x" false false)
  | 'r' => some (.integer true 10 false "" false true)
  | 'f' => some (.float .fixed)
  | 'e' => some (.float (.exponent false))
  | 'E' => some (.float (.exponent true))
  | 'g' => some (.float (.general false))
  | 'G' => some (.float (.general true))
  | 's' | 'z' => some .string
  | 'q' => some (.quoted 39 false "(NULL)")
  | 'Q' => some (.quoted 39 true "NULL")
  | 'w' => some (.quoted 34 false "(NULL)")
  | 'c' => some .character
  | '%' => some .percent
  | 'n' => some .nothing
  | _ => none

/-- The next argument, if there is one, and those after it. -/
def nextArg : List Value → Option Value × List Value
  | [] => (none, [])
  | v :: rest => (some v, rest)

/-- An argument read as an integer; a missing one is 0. -/
def intArg (v : Option Value) : Int := (v.map Value.toInt).getD 0

/-- An argument read as a double; a missing one is 0. -/
def realArg (v : Option Value) : Float := (v.map Value.toReal).getD 0.0

/-- The bytes of an argument read as text, up to the first NUL byte: none for `NULL` or a
missing argument, the bytes themselves for a blob. -/
def textArg : Option Value → Option (List UInt8)
  | some (.blob bytes) => some (bytes.takeWhile (· ≠ 0))
  | some v => v.toText?.map fun s => (Value.textBytes s).takeWhile (· ≠ 0)
  | none => none

/-- The number a string of decimal digits spells. -/
def digitsValue (digits : List Char) : Nat :=
  digits.foldl (fun n c => 10 * n + (c.toNat - '0'.toNat)) 0

/-- An argument count as the formatter's `int` holds it: the low 32 bits, signed. -/
def int32 (n : Int) : Int :=
  let bits := n % 4294967296
  if bits ≥ 2147483648 then bits - 4294967296 else bits

/-- A count taken from an argument as a width: a negative one left justifies. -/
def widthArg (spec : Spec) (n : Int) : Spec :=
  if n < 0 then { spec with leftJustify := true, width := if n ≥ -2147483647 then (-n).toNat else 0 }
  else { spec with width := n.toNat }

/-- A count taken from an argument as a precision: a negative one counts as its magnitude, or
as none past the range of an `int`. -/
def precisionArg (spec : Spec) (n : Int) : Spec :=
  if n < 0 then { spec with precision := if n ≥ -2147483647 then some (-n).toNat else none }
  else { spec with precision := some n.toNat }

/-- After a width or precision: an `l` or a `.` goes on with the spec, any other character is the
conversion character. -/
def specEnd (spec : Spec) (args : List Value) : List Char →
    Option (Spec × List Value × List Char) ⊕ (Spec × List Value × Option (Char × List Char))
  | 'l' :: rest => .inl (some (spec, args, 'l' :: rest))
  | '.' :: rest => .inl (some (spec, args, '.' :: rest))
  | c :: rest => .inr (spec, args, some (c, rest))
  | [] => .inr (spec, args, none)

/-- Reads the flags, width and precision after a `%`, taking the values of `*` from the
arguments. -/
def readSpec : Nat → Spec → List Value → List Char →
    Spec × List Value × Option (Char × List Char)
  | 0, spec, args, _ => (spec, args, none)
  | fuel + 1, spec, args, cs =>
    let continueWith (r : Option (Spec × List Value × List Char) ⊕
        (Spec × List Value × Option (Char × List Char))) :
        Spec × List Value × Option (Char × List Char) :=
      match r with
      | .inl (some (spec, args, rest)) => readSpec fuel spec args rest
      | .inl none => (spec, args, none)
      | .inr done => done
    match cs with
    | [] => (spec, args, none)
    | c :: rest =>
      match c with
      | '-' => readSpec fuel { spec with leftJustify := true } args rest
      | '+' => readSpec fuel { spec with sign := some '+' } args rest
      | ' ' => readSpec fuel { spec with sign := some ' ' } args rest
      | '#' => readSpec fuel { spec with alternate := true } args rest
      | '!' => readSpec fuel { spec with characters := true } args rest
      | '0' => readSpec fuel { spec with zeroPad := true } args rest
      | ',' => readSpec fuel { spec with thousands := true } args rest
      | 'l' =>
        match rest with
        | 'l' :: c2 :: after => (spec, args, some (c2, after))
        | 'l' :: [] => (spec, args, none)
        | c2 :: after => (spec, args, some (c2, after))
        | [] => (spec, args, none)
      | '*' =>
        let (v, args) := nextArg args
        continueWith (specEnd (widthArg spec (int32 (intArg v))) args rest)
      | '.' =>
        match rest with
        | '*' :: after =>
          let (v, args) := nextArg args
          let spec := precisionArg spec (int32 (intArg v))
          match after with
          | 'l' :: _ => readSpec fuel spec args after
          | c2 :: after2 => (spec, args, some (c2, after2))
          | [] => (spec, args, none)
        | _ =>
          let (digits, after) := rest.span Char.isDigit
          let spec := { spec with precision := some (digitsValue digits % 2147483648) }
          match after with
          | 'l' :: _ => readSpec fuel spec args after
          | c2 :: after2 => (spec, args, some (c2, after2))
          | [] => (spec, args, none)
      | _ =>
        if c.isDigit then
          let (digits, after) := cs.span Char.isDigit
          continueWith
            (specEnd { spec with width := digitsValue digits % 2147483648 } args after)
        else (spec, args, some (c, rest))

/-- Pads a conversion's bytes with blanks to a width, on the left or, left justified, on the
right. -/
def pad (spec : Spec) (width : Int) (body : List UInt8) : List UInt8 :=
  let gap := width - body.length
  if gap ≤ 0 then body
  else if spec.leftJustify then body ++ List.replicate gap.toNat 32
  else List.replicate gap.toNat 32 ++ body

/-- The bytes of ASCII text. -/
def ascii (cs : List Char) : List UInt8 := cs.map fun c => c.toNat.toUInt8

/-- Whether a byte continues a UTF-8 character. -/
def isContinuation (b : UInt8) : Bool := b &&& 0xC0 == 0x80

/-- The bytes of the first `n` UTF-8 characters of some bytes. -/
def takeChars : Nat → List UInt8 → List UInt8
  | 0, _ => []
  | _, [] => []
  | n + 1, b :: rest =>
    let tail := rest.takeWhile isContinuation
    b :: tail ++ takeChars n (rest.drop tail.length)

/-- The width text is padded to: with `!`, bytes that continue a character do not count. -/
def textWidth (spec : Spec) (body : List UInt8) : Int :=
  if spec.characters then spec.width + (body.filter isContinuation).length else spec.width

/-- Digits grouped in threes by commas, given from the last digit back. -/
def groupReversed : List Char → List Char
  | a :: b :: c :: rest@(_ :: _) => a :: b :: c :: ',' :: groupReversed rest
  | rest => rest

/-- The suffix of an ordinal number: `st`, `nd`, `rd` or `th`. -/
def ordinalSuffix (n : Nat) : List Char :=
  let x := n % 10
  if x ≥ 4 ∨ (n / 10) % 10 = 1 then ['t', 'h']
  else match x with
    | 1 => ['s', 't']
    | 2 => ['n', 'd']
    | 3 => ['r', 'd']
    | _ => ['t', 'h']

/-- The text of an integer conversion, before padding. -/
def integerText (spec : Spec) (signed : Bool) (base : Nat) (upper : Bool) (marker : String)
    (grouped ordinal : Bool) (v : Int) : List Char :=
  let (magnitude, sign) : Nat × Option Char :=
    if signed then (if v < 0 then ((-v).toNat, some '-') else (v.toNat, spec.sign))
    else ((v % 18446744073709551616).toNat, none)
  let signWidth : Int := if sign.isSome then 1 else 0
  let precision : Int := match spec.precision with
    | some p => p
    | none => -1
  let precision := if spec.zeroPad ∧ precision < (spec.width : Int) - signWidth then
      (spec.width : Int) - signWidth else precision
  let digits := (Nat.toDigits base magnitude).map fun c => if upper then c.toUpper else c
  let body := digits ++ (if ordinal then ordinalSuffix magnitude else [])
  let body := List.replicate (precision - body.length).toNat '0' ++ body
  let body := if grouped ∧ spec.thousands then (groupReversed body.reverse).reverse else body
  let body := sign.toList ++ body
  if spec.alternate ∧ magnitude ≠ 0 then marker.toList ++ body else body

/-- A double's decimal digits as the formatter rounds them: its sign, significant digits and the
place of the point. -/
structure Digits where
  negative : Bool
  digits : List Nat
  point : Int
  deriving Repr

/-- The digits of a natural number in base ten, most significant first, at least `width` of
them. -/
def decimalDigits (n width : Nat) : List Nat :=
  let ds := (Nat.toDigits 10 n).map fun c => c.toNat - '0'.toNat
  List.replicate (width - ds.length) 0 ++ ds

/-- Rounds digits half up to their first `n`, carrying into a new leading digit when they were
all nines: the digits and how far the point moves. -/
def roundDigits (digits : List Nat) (n : Nat) : List Nat × Int :=
  let kept := digits.take n
  if (digits[n]?).getD 0 ≥ 5 then
    let value := kept.foldl (fun acc d => 10 * acc + d) 0 + 1
    if value ≥ Nat.pow 10 n then (1 :: List.replicate n 0, 1) else (decimalDigits value n, 0)
  else (kept, 0)

/-- Drops the zeros after the last significant digit, keeping one digit. -/
def trimTrailing (digits : List Nat) : List Nat :=
  match (digits.reverse.dropWhile (· = 0)).reverse with
  | [] => [0]
  | kept => kept

/-- The digits of a finite double, rounded as a conversion asks. -/
def decodeFinite (x : Float) (round : Int) (most : Nat) : Digits :=
  if x == 0 then { negative := false, digits := [0], point := 1 }
  else
    let negative := x < 0
    let (v, exp) := Double.scaledDigits (if negative then -x else x)
    let digits := decimalDigits v 0
    let point := (digits.length : Int) + exp
    let (digits, point, round) :=
      if round ≤ 0 then
        let r := point - round
        if r = 0 ∧ (digits.head?.getD 0) ≥ 5 then (0 :: digits, point + 1, (1 : Int))
        else (digits, point, r)
      else (digits, point, round)
    let (digits, point) :=
      if round > 0 ∧ (round < digits.length ∨ digits.length > most) then
        let (rounded, moved) := roundDigits digits (min round.toNat most)
        (rounded, point + moved)
      else (digits, point)
    { negative := negative, digits := trimTrailing digits, point := point }

/-- The text of a float conversion whose digits are known, before padding to the width. -/
def layoutFloat (spec : Spec) (style : FloatStyle) (precision : Nat) (d : Digits) : List Char :=
  let lead : Option Char := if d.negative then some '-' else spec.sign
  let exp := d.point - 1
  let (style, precision, trim) : FloatStyle × Int × Bool := match style with
    | .general upper =>
      let precision : Int := (precision : Int) - 1
      if exp < -4 ∨ exp > precision then (.exponent upper, precision, !spec.alternate)
      else (.fixed, precision - exp, !spec.alternate)
    | other => (other, (precision : Int), spec.characters)
  let isExponent := match style with
    | .exponent _ => true
    | _ => false
  let e2 : Int := if isExponent then 0 else d.point - 1
  let dot := precision > 0 ∨ spec.alternate ∨ spec.characters
  let digit (j : Nat) : Char := Char.ofNat ('0'.toNat + (d.digits[j]?).getD 0)
  let whole : List Char := if e2 < 0 then ['0']
    else (List.range (e2.toNat + 1)).flatMap fun j =>
      let k := e2.toNat - j
      digit j :: (if spec.thousands ∧ k % 3 = 0 ∧ k > 1 then [','] else [])
  let used : Nat := if e2 < 0 then 0 else e2.toNat + 1
  let zeros : Int := if e2 < 0 then min (-d.point) precision else 0
  let zeros := max zeros 0
  let rest : Int := max (precision - zeros) 0
  let fraction := List.replicate zeros.toNat '0' ++
    (List.range rest.toNat).map fun k => digit (used + k)
  let body := whole ++ (if dot then '.' :: fraction else fraction)
  let body :=
    if trim ∧ dot then
      let stripped := (body.reverse.dropWhile (· = '0')).reverse
      if stripped.getLast? = some '.' then
        if spec.characters then stripped ++ ['0'] else stripped.dropLast
      else stripped
    else body
  let body :=
    if isExponent then
      let e : Int := if d.digits = [0] then 0 else d.point - 1
      let letter := match style with
        | .exponent true => 'E'
        | _ => 'e'
      let magnitude := e.natAbs
      body ++ [letter, if e < 0 then '-' else '+'] ++
        (if magnitude ≥ 100 then [Char.ofNat ('0'.toNat + magnitude / 100)] else []) ++
        [Char.ofNat ('0'.toNat + magnitude % 100 / 10), Char.ofNat ('0'.toNat + magnitude % 10)]
    else body
  let full := lead.toList ++ body
  if spec.zeroPad ∧ ¬spec.leftJustify ∧ full.length < spec.width then
    let zeros := List.replicate (spec.width - full.length) '0'
    match lead with
    | some c => c :: zeros ++ body
    | none => zeros ++ body
  else full

/-- The text of a float conversion, before padding to the width. -/
def floatText (spec : Spec) (style : FloatStyle) (x : Float) : List Char :=
  let precision := spec.precision.getD 6
  let (round, precision) : Int × Nat := match style with
    | .fixed => (-(precision : Int), precision)
    | .general _ =>
      let p := if precision = 0 then 1 else precision
      ((p : Int), p)
    | .exponent _ => ((precision : Int) + 1, precision)
  let most := if spec.characters then 26 else 16
  match Double.decode x with
  | some _ => layoutFloat spec style precision (decodeFinite x round most)
  | none =>
    if Double.isNaN x then (if spec.zeroPad then "null" else "NaN").toList
    else
      let negative := x < 0
      if spec.zeroPad then
        layoutFloat spec style precision { negative := negative, digits := [9], point := 1000 }
      else if negative then "-Inf".toList
      else (spec.sign.toList ++ "Inf".toList)

/-- Writes one conversion: its bytes, padded, and the arguments left. -/
def convert (spec : Spec) (conversion : Conversion) (args : List Value) :
    List UInt8 × List Value :=
  match conversion with
  | .integer signed base upper marker grouped ordinal =>
    let (v, args) := nextArg args
    (pad spec spec.width
      (ascii (integerText spec signed base upper marker grouped ordinal (intArg v))), args)
  | .float style =>
    let (v, args) := nextArg args
    (pad spec spec.width (ascii (floatText spec style (realArg v))), args)
  | .string =>
    let (v, args) := nextArg args
    let bytes := (textArg v).getD []
    let bytes := match spec.precision with
      | some p => if spec.characters then takeChars p bytes else bytes.take p
      | none => bytes
    (pad spec (textWidth spec bytes) bytes, args)
  | .quoted q enclose null =>
    let (v, args) := nextArg args
    let (isNull, text) := match textArg v with
      | some bytes => (false, bytes)
      | none => (true, Value.textBytes null)
    let taken := match spec.precision with
      | some p => if spec.characters then takeChars p text else text.take p
      | none => text
    let escaped := taken.flatMap fun b => if b == q then [b, b] else [b]
    let body := if enclose ∧ ¬isNull then q :: escaped ++ [q] else escaped
    (pad spec (textWidth spec body) body, args)
  | .character =>
    let (v, args) := nextArg args
    let ch : List UInt8 := match textArg v with
      | some (b :: rest) =>
        b :: (if b &&& 0xC0 == 0xC0 then (rest.takeWhile isContinuation).take 3 else [])
      | _ => [0]
    let copies := spec.precision.getD 0
    let (before, width) : List UInt8 × Int :=
      if copies > 1 then
        let width : Int := (spec.width : Int) - (copies - 1)
        let (spaces, width) : List UInt8 × Int :=
          if width > 1 ∧ ¬spec.leftJustify then (List.replicate (width - 1).toNat 32, 0)
          else ([], width)
        (spaces ++ (List.replicate (copies - 1) ch).flatten, width)
      else ([], spec.width)
    let width := if width > 0 then width + (ch.filter isContinuation).length else width
    (before ++ pad spec width ch, args)
  | .percent => (pad spec spec.width [37], args)
  | .nothing => ([], args)

/-- What formatting has written so far, and whether it has written anything, even nothing. -/
structure Output where
  bytes : Array UInt8 := #[]
  written : Bool := false

/-- The output with more bytes written. -/
def Output.push (out : Output) (bytes : List UInt8) : Output :=
  { bytes := out.bytes ++ bytes.toArray, written := true }

/-- Formats the rest of a format text with the arguments left. -/
def run : Nat → List Value → List Char → Output → Output
  | 0, _, _, out => out
  | fuel + 1, args, cs, out =>
    match cs with
    | [] => out
    | '%' :: rest =>
      match rest with
      | [] => out.push [37]
      | _ =>
        match readSpec rest.length {} args rest with
        | (_, _, none) => out
        | (spec, args, some (c, after)) =>
          match conversion? c with
          | none => out
          | some conversion =>
            let (bytes, args) := convert spec conversion args
            run fuel args after (out.push bytes)
    | _ =>
      let (text, rest) := cs.span (· ≠ '%')
      run fuel args rest (out.push (Value.textBytes (String.ofList text)))

/-- `printf(format, ...)`: the format's text, read up to its first NUL character, with the
arguments written in, or `NULL` when the format is `NULL` or writes nothing. -/
def printf : List Value → Value
  | [] => .null
  | format :: args =>
    match format.toText? with
    | none => .null
    | some text =>
      let chars := text.toList.takeWhile (· ≠ '\x00')
      let out := run (chars.length + 1) args chars {}
      if out.written then .text (Value.bytesText out.bytes.toList) else .null

end Printf
end Sql
end TreeHistory
