import TreeHistory.Sql.Printf

/-!
# Dates and times

The date functions read a time value and a list of modifiers, and write the moment they arrive at.
A moment (`Moment`) is a count of milliseconds since noon of the first Julian day together with
calendar fields, each computed from the other when needed, in the proleptic Gregorian calendar. A
value that is not a time, a modifier that does not apply, or a moment out of range gives `NULL`.
The clock is fixed: `now` is `2000-01-01 00:00:00`, and local time is UTC.
-/

namespace TreeHistory
namespace Sql
namespace Calendar

def dayMs : Int := 86400000

/-- Milliseconds from the start of the Julian day count to `1970-01-01 00:00:00`. -/
def epochMs : Int := 210866760000000

/-- The moment `now` stands for, `2000-01-01 00:00:00`. -/
def nowMs : Int := 211813444800000

/-- The last moment the functions accept, `9999-12-31 23:59:59.999`. -/
def lastMs : Int := 464269060799999

/-- Whether a count of milliseconds lies in the years `-4713` to `9999`. -/
def validMs (ms : Int) : Bool := decide (0 ≤ ms ∧ ms ≤ lastMs)

/-- A moment as the date functions hold it while they apply modifiers. -/
structure Moment where
  ms : Int := 0
  year : Int := 0
  month : Int := 0
  day : Int := 0
  hour : Int := 0
  minute : Int := 0
  /-- Seconds with their fraction; a bare number before a modifier says how to read it. -/
  second : Float := 0
  /-- The offset from UTC that the text gave, in minutes. -/
  offset : Int := 0
  /-- The days a `floor` modifier takes back: how far a day of the month ran past its end. -/
  overflow : Int := 0
  hasMs : Bool := false
  hasDate : Bool := false
  hasTime : Bool := false
  raw : Bool := false
  failed : Bool := false
  subsec : Bool := false
  isUtc : Bool := false
  isLocal : Bool := false

namespace Moment

/-- A moment that left the accepted years: every other field cleared. -/
def broken : Moment := { failed := true }

def current : Moment := { ms := nowMs, hasMs := true, isUtc := true }

/-- Forgets the calendar fields and the offset, once the milliseconds are current. -/
def clearFields (m : Moment) : Moment := { m with hasDate := false, hasTime := false, offset := 0 }

/-- Makes the milliseconds current, from the calendar fields with the offset applied. -/
def withMs (m : Moment) : Moment :=
  if m.hasMs then m
  else
    let (y, mo, d) := if m.hasDate then (m.year, m.month, m.day) else (2000, 1, 1)
    if y < -4713 ∨ 9999 < y ∨ m.raw then broken
    else
      let (y, mo) := if mo ≤ 2 then (y - 1, mo + 12) else (y, mo)
      let a := y.tdiv 100
      let b := 2 - a + a.tdiv 4
      let x1 := (36525 * (y + 4716)).tdiv 100
      let x2 := (306001 * (mo + 1)).tdiv 10000
      let ms := (x1 + x2 + d + b) * dayMs - 131716800000
      if m.hasTime then
        let ms := ms + m.hour * 3600000 + m.minute * 60000 +
          Double.toInt64 (m.second * 1000 + 0.5)
        if m.offset != 0 then
          { m with ms := ms - m.offset * 60000, hasMs := true, hasDate := false, hasTime := false,
                   offset := 0, isUtc := true, isLocal := false }
        else { m with ms := ms, hasMs := true }
      else { m with ms := ms, hasMs := true }

/-- Makes the year, month and day current, from the milliseconds. -/
def withDate (m : Moment) : Moment :=
  if m.hasDate then m
  else if !m.hasMs then { m with year := 2000, month := 1, day := 1, hasDate := true }
  else if !validMs m.ms then broken
  else
    let z := (m.ms + 43200000) / dayMs
    let alpha := (4 * z + 128179) / 146097 - 52
    let a := z + 1 + alpha - (alpha + 100) / 4 + 25
    let b := a + 1524
    let c := (20 * b - 2442) / 7305
    let d := (36525 * (c % 32768)) / 100
    let e := (10000 * (b - d)) / 306001
    let x1 := (306001 * e) / 10000
    let month := if e < 14 then e - 1 else e - 13
    { m with day := b - d - x1, month := month,
             year := if month > 2 then c - 4716 else c - 4715, hasDate := true }

/-- Makes the hour, minute and second current, from the milliseconds. -/
def withTime (m : Moment) : Moment :=
  if m.hasTime then m
  else
    let m := m.withMs
    let inDay := (m.ms + 43200000).tmod dayMs
    let minutes := inDay.tdiv 60000
    { m with second := Float.ofInt (inDay.tmod 60000) / 1000, minute := minutes.tmod 60,
             hour := minutes.tdiv 60, raw := false, hasTime := true }

def withFields (m : Moment) : Moment := m.withDate.withTime

/-- Records how far the day of the month runs past the end of its month. -/
def withOverflow (m : Moment) : Moment :=
  let excess :=
    if m.day ≤ 28 then 0
    else if m.month ∈ [1, 3, 5, 7, 8, 10, 12] then 0
    else if m.month != 2 then (if m.day = 31 then 1 else 0)
    else if m.year % 4 != 0 ∨ (m.year % 100 = 0 ∧ m.year % 400 != 0) then m.day - 28
    else m.day - 29
  { m with overflow := excess }

/-- The calendar fields of a count of milliseconds, whole seconds only, as the system's clock. -/
def brokenDown (ms : Int) : Moment :=
  ({ ms := ms.tdiv 1000 * 1000, hasMs := true } : Moment).withFields

/-- The moment in local time, which is UTC; outside 1970 to 2038 broken down in a year of the same
place in the leap cycle. -/
def toLocal (m : Moment) : Moment :=
  let m := m.withMs
  let (shift, fields) :=
    if 210866760000000 ≤ m.ms ∧ m.ms ≤ 213014145600000 then (0, brokenDown m.ms)
    else
      let x := m.withFields
      let shift := 2000 + x.year.tmod 4 - x.year
      let x := ({ x with year := x.year + shift, hasMs := false } : Moment).withMs
      (shift, brokenDown x.ms)
  { m with year := fields.year - shift, month := fields.month, day := fields.day,
           hour := fields.hour, minute := fields.minute,
           second := fields.second + Float.ofInt (m.ms.tmod 1000) * 0.001,
           hasDate := true, hasTime := true, hasMs := false, raw := false, offset := 0,
           failed := false }

/-- The UTC moment whose local time is `target`: a guess, corrected at most four times. -/
def utcGuess (target : Int) : Nat → Int → Int → Int
  | 0, guess, _ => guess
  | fuel + 1, guess, miss =>
    let guess := guess - miss
    let miss := (toLocal { ms := guess, hasMs := true }).withMs.ms - target
    if miss = 0 then guess else utcGuess target fuel guess miss

/-- A bare number as a time value: kept as it is, and read as a Julian day when it is one. -/
def ofNumber (r : Float) : Moment :=
  if 0 ≤ r ∧ r < 5373484.5 then
    { second := r, raw := true, ms := Double.toInt64 (r * 86400000 + 0.5), hasMs := true }
  else { second := r, raw := true }

/-- Days since the Monday before, counting that Monday as 0. -/
def daysAfterMonday (m : Moment) : Int := ((m.ms + 43200000) / dayMs) % 7

/-- Days since the Sunday before, counting that Sunday as 0. -/
def daysAfterSunday (m : Moment) : Int := ((m.ms + 129600000) / dayMs) % 7

/-- Days since the first of January of the moment's year. -/
def daysAfterNewYear (m : Moment) : Int :=
  let newYear := ({ m with hasMs := false, month := 1, day := 1 } : Moment).withMs
  (m.ms - newYear.ms + 43200000).tdiv dayMs

/-- The Thursday of the moment's week, whose year is the moment's year of ISO weeks. -/
def thursday (m : Moment) : Moment :=
  ({ m with ms := m.ms + (3 - m.daysAfterMonday) * dayMs, hasDate := false } : Moment).withDate

end Moment

def digitsValue : Nat → Int → List Char → Option (Int × List Char)
  | 0, acc, text => some (acc, text)
  | count + 1, acc, c :: rest =>
    if c.isDigit then digitsValue count (acc * 10 + ((c.toNat : Int) - 48)) rest else none
  | _ + 1, _, [] => none

/-- Reads a field of `count` digits whose value lies from `low` to `high`. -/
def field (count : Nat) (low high : Int) (text : List Char) : Option (Int × List Char) := do
  let (v, rest) ← digitsValue count 0 text
  if low ≤ v ∧ v ≤ high then some (v, rest) else none

def expect (c : Char) : List Char → Option (List Char)
  | d :: rest => if d = c then some rest else none
  | [] => none

/-- The fraction of a second that digits after a point give. -/
def fractionValue (digits : List Char) : Float :=
  let (sum, scale) := digits.foldl
    (fun (acc : Float × Float) c => ((acc.1 * 10 + Float.ofNat c.toNat) - 48, acc.2 * 10))
    ((0 : Float), (1 : Float))
  sum / scale

/-- Reads what may follow a time: blanks, then nothing, `Z`, or an offset `±HH:MM`. -/
def readZone (m : Moment) (text : List Char) : Option Moment :=
  let m := { m with offset := 0 }
  match text.dropWhile isSpace with
  | [] => some m
  | c :: rest =>
    if c = 'Z' ∨ c = 'z' then
      if (rest.dropWhile isSpace).isEmpty then some { m with isLocal := false, isUtc := true }
      else none
    else if c = '-' ∨ c = '+' then do
      let (h, rest) ← field 2 0 14 rest
      let rest ← expect ':' rest
      let (mi, rest) ← field 2 0 59 rest
      if (rest.dropWhile isSpace).isEmpty then
        some { m with offset := (if c = '-' then -1 else 1) * (mi + h * 60) }
      else none
    else none

/-- Reads a time `HH:MM[:SS[.SSS]]` and what follows it. -/
def readTime (m : Moment) (text : List Char) : Option Moment := do
  let (h, rest) ← field 2 0 24 text
  let rest ← expect ':' rest
  let (mi, rest) ← field 2 0 59 rest
  let (s, rest) ← match rest with
    | ':' :: more => do
      let (s, more) ← field 2 0 59 more
      match more with
      | '.' :: d :: tail =>
        if d.isDigit then
          let digits := (d :: tail).takeWhile Char.isDigit
          some (Float.ofInt s + fractionValue digits, (d :: tail).drop digits.length)
        else some (Float.ofInt s, more)
      | _ => some (Float.ofInt s, more)
    | _ => some (0, rest)
  readZone { m with hasMs := false, raw := false, hasTime := true, hour := h, minute := mi,
                    second := s } rest

/-- Reads a date `YYYY-MM-DD`, a year before 0 with a minus, and the time that may follow. -/
def readDate (text : List Char) : Option Moment := do
  let (negative, text) := match text with
    | '-' :: rest => (true, rest)
    | _ => (false, text)
  let (y, rest) ← field 4 0 14712 text
  let rest ← expect '-' rest
  let (mo, rest) ← field 2 1 12 rest
  let rest ← expect '-' rest
  let (d, rest) ← field 2 1 31 rest
  let rest := rest.dropWhile fun c => isSpace c ∨ c = 'T'
  let m : Moment ← match readTime {} rest with
    | some m => some m
    | none => if rest.isEmpty then some {} else none
  let m := Moment.withOverflow { m with hasMs := false, hasDate := true,
                                        year := if negative then -y else y, month := mo, day := d }
  some (if m.offset != 0 then m.withMs else m)

def isWord (text : List Char) (word : String) : Bool :=
  text.map Char.toLower == word.toList

/-- Reads a time value written as text. -/
def readValue (text : List Char) : Option Moment :=
  match readDate text with
  | some m => some m
  | none =>
    match readTime {} text with
    | some m => some m
    | none =>
      if isWord text "now" then some Moment.current
      else
        let (r, code) := scanReal text
        if code > 0 then some (Moment.ofNumber r)
        else if isWord text "subsec" ∨ isWord text "subsecond" then
          some { Moment.current with subsec := true }
        else none

/-- `auto`: a bare number is a Julian day if it can be one, and seconds since 1970 otherwise. -/
def autoModifier (m : Moment) (index : Nat) : Option Moment :=
  if index > 1 then none
  else if !m.raw ∨ m.hasMs then some { m with raw := false }
  else if -210866760000 ≤ m.second ∧ m.second ≤ 253402300799 then
    let r := m.second * 1000 + 210866760000000
    some { m.clearFields with ms := Double.toInt64 (r + 0.5), hasMs := true, raw := false }
  else none

/-- `unixepoch`: a bare number counts seconds since 1970. -/
def unixModifier (m : Moment) (index : Nat) : Option Moment :=
  if index > 1 then none
  else
    let r := m.second * 1000 + 210866760000000
    if 0 ≤ r ∧ r < 464269060800000 then
      some { m.clearFields with ms := Double.toInt64 (r + 0.5), hasMs := true, raw := false }
    else none

/-- `weekday N`: the next day, counting the day itself, that is the `N`th of the week. -/
def weekdayModifier (m : Moment) (count : List Char) : Option Moment :=
  let (r, code) := scanReal count
  if code > 0 ∧ 0 ≤ r ∧ r < 7 ∧ Float.ofInt (Double.toInt64 r) == r then
    let n := Double.toInt64 r
    let m := ({ m.withFields with offset := 0, hasMs := false } : Moment).withMs
    let day := ((m.ms + 129600000) / dayMs) % 7
    let day := if day > n then day - 7 else day
    some ({ m with ms := m.ms + (n - day) * dayMs } : Moment).clearFields
  else none

/-- `start of day`, `start of month` and `start of year`. -/
def startOf (m : Moment) (unit : List Char) : Option Moment :=
  if !(m.hasMs || m.hasDate || m.hasTime) then none
  else
    let m := { m.withDate with hasTime := true, hour := 0, minute := 0, second := 0, raw := false,
                               offset := 0, hasMs := false }
    if isWord unit "month" then some { m with day := 1 }
    else if isWord unit "year" then some { m with month := 1, day := 1 }
    else if isWord unit "day" then some m
    else none

/-- The carry into the year of a month count, so that the month lands in 1 to 12. -/
def yearCarry (month : Int) : Int :=
  if month > 0 then (month - 1).tdiv 12 else (month - 12).tdiv 12

/-- `±HH:MM[:SS[.SSS]]`: moves the moment by a time of day. -/
def clockShift (m : Moment) (sign : Char) (text : List Char) : Option Moment := do
  let text := match text with
    | c :: rest => if c.isDigit then c :: rest else rest
    | [] => []
  let tx ← readTime {} text
  let tx := tx.withMs
  let t := tx.ms - 43200000
  let t := t - t.tdiv dayMs * dayMs
  let t := if sign = '-' then -t else t
  let m := m.withMs.clearFields
  some { m with ms := m.ms + t }

/-- `±YYYY-MM-DD[ HH:MM[:SS[.SSS]]]`: moves the moment by years, months, days, then a time. -/
def dateShift (m : Moment) (sign : Char) (width : Nat) (z : List Char) : Option Moment := do
  if sign ≠ '+' ∧ sign ≠ '-' then none
  let (y, rest) ← field width 0 14712 (z.drop 1)
  let rest ← expect '-' rest
  let (mo, rest) ← field 2 0 12 rest
  let rest ← expect '-' rest
  let (d, rest) ← field 2 0 31 rest
  if mo ≥ 12 ∨ d ≥ 31 then none
  let m := { m.withFields with hasMs := false }
  let (year, month, d) :=
    if sign = '-' then (m.year - y, m.month - mo, -d) else (m.year + y, m.month + mo, d)
  let carry := yearCarry month
  let m := (Moment.withOverflow { m with year := year + carry, month := month - carry * 12 }).withMs
  let m := { m with hasTime := false, hasDate := false, ms := m.ms + d * dayMs }
  match rest with
  | [] => some m
  | c :: time =>
    let clock := do
      let (_, more) ← field 2 0 24 time
      let more ← expect ':' more
      field 2 0 59 more
    if isSpace c ∧ clock.isSome then clockShift m sign time else none

/-- The largest number of each unit a modifier may name, and the seconds in one. -/
def unitScale (unit : List Char) : Option (Float × Float) :=
  if isWord unit "second" then some (4.6427e14, 1)
  else if isWord unit "minute" then some (7.7379e12, 60)
  else if isWord unit "hour" then some (1.2897e11, 3600)
  else if isWord unit "day" then some (5373485, 86400)
  else if isWord unit "month" then some (176546, 2592000)
  else if isWord unit "year" then some (14713, 31536000)
  else none

/-- `±N unit`: moves the moment by a number of units; a fraction of a month or year counts as days. -/
def unitShift (m : Moment) (r : Float) (text : List Char) : Option Moment :=
  let length := text.length
  if length < 3 ∨ length > 10 then none
  else
    let unit := if text.getLast?.map Char.toLower == some 's' then text.dropLast else text
    let m := { m.withMs with overflow := 0 }
    let rounder : Float := if r < 0 then -0.5 else 0.5
    let step (m : Moment) (r scale : Float) : Moment :=
      let m := m.withMs
      Moment.clearFields { m with ms := m.ms + Double.toInt64 (r * 1000 * scale + rounder) }
    match unitScale unit with
    | some (limit, scale) =>
      if -limit < r ∧ r < limit then
        if isWord unit "month" then
          let whole := Double.toInt64 r
          let m := m.withFields
          let month := m.month + whole
          let carry := yearCarry month
          let m := Moment.withOverflow { m with year := m.year + carry, month := month - carry * 12 }
          some (step { m with hasMs := false } (r - Float.ofInt whole) scale)
        else if isWord unit "year" then
          let whole := Double.toInt64 r
          let m := m.withFields
          let m := Moment.withOverflow { m with year := m.year + whole }
          some (step { m with hasMs := false } (r - Float.ofInt whole) scale)
        else some (step m r scale)
      else none
    | none => none

/-- Where the number of a modifier ends: at a colon, a blank, or the minus after a year. -/
def numberLength (z : List Char) : Nat :=
  go 1 (z.drop 1)
where
  go : Nat → List Char → Nat
    | n, [] => n
    | n, c :: rest =>
      if c = ':' ∨ isSpace c then n
      else if c = '-' ∧ ((n = 5 ∧ (field 4 0 14712 (z.drop 1)).isSome) ∨
          (n = 6 ∧ (field 5 0 14712 (z.drop 1)).isSome)) then n
      else go (n + 1) rest

/-- A modifier that starts with a sign or a digit: a date shift, a time shift, or units. -/
def shiftModifier (m : Moment) (z : List Char) : Option Moment :=
  let sign := z.headD ' '
  let n := numberLength z
  let (r, code) := scanReal (z.take n)
  if code ≤ 0 then none
  else
    match z.drop n with
    | '-' :: _ => dateShift m sign (n - 1) z
    | ':' :: _ => clockShift m sign z
    | after => unitShift m r (after.dropWhile isSpace)

/-- Applies one modifier, the `index`th argument counting the time value as 0. -/
def modify (m : Moment) (index : Nat) (z : List Char) : Option Moment :=
  match z.head?.map Char.toLower with
  | some 'a' => if isWord z "auto" then autoModifier m index else none
  | some 'c' =>
    if isWord z "ceiling" then some { m.withMs.clearFields with overflow := 0 } else none
  | some 'f' =>
    if isWord z "floor" then
      let m := m.withMs
      some (Moment.clearFields { m with ms := m.ms - m.overflow * dayMs })
    else none
  | some 'j' =>
    if isWord z "julianday" then
      if index > 1 then none
      else if m.hasMs ∧ m.raw then some { m with raw := false }
      else none
    else none
  | some 'l' =>
    if isWord z "localtime" then
      some { (if m.isLocal then m else m.toLocal) with isUtc := false, isLocal := true }
    else none
  | some 'u' =>
    if isWord z "unixepoch" ∧ m.raw then unixModifier m index
    else if isWord z "utc" then
      if m.isUtc then some m
      else
        let target := m.withMs.ms
        some { ms := Moment.utcGuess target 4 target 0, hasMs := true, isUtc := true }
    else none
  | some 'w' =>
    if isWord (z.take 8) "weekday " then weekdayModifier m (z.drop 8) else none
  | some 's' =>
    if isWord (z.take 9) "start of " then startOf m (z.drop 9)
    else if isWord z "subsec" ∨ isWord z "subsecond" then some { m with subsec := true }
    else none
  | some c => if c = '+' ∨ c = '-' ∨ c.isDigit then shiftModifier m z else none
  | none => none

/-- Applies the modifiers in turn, counting their positions from `index`. -/
def modifyAll (m : Moment) (index : Nat) : List Value → Option Moment
  | [] => some m
  | v :: rest =>
    match v.toText? with
    | some z => do
      let m ← modify m index z.toList
      modifyAll m (index + 1) rest
    | none => none

/-- Reads a date function's arguments: a time value, `now` when there is none, and modifiers. -/
def read (args : List Value) : Option Moment :=
  match args with
  | [] => some Moment.current
  | first :: modifiers => do
    let m ← match first with
      | .int _ | .real _ => some (Moment.ofNumber first.toReal)
      | .null => none
      | v => readValue v.chars
    let m ← modifyAll m 1 modifiers
    let m := m.withMs
    if m.failed ∨ !validMs m.ms then none
    else if modifiers.isEmpty ∧ m.hasDate ∧ m.day > 28 then some { m with hasDate := false }
    else some m

def digitText (n : Int) (width : Nat) : String :=
  String.ofList ((List.range width).reverse.map fun i =>
    Char.ofNat (48 + n.natAbs / Nat.pow 10 i % 10))

/-- A date as `YYYY-MM-DD`, a year before 0 with a minus sign. -/
def dateText (m : Moment) : String :=
  (if m.year < 0 then "-" else "") ++ digitText m.year 4 ++ "-" ++ digitText m.month 2 ++ "-" ++
    digitText m.day 2

/-- A time as `HH:MM:SS`, or `HH:MM:SS.SSS` for a moment written with milliseconds. -/
def timeText (m : Moment) : String :=
  digitText m.hour 2 ++ ":" ++ digitText m.minute 2 ++ ":" ++
    if m.subsec then
      let s := Double.toInt64 (1000 * m.second + 0.5)
      digitText (s / 1000) 2 ++ "." ++ digitText s 3
    else digitText (Double.toInt64 m.second) 2

def formatted (spec : String) (args : List Value) : String :=
  ((Printf.printf (.text spec :: args)).toText?).getD ""

/-- The seconds since 1970 of a moment, as `unixepoch` and `%s` write them. -/
def unixValue (m : Moment) : Value :=
  if m.subsec then .real (Float.ofInt (m.ms - epochMs) / 1000)
  else .int (m.ms.tdiv 1000 - 210866760000)

/-- The text one `strftime` directive stands for, or `none` for an unknown one. -/
def directive (m : Moment) : Char → Option String
  | 'd' => some (formatted "%02d" [.int m.day])
  | 'e' => some (formatted "%2d" [.int m.day])
  | 'f' => some (formatted "%06.3f" [.real (if m.second > 59.999 then 59.999 else m.second)])
  | 'F' => some (formatted "%04d-%02d-%02d" [.int m.year, .int m.month, .int m.day])
  | 'G' => some (formatted "%04d" [.int m.thursday.year])
  | 'g' => some (formatted "%02d" [.int (m.thursday.year.tmod 100)])
  | 'H' => some (formatted "%02d" [.int m.hour])
  | 'k' => some (formatted "%2d" [.int m.hour])
  | 'I' => some (formatted "%02d" [.int (twelveHour m.hour)])
  | 'l' => some (formatted "%2d" [.int (twelveHour m.hour)])
  | 'j' => some (formatted "%03d" [.int (m.daysAfterNewYear + 1)])
  | 'J' => some (formatted "%.16g" [.real (Float.ofInt m.ms / 86400000)])
  | 'm' => some (formatted "%02d" [.int m.month])
  | 'M' => some (formatted "%02d" [.int m.minute])
  | 'p' => some (if m.hour ≥ 12 then "PM" else "AM")
  | 'P' => some (if m.hour ≥ 12 then "pm" else "am")
  | 'R' => some (formatted "%02d:%02d" [.int m.hour, .int m.minute])
  | 's' =>
    match unixValue m with
    | .real x => some (formatted "%.3f" [.real x])
    | v => some (formatted "%lld" [v])
  | 'S' => some (formatted "%02d" [.int (Double.toInt64 m.second)])
  | 'T' => some (formatted "%02d:%02d:%02d"
      [.int m.hour, .int m.minute, .int (Double.toInt64 m.second)])
  | 'u' => some (toString (if m.daysAfterSunday = 0 then 7 else m.daysAfterSunday))
  | 'w' => some (toString m.daysAfterSunday)
  | 'U' => some (formatted "%02d" [.int ((m.daysAfterNewYear - m.daysAfterSunday + 7) / 7)])
  | 'V' => some (formatted "%02d" [.int (m.thursday.daysAfterNewYear / 7 + 1)])
  | 'W' => some (formatted "%02d" [.int ((m.daysAfterNewYear - m.daysAfterMonday + 7) / 7)])
  | 'Y' => some (formatted "%04d" [.int m.year])
  | '%' => some "%"
  | _ => none
where
  twelveHour (h : Int) : Int :=
    let h := if h > 12 then h - 12 else h
    if h = 0 then 12 else h

/-- The pieces of a `strftime` format: its text, and its directives written out. -/
def directives (m : Moment) : List Char → Option (List String)
  | [] => some []
  | '%' :: c :: rest => do
    let piece ← directive m c
    let more ← directives m rest
    some (piece :: more)
  | ['%'] => none
  | c :: rest => do
    let more ← directives m rest
    some (c.toString :: more)

/-- `date(value, modifier, ...)`: the date, `YYYY-MM-DD`. -/
def date (args : List Value) : Value :=
  match read args with
  | some m => .text (dateText m.withDate)
  | none => .null

/-- `time(value, modifier, ...)`: the time, `HH:MM:SS`. -/
def time (args : List Value) : Value :=
  match read args with
  | some m => .text (timeText m.withTime)
  | none => .null

/-- `datetime(value, modifier, ...)`: the date and time, `YYYY-MM-DD HH:MM:SS`. -/
def datetime (args : List Value) : Value :=
  match read args with
  | some m =>
    let m := m.withFields
    .text (dateText m ++ " " ++ timeText m)
  | none => .null

/-- `julianday(value, modifier, ...)`: the Julian day number, with its fraction. -/
def julianday (args : List Value) : Value :=
  match read args with
  | some m => .real (Float.ofInt m.ms / 86400000)
  | none => .null

/-- `unixepoch(value, modifier, ...)`: the seconds since 1970. -/
def unixepoch (args : List Value) : Value :=
  match read args with
  | some m => unixValue m
  | none => .null

/-- `strftime(format, value, modifier, ...)`: the moment written by the format. -/
def strftime (args : List Value) : Value :=
  match args with
  | [] => .null
  | format :: rest =>
    match format.toText?, read rest with
    | some f, some m =>
      match directives m.withFields f.toList with
      | some pieces => .text (String.join pieces)
      | none => .null
    | _, _ => .null

/-- Moves the later moment back a month at a time until it is not after `d1`, counting months. -/
def stepBack (d1 : Int) : Nat → Int → Int → Moment → Int × Int × Moment
  | 0, y, m, d2 => (y, m, d2)
  | fuel + 1, y, m, d2 =>
    if d1 < d2.ms then
      let (y, m) := if m - 1 < 0 then (y - 1, 11) else (y, m - 1)
      let (year, month) := if d2.month - 1 < 1 then (d2.year - 1, 12) else (d2.year, d2.month - 1)
      stepBack d1 fuel y m ({ d2 with year := year, month := month, hasMs := false } : Moment).withMs
    else (y, m, d2)

/-- Moves the earlier moment forward a month at a time until it is not before the later one. -/
def stepForward (d1 : Int) : Nat → Int → Int → Moment → Int × Int × Moment
  | 0, y, m, d2 => (y, m, d2)
  | fuel + 1, y, m, d2 =>
    if d1 > d2.ms then
      let (y, m) := if m - 1 < 0 then (y - 1, 11) else (y, m - 1)
      let (year, month) := if d2.month + 1 > 12 then (d2.year + 1, 1) else (d2.year, d2.month + 1)
      stepForward d1 fuel y m ({ d2 with year := year, month := month, hasMs := false } : Moment).withMs
    else (y, m, d2)

/-- `timediff(a, b)`: `a` from `b` as `±YYYY-MM-DD HH:MM:SS.SSS`, years and months in the calendar
first. -/
def timediff (args : List Value) : Value :=
  match args with
  | [a, b] =>
    match read [a], read [b] with
    | some d1, some d2 =>
      let d1 := d1.withFields
      let d2 := d2.withFields
      let again (d : Moment) : Moment := ({ d with hasMs := false } : Moment).withMs
      let later := decide (d1.ms ≥ d2.ms)
      let y := if later then d1.year - d2.year else d2.year - d1.year
      let d2 := if y != 0 then again { d2 with year := d1.year } else d2
      let m := if later then d1.month - d2.month else d2.month - d1.month
      let (y, m) := if m < 0 then (y - 1, m + 12) else (y, m)
      let d2 := if m != 0 then again { d2 with month := d1.month } else d2
      let (sign, y, m, rest) :=
        if later then
          let (y, m, d2) := stepBack d1.ms 100 y m d2
          ('+', y, m, d1.ms - d2.ms)
        else
          let (y, m, d2) := stepForward d1.ms 100 y m d2
          ('-', y, m, d2.ms - d1.ms)
      let r := ({ ms := rest + 148699540800000, hasMs := true } : Moment).withFields
      .text (formatted "%c%04d-%02d-%02d %02d:%02d:%06.3f"
        [.text sign.toString, .int y, .int m, .int (r.day - 1), .int r.hour, .int r.minute,
         .real r.second])
    | _, _ => .null
  | _ => .null

end Calendar
end Sql
end TreeHistory
