import TreeHistory.Date.Civil

/-!
# RFC 3339 timestamps

Reading (`parse`) and writing (`format`) timestamps of the form `2024-01-02T03:04:05.5+01:00`,
as nanoseconds since 1970-01-01T00:00:00Z. A leap second 60 is read as the last nanosecond of
second 59 when it ends a month in UTC. Writing gives the UTC form with `Z`, with a fraction only
when it is not zero.
-/

namespace TreeHistory
namespace Date

/-- Nanoseconds in a second. -/
def nanosPerSecond : Int := 1000000000

/-- Exactly `n` ASCII digits and their value. -/
def digits : Nat → List Char → Option (Nat × List Char)
  | 0, cs => some (0, cs)
  | n + 1, c :: rest =>
    if c.isDigit then
      (digits n rest).map fun (value, after) => ((c.toNat - 48) * Nat.pow 10 n + value, after)
    else none
  | _ + 1, [] => none

/-- The given character, then the rest. -/
def expect (c : Char) : List Char → Option (List Char)
  | d :: rest => if d = c then some rest else none
  | [] => none

/-- The nanoseconds of the digits of a fraction: the first nine count. -/
def fractionNanos (ds : List Char) : Nat :=
  let nine := (ds.take 9) ++ List.replicate (9 - min 9 ds.length) '0'
  nine.foldl (fun acc d => acc * 10 + (d.toNat - 48)) 0

/-- An optional fraction: its nanoseconds and the rest. -/
def fraction : List Char → Option (Nat × List Char)
  | '.' :: rest =>
    let (ds, after) := rest.span Char.isDigit
    if ds.isEmpty then none else some (fractionNanos ds, after)
  | cs => some (0, cs)

/-- The offset from UTC, in minutes, and the rest. -/
def offset : List Char → Option (Int × List Char)
  | c :: rest =>
    if c = 'Z' ∨ c = 'z' then some (0, rest)
    else if c = '+' ∨ c = '-' then do
      let (hours, rest) ← digits 2 rest
      if hours > 23 then none
      let rest ← expect ':' rest
      let (minutes, rest) ← digits 2 rest
      if minutes > 59 then none
      let total : Int := hours * 60 + minutes
      pure (if c = '-' then -total else total, rest)
    else none
  | [] => none

/-- Nanoseconds since the epoch of a UTC date and time of day. -/
def toNanos (year : Int) (month day hour minute second nanos : Nat) (offsetMinutes : Int) : Int :=
  ((daysFromCivil year month day * 86400 + hour * 3600 + minute * 60 + second) -
    offsetMinutes * 60) * nanosPerSecond + nanos

/-- Whether an instant is the last nanosecond of the last second of a month in UTC. -/
def isLastNanoOfMonth (instant : Int) : Bool :=
  let seconds := instant / nanosPerSecond
  let days := seconds / 86400
  let (year, month, day) := civilFromDays days
  instant % nanosPerSecond == nanosPerSecond - 1 && seconds % 86400 == 86399 &&
    day == daysInMonth year month

/-- Reads a timestamp as nanoseconds since the epoch. -/
def parse (text : String) : Option Int := do
  let cs := text.toList
  let (year, cs) ← digits 4 cs
  let cs ← expect '-' cs
  let (month, cs) ← digits 2 cs
  let cs ← expect '-' cs
  let (day, cs) ← digits 2 cs
  let cs ← match cs with
    | separator :: rest => if separator.toNat < 128 then some rest else none
    | [] => none
  let (hour, cs) ← digits 2 cs
  let cs ← expect ':' cs
  let (minute, cs) ← digits 2 cs
  let cs ← expect ':' cs
  let (second, cs) ← digits 2 cs
  let (nanos, cs) ← fraction cs
  let (offsetMinutes, cs) ← offset cs
  if !cs.isEmpty then none
  let leap := second == 60
  let (second, nanos) := if leap then (59, 999999999) else (second, nanos)
  if month < 1 ∨ month > 12 ∨ day < 1 ∨ day > daysInMonth year month then none
  if hour > 23 ∨ minute > 59 ∨ second > 59 then none
  let instant := toNanos year month day hour minute second nanos offsetMinutes
  if leap && !isLastNanoOfMonth instant then none
  pure instant

/-- A number written with at least `width` digits, zeros in front. -/
def padded (width n : Nat) : String :=
  let text := toString n
  String.ofList (List.replicate (width - text.length) '0') ++ text

/-- The digits of a fraction of a second, without trailing zeros. -/
def fractionText (nanos : Nat) : String :=
  String.ofList ((padded 9 nanos).toList.reverse.dropWhile (· = '0')).reverse

/-- The UTC timestamp of an instant given in nanoseconds since the epoch, if its year lies
within 0 to 9999. -/
def format (instant : Int) : Option String :=
  let seconds := instant / nanosPerSecond
  let nanos := (instant - seconds * nanosPerSecond).toNat
  let days := seconds / 86400
  let secondOfDay := (seconds - days * 86400).toNat
  let (year, month, day) := civilFromDays days
  if year < 0 ∨ year > 9999 then none
  else
    let time := padded 2 (secondOfDay / 3600) ++ ":" ++ padded 2 (secondOfDay / 60 % 60) ++ ":" ++
      padded 2 (secondOfDay % 60)
    let fractionPart := if nanos = 0 then "" else "." ++ fractionText nanos
    some (padded 4 year.toNat ++ "-" ++ padded 2 month ++ "-" ++ padded 2 day ++ "T" ++ time ++
      fractionPart ++ "Z")

end Date
end TreeHistory
