import Rowmap.Text.Whole

/-!
# Dates and times

Calendar dates, times of day and their combination, with an optional offset from universal time.
Each has its ISO 8601 text, by which it is read and inlined, and a longer printed form for messages.
Two moments with offsets are equal when they are the same instant.
-/

namespace Rowmap

/-- A day of the calendar. -/
structure Date where
  year : Nat
  month : Nat
  day : Nat
  deriving DecidableEq, Repr

/-- A time of day; the offset from universal time is in microseconds. -/
structure Clock where
  hour : Nat
  minute : Nat
  second : Nat
  micro : Nat
  offset : Option Int
  deriving DecidableEq, Repr

/-- A time of day on a day. -/
structure Moment where
  date : Date
  clock : Clock
  deriving DecidableEq, Repr

/-- A number with at least `width` digits. -/
def padded (width n : Nat) : String :=
  let ds := Nat.toDigits 10 n
  String.ofList (List.replicate (width - ds.length) '0' ++ ds)

/-- The number written by exactly `width` digits at the start of a text, and the rest. -/
def fixedDigits? (width : Nat) (cs : List Char) : Option (Nat × List Char) :=
  let ds := cs.take width
  if ds.length == width && ds.all Char.isDigit then some (Text.digitsValue ds, cs.drop width)
  else none

/-- The number written by two digits at the start of a text, after a separator if one is used, and
the rest. -/
def part? (separator : Option Char) (cs : List Char) : Option (Nat × List Char) :=
  match separator, cs with
  | none, cs => fixedDigits? 2 cs
  | some s, c :: rest => if c == s then fixedDigits? 2 rest else none
  | some _, [] => none

/-! ## Days -/

namespace Date

def isLeap (year : Nat) : Bool := (year % 4 == 0 && year % 100 != 0) || year % 400 == 0

def daysIn (year month : Nat) : Nat :=
  if month == 2 then if isLeap year then 29 else 28
  else if [4, 6, 9, 11].contains month then 30 else 31

/-- Whether the parts name a day of the years 1 to 9999. -/
def isValid (d : Date) : Bool :=
  1 ≤ d.year && d.year ≤ 9999 && 1 ≤ d.month && d.month ≤ 12 && 1 ≤ d.day &&
    d.day ≤ daysIn d.year d.month

/-- The days before a date since the start of year 1. -/
def ordinal (d : Date) : Nat :=
  let y := d.year - 1
  let months := (List.range (d.month - 1)).map fun m ↦ daysIn d.year (m + 1)
  y * 365 + y / 4 - y / 100 + y / 400 + months.foldr (· + ·) 0 + d.day

/-- A date at the start of a text, with hyphens or without, and the rest. -/
def read? (cs : List Char) : Option (Date × List Char) := do
  let (year, cs) ← fixedDigits? 4 cs
  let hyphen := cs.head?.filter (· == '-')
  let (month, cs) ← part? hyphen cs
  let (day, cs) ← part? hyphen cs
  let d : Date := ⟨year, month, day⟩
  if d.isValid then some (d, cs) else none

def ofText? (s : String) : Option Date :=
  match read? s.toList with
  | some (d, []) => some d
  | _ => none

def iso (d : Date) : String := padded 4 d.year ++ "-" ++ padded 2 d.month ++ "-" ++ padded 2 d.day

def printed (d : Date) : String :=
  "datetime.date(" ++ toString d.year ++ ", " ++ toString d.month ++ ", " ++ toString d.day ++ ")"

end Date

/-! ## Times of day -/

namespace Clock

def perSecond : Nat := 1000000

/-- The fraction at the start of a text, in microseconds, and the rest. Digits beyond the sixth are
dropped, and without a point there is no fraction. -/
def fraction? (cs : List Char) : Option (Nat × List Char) :=
  if cs.head? == some '.' || cs.head? == some ',' then
    let ds := cs.tail.takeWhile Char.isDigit
    if ds.isEmpty then none
    else
      some (Text.digitsValue ((ds ++ List.replicate 6 '0').take 6), cs.tail.dropWhile Char.isDigit)
  else some (0, cs)

/-- Hours, then minutes, seconds and a fraction where they are written, at the start of a text, with
colons or without. -/
def parts? (cs : List Char) : Option ((Nat × Nat × Nat × Nat) × List Char) := do
  let (hour, cs) ← fixedDigits? 2 cs
  let colon := cs.head?.filter (· == ':')
  let (minute, cs) := (part? colon cs).getD (0, cs)
  let (second, cs) := (part? colon cs).getD (0, cs)
  let (micro, cs) ← fraction? cs
  some ((hour, minute, second, micro), cs)

/-- The microseconds of hours, minutes, seconds and microseconds. -/
def total (h m s u : Nat) : Nat := ((h * 60 + m) * 60 + s) * perSecond + u

/-- An offset of hours, minutes, seconds and microseconds. One without whole seconds is none at all,
whatever its fraction. -/
def offsetOf (negative : Bool) (h m s u : Nat) : Int :=
  if h = 0 ∧ m = 0 ∧ s = 0 then 0 else Text.signed negative (total h m s u)

/-- The offset that ends a text: none, a `Z`, or a sign with hours and minutes. -/
def offset? : List Char → Option (Option Int)
  | [] => some none
  | ['Z'] => some (some 0)
  | c :: cs =>
    if c == '+' || c == '-' then
      match parts? cs with
      | some ((h, m, s, u), []) =>
        if total h m s u < total 24 0 0 0 then some (some (offsetOf (c == '-') h m s u)) else none
      | _ => none
    else none

/-- The time of day that a text writes. -/
def ofChars? (cs : List Char) : Option Clock := do
  let ((h, m, s, u), rest) ← parts? cs
  let offset ← offset? rest
  if h < 24 && m < 60 && s < 60 then some ⟨h, m, s, u, offset⟩ else none

/-- Seconds, and microseconds where there are any, after a colon. -/
def isoSeconds (s u : Nat) : String :=
  ":" ++ padded 2 s ++ (if u == 0 then "" else "." ++ padded 6 u)

def isoOffset (o : Int) : String :=
  let n := o.natAbs
  let s := n / perSecond
  (if o < 0 then "-" else "+") ++ padded 2 (s / 3600) ++ ":" ++ padded 2 (s / 60 % 60) ++
    (if s % 60 == 0 && n % perSecond == 0 then "" else isoSeconds (s % 60) (n % perSecond))

/-- The ISO text of a time of day. -/
def iso (t : Clock) : String :=
  padded 2 t.hour ++ ":" ++ padded 2 t.minute ++ isoSeconds t.second t.micro ++
    (match t.offset with | some o => isoOffset o | none => "")

/-- The microseconds since midnight, in universal time where an offset is given. -/
def instant (t : Clock) : Int := (total t.hour t.minute t.second t.micro : Int) - t.offset.getD 0

/-- The seconds since midnight, in universal time under an offset, whose fraction does not count. -/
def universalSeconds (t : Clock) (offset : Int) : Int :=
  (t.hour * 3600 + t.minute * 60 + t.second : Nat) - offset.fdiv perSecond

/-- Equality of times of day. Under one offset, or none, they are equal part by part; under two
offsets they are compared in universal time; a time without one differs from every time with one.
-/
def equal (a b : Clock) : Bool :=
  match a.offset, b.offset with
  | some x, some y =>
    if x = y then a == b
    else a.universalSeconds x == b.universalSeconds y && a.micro == b.micro
  | _, _ => a == b

/-- An offset in messages: whole days first, so that the rest is never negative. -/
def printedOffset (o : Int) : String :=
  if o == 0 then "datetime.timezone.utc"
  else
    let perDay : Int := 86400 * perSecond
    let days := o.fdiv perDay
    let rest := (o.fmod perDay).toNat
    let item (name : String) (n : Int) : List String :=
      if n == 0 then [] else [name ++ "=" ++ toString n]
    "datetime.timezone(datetime.timedelta(" ++ ", ".intercalate
      (item "days" days ++ item "seconds" (rest / perSecond : Nat) ++
        item "microseconds" (rest % perSecond : Nat)) ++ "))"

/-- The arguments after the hour in messages: seconds and microseconds only where they count. -/
def printedParts (t : Clock) : List String :=
  [toString t.hour, toString t.minute] ++
    (if t.micro != 0 then [toString t.second, toString t.micro]
      else if t.second != 0 then [toString t.second] else []) ++
    (match t.offset with | some o => ["tzinfo=" ++ printedOffset o] | none => [])

/-- A time of day in messages. -/
def printed (t : Clock) : String := "datetime.time(" ++ ", ".intercalate t.printedParts ++ ")"

end Clock

/-! ## Moments -/

namespace Moment

/-- The moment that a text writes: a date, one character, and a time; or a date alone. -/
def ofText? (s : String) : Option Moment := do
  let (date, rest) ← Date.read? s.toList
  match rest with
  | [] => some ⟨date, ⟨0, 0, 0, 0, none⟩⟩
  | _ :: cs => (Clock.ofChars? cs).map fun t ↦ ⟨date, t⟩

/-- The ISO text of a moment, with a separator between date and time. -/
def iso (separator : String) (m : Moment) : String := m.date.iso ++ separator ++ m.clock.iso

/-- The microseconds since the start of year 1, in universal time where an offset is given. -/
def instant (m : Moment) : Int := (m.date.ordinal * 86400 * Clock.perSecond : Nat) + m.clock.instant

/-- Equality of moments: as instants when both have an offset or neither has. -/
def equal (a b : Moment) : Bool :=
  a.clock.offset.isSome == b.clock.offset.isSome && a.instant == b.instant

def printed (m : Moment) : String :=
  let date := [toString m.date.year, toString m.date.month, toString m.date.day]
  "datetime.datetime(" ++ ", ".intercalate (date ++ m.clock.printedParts) ++ ")"

end Moment

end Rowmap
