import GoSieve.Unicode

/-!
# Dates: `time.Time`, date-parts and zone offsets

The part of `time` the date extension reads, and the date functions of the interpreter:
`extractDatePart`, `modifiedJulianDay` and `parseZoneOffset` (RFC 5260).

A `time.Time` is an instant and the offset of its zone. Its civil fields are those of the
proleptic Gregorian calendar at `unix + offset`; nanoseconds are left out, as no date-part
reads them. Go's integer division truncates towards zero; it is `Int.tdiv` here, while
`Int`'s `/` (Euclidean) only ever divides by a positive number below.
-/

namespace GoSieve

/-! ## `strconv` and `fmt` on integers -/

/-- The decimal digits of `n`. -/
def digitsOf (n : Nat) : Bytes := lit (toString n)

/-- `strconv.Itoa(x)` -/
def itoaInt (x : Int) : Bytes := if x < 0 then lit "-" ++ digitsOf x.natAbs else digitsOf x.natAbs

/-- `appendInt(b, x, width)` of package `time`: the sign, then the digits of `|x|` padded
with zeros to `width`. `fmt.Sprintf("%02d", n)` is the same for `n ≥ 0`. -/
def padInt (x : Int) (width : Nat) : Bytes :=
  let ds := digitsOf x.natAbs
  (if x < 0 then lit "-" else []) ++ List.replicate (width - ds.length) 48 ++ ds

/-- An ASCII digit `'0'`–`'9'`. -/
def isAsciiDigit (c : UInt8) : Bool := 48 ≤ c && c ≤ 57

/-- The value of a string of ASCII digits. -/
def digitsValue (s : Bytes) : Nat := s.foldl (fun n c => 10 * n + (c.toNat - 48)) 0

/-- `strconv.Atoi(s)`: an optional sign, then one or more digits, within `int`'s range. -/
def atoi (s : Bytes) : Option Int :=
  let (neg, ds) := match s with
    | 45 :: t => (true, t)
    | 43 :: t => (false, t)
    | t => (false, t)
  if ds.isEmpty || !ds.all isAsciiDigit then none
  else
    let v : Int := if neg then -(digitsValue ds : Int) else digitsValue ds
    if -2 ^ 63 ≤ v && v < 2 ^ 63 then some v else none

/-! ## The calendar -/

/-- The proleptic Gregorian date `(year, month, day)` of a day number, days counted from
1970-01-01. -/
def civilFromDays (z : Int) : Int × Nat × Nat :=
  let z := z + 719468
  let era := z / 146097
  let doe := z - era * 146097
  let yoe := (doe - doe / 1460 + doe / 36524 - doe / 146096) / 365
  let doy := doe - (365 * yoe + yoe / 4 - yoe / 100)
  let mp := (5 * doy + 2) / 153
  let d := doy - (153 * mp + 2) / 5 + 1
  let m := if mp < 10 then mp + 3 else mp - 9
  (if m ≤ 2 then yoe + era * 400 + 1 else yoe + era * 400, m.toNat, d.toNat)

/-- `time.Time`: an instant in seconds since 1970-01-01 UTC, and its zone's offset east of
UTC in seconds. -/
structure Time where
  unix : Int
  offset : Int
deriving DecidableEq, Repr

namespace Time

/-- The seconds since 1970-01-01 00:00 on the clock of the time's zone. -/
def wall (t : Time) : Int := t.unix + t.offset

def days (t : Time) : Int := t.wall / 86400

def secs (t : Time) : Int := t.wall % 86400

def year (t : Time) : Int := (civilFromDays t.days).1

def month (t : Time) : Nat := (civilFromDays t.days).2.1

def day (t : Time) : Nat := (civilFromDays t.days).2.2

def hour (t : Time) : Nat := (t.secs / 3600).toNat

def minute (t : Time) : Nat := (t.secs % 3600 / 60).toNat

def second (t : Time) : Nat := (t.secs % 60).toNat

/-- `t.Weekday()`, Sunday = 0: 1970-01-01 was a Thursday. -/
def weekday (t : Time) : Nat := ((t.days + 4) % 7).toNat

/-- `t.In(time.FixedZone("", offset))`: the same instant on another zone's clock. -/
def inZone (t : Time) (offset : Int) : Time := { t with offset := offset }

end Time

/-! ## Formatting -/

/-- The zone of layouts `-0700` (`colon = false`) and `-07:00` (`colon = true`): the sign,
then hours and minutes of the offset, seconds dropped. -/
def formatZone (offset : Int) (colon : Bool) : Bytes :=
  let zone := Int.tdiv offset 60
  let sign := if zone < 0 then lit "-" else lit "+"
  let z := zone.natAbs
  sign ++ padInt (z / 60 : Nat) 2 ++ (if colon then lit ":" else []) ++ padInt (z % 60 : Nat) 2

/-- `t.Format("2006-01-02")` -/
def formatDate (t : Time) : Bytes :=
  padInt t.year 4 ++ lit "-" ++ padInt t.month 2 ++ lit "-" ++ padInt t.day 2

/-- `t.Format("15:04:05")` -/
def formatTime (t : Time) : Bytes :=
  padInt t.hour 2 ++ lit ":" ++ padInt t.minute 2 ++ lit ":" ++ padInt t.second 2

def weekdayNames : List String := ["Sun", "Mon", "Tue", "Wed", "Thu", "Fri", "Sat"]

def monthNames : List String :=
  ["Jan", "Feb", "Mar", "Apr", "May", "Jun", "Jul", "Aug", "Sep", "Oct", "Nov", "Dec"]

/-- `t.Format(time.RFC1123Z)`, the layout `Mon, 02 Jan 2006 15:04:05 -0700`. -/
def formatRFC1123Z (t : Time) : Bytes :=
  lit (weekdayNames.getD t.weekday "") ++ lit ", " ++ padInt t.day 2 ++ lit " " ++
    lit (monthNames.getD (t.month - 1) "") ++ lit " " ++ padInt t.year 4 ++ lit " " ++
    formatTime t ++ lit " " ++ formatZone t.offset false

/-! ## The date functions of the interpreter -/

/-- `modifiedJulianDay`: the Julian Day Number of the civil date by the integer formula the
source cites, minus 2400001. -/
def modifiedJulianDay (t : Time) : Int :=
  let year := t.year
  let month : Int := t.month
  let day : Int := t.day
  let a := Int.tdiv (14 - month) 12
  let y := year + 4800 - a
  let m := month + 12 * a - 3
  let jdn := day + Int.tdiv (153 * m + 2) 5 + 365 * y + Int.tdiv y 4 - Int.tdiv y 100 +
    Int.tdiv y 400 - 32045
  jdn - 2400001

/-- `ValidDateParts` -/
def validDateParts : List Bytes :=
  ["year", "month", "day", "date", "julian", "hour", "minute", "second", "time", "iso8601",
   "std11", "zone", "weekday"].map lit

/-- `extractDatePart(t, part)`: the text of one RFC 5260 date-part, or the error for a name
that is none of them. -/
def extractDatePart (t : Time) (part : Bytes) : Except Bytes Bytes :=
  if part = lit "year" then .ok (itoaInt t.year)
  else if part = lit "month" then .ok (padInt t.month 2)
  else if part = lit "day" then .ok (padInt t.day 2)
  else if part = lit "date" then .ok (formatDate t)
  else if part = lit "julian" then .ok (itoaInt (modifiedJulianDay t))
  else if part = lit "hour" then .ok (padInt t.hour 2)
  else if part = lit "minute" then .ok (padInt t.minute 2)
  else if part = lit "second" then .ok (padInt t.second 2)
  else if part = lit "time" then .ok (formatTime t)
  else if part = lit "iso8601" then .ok (formatDate t ++ lit "T" ++ formatTime t ++ formatZone t.offset true)
  else if part = lit "std11" then .ok (formatRFC1123Z t)
  else if part = lit "zone" then .ok (formatZone t.offset false)
  else if part = lit "weekday" then .ok (itoaInt t.weekday)
  else .error (lit "unknown date-part: " ++ part)

/-- `parseZoneOffset(zone)`: a zone `+HHMM`/`-HHMM` to its offset in seconds. The hours and
minutes are read by `strconv.Atoi`. -/
def parseZoneOffset (zone : Bytes) : Except Bytes Int :=
  if zone.length ≠ 5 then .error (lit "invalid zone format: " ++ zone)
  else
    let sign : Option Int :=
      if zone.head? = some 45 then some (-1) else if zone.head? = some 43 then some 1 else none
    match sign with
    | none => .error (lit "invalid zone format: " ++ zone)
    | some sign =>
      match atoi ((zone.drop 1).take 2) with
      | none => .error (lit "invalid zone hours: " ++ zone)
      | some hours =>
        match atoi (zone.drop 3) with
        | none => .error (lit "invalid zone minutes: " ++ zone)
        | some minutes => .ok (sign * (hours * 3600 + minutes * 60))

end GoSieve
