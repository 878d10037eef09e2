/-!
# Instants

An instant is a count of nanoseconds since 1970-01-01 00:00:00 UTC, and reads as
a date of the proleptic Gregorian calendar and a time of day, in UTC. It is
written either as `2006-01-02 15:04:05.5 +0000 UTC` or, in documents, as
`2006-01-02T15:04:05.5Z`; the fraction of a second keeps only its significant
digits and is left out when it is zero.
-/

namespace StackLink.Instant

/-- A calendar date and time of day. -/
structure Civil where
  year : Int
  month : Nat
  day : Nat
  hour : Nat
  minute : Nat
  second : Nat
  nanos : Nat
  deriving DecidableEq, Repr

/-- The date a count of days since 1970-01-01 falls on: year, month and day. The count of
days is split into eras of 400 years, which all have 146097 days, and each era into years
starting on the first of March, so that the leap day ends a year. -/
def dateOfDays (z : Int) : Int × Nat × Nat :=
  let z := z + 719468
  let era := z / 146097
  let doe := z % 146097
  let yoe := (doe - doe / 1460 + doe / 36524 - doe / 146096) / 365
  let doy := doe - (365 * yoe + yoe / 4 - yoe / 100)
  let mp := (5 * doy + 2) / 153
  let d := doy - (153 * mp + 2) / 5 + 1
  let m := if mp < 10 then mp + 3 else mp - 9
  (yoe + era * 400 + (if m ≤ 2 then 1 else 0), m.toNat, d.toNat)

/-- The calendar reading of an instant. -/
def civil (ns : Int) : Civil :=
  let secs := ns / 1000000000
  let days := secs / 86400
  let sod := (secs % 86400).toNat
  let (y, m, d) := dateOfDays days
  ⟨y, m, d, sod / 3600, sod % 3600 / 60, sod % 60, (ns % 1000000000).toNat⟩

/-- A number in decimal, padded with zeros to `width` digits. -/
def pad (width n : Nat) : String :=
  let s := toString n
  String.ofList (List.replicate (width - s.length) '0') ++ s

/-- The year in at least four digits, with a minus sign before the year zero. -/
def yearText (y : Int) : String :=
  if y < 0 then "-" ++ pad 4 y.natAbs else pad 4 y.toNat

/-- The fraction of a second after a point, without trailing zeros; nothing when zero. -/
def fraction (nanos : Nat) : String :=
  if nanos = 0 then ""
  else "." ++ String.ofList ((pad 9 nanos).toList.reverse.dropWhile (· = '0')).reverse

/-- The date, then the time of day with its significant fraction, split by `sep`. -/
def stamp (sep : String) (ns : Int) : String :=
  let c := civil ns
  s!"{yearText c.year}-{pad 2 c.month}-{pad 2 c.day}{sep}{pad 2 c.hour}:{pad 2 c.minute}:{pad 2 c.second}" ++
    fraction c.nanos

/-- An instant as text: date, time and the UTC zone. -/
def text (ns : Int) : String := stamp " " ns ++ " +0000 UTC"

/-- An instant as a document writes it: date, `T`, time and `Z`. -/
def document (ns : Int) : String := stamp "T" ns ++ "Z"

end StackLink.Instant
