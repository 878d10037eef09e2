/-!
# Durations

A duration is a signed count of nanoseconds that fits 64 bits. Its text is a
sequence of decimal numbers, each with an optional fraction and a unit (`ns`,
`us` or `µs`, `ms`, `s`, `m`, `h`), the whole with an optional sign: `250ms`,
`1h2m3.5s`, `-1.5s`; `0` alone needs no unit. A fraction is scaled to the unit
in double precision and truncated, so `1.0000000001s` is one second.

Printed, a duration is `0s`; below a second it uses the largest of `ns`, `µs`
and `ms` that keeps the integer part non-zero, with the fraction's trailing
zeros dropped (`1.5ms`); from a second on it is hours, minutes and seconds with
the leading zero parts left out (`1h2m3.5s`, `5m0s`).
-/

namespace StackLink

/-- A span of time in nanoseconds. -/
structure Duration where
  nanos : Int
  deriving DecidableEq, Repr

namespace Duration

/-- The largest magnitude of a duration, `2^63` (reached by the negative bound only). -/
def limit : Nat := Nat.pow 2 63

/-- The units a duration may be written in, with their length in nanoseconds. -/
def units : List (String × Nat) :=
  [("ns", 1), ("us", 1000), ("µs", 1000), ("μs", 1000), ("ms", 1000000),
   ("s", 1000000000), ("m", 60000000000), ("h", 3600000000000)]

/-- Text quoted for an error: a quote or backslash is escaped, and every byte of a control
or non-ASCII character is written as `\xNN`. -/
def quote (s : String) : String :=
  let hex (n : Nat) : String :=
    String.ofList ['\\', 'x', "0123456789abcdef".toList.getD (n / 16) '0',
      "0123456789abcdef".toList.getD (n % 16) '0']
  let body := s.toList.foldl (fun acc c =>
    if c.toNat ≥ 0x80 || c.toNat < 0x20 then
      acc ++ String.join ((String.singleton c).toUTF8.toList.map fun b => hex b.toNat)
    else if c = '"' || c = '\\' then acc.push '\\' |>.push c
    else acc.push c) ""
  "\"" ++ body ++ "\""

/-- Why a text is not a duration. -/
inductive ParseError where
  | invalid (text : String)
  | missingUnit (text : String)
  | unknownUnit (unit text : String)
  deriving DecidableEq, Repr

/-- The error's text. -/
def ParseError.message : ParseError → String
  | .invalid t => "time: invalid duration " ++ quote t
  | .missingUnit t => "time: missing unit in duration " ++ quote t
  | .unknownUnit u t => "time: unknown unit " ++ quote u ++ " in duration " ++ quote t

/-- The leading decimal digits as a number, or none when it passes `2^63`. -/
def leadingInt (cs : List Char) : Option (Nat × List Char) :=
  let ds := cs.takeWhile Char.isDigit
  let v := ds.foldl (fun acc c => acc.bind fun x =>
    if x > limit / 10 then none
    else let y := x * 10 + (c.toNat - 48); if y > limit then none else some y) (some 0)
  v.map (·, cs.dropWhile Char.isDigit)

/-- The digits of a fraction: their value and the power of ten they are scaled by, both
frozen once another digit would pass `2^63`. -/
def leadingFraction (cs : List Char) : Nat × Float × List Char :=
  let ds := cs.takeWhile Char.isDigit
  let (x, scale, _) := ds.foldl (fun (x, scale, frozen) c =>
    if frozen then (x, scale, true)
    else if x > (limit - 1) / 10 then (x, scale, true)
    else
      let y := x * 10 + (c.toNat - 48)
      if y > limit then (x, scale, true) else (y, scale * 10, false)) (0, (1 : Float), false)
  (x, scale, cs.dropWhile Char.isDigit)

/-- Reads the terms of a duration after its sign, adding their nanoseconds to `total`. -/
def terms (whole : String) : Nat → List Char → Nat → Except ParseError Nat
  | 0, _, total => .ok total
  | _, [], total => .ok total
  | fuel + 1, s@(c :: _), total => do
    if !(c = '.' || c.isDigit) then throw (.invalid whole)
    let some (v, s') := leadingInt s | throw (.invalid whole)
    let pre := s'.length != s.length
    let (f, scale, post, s'') := match s' with
      | '.' :: r => let (f, scale, r') := leadingFraction r; (f, scale, r'.length != r.length, r')
      | r => (0, (1 : Float), false, r)
    if !pre && !post then throw (.invalid whole)
    let unitChars := s''.takeWhile fun c => !(c = '.' || c.isDigit)
    if unitChars.isEmpty then throw (.missingUnit whole)
    let u := String.ofList unitChars
    let rest := s''.drop unitChars.length
    let some (_, unit) := units.find? (·.1 == u) | throw (.unknownUnit u whole)
    if v > limit / unit then throw (.invalid whole)
    let v := v * unit
    let v := if f > 0 then v + (Float.ofNat f * (Float.ofNat unit / scale)).toUInt64.toNat else v
    if v > limit then throw (.invalid whole)
    let total := total + v
    if total > limit then throw (.invalid whole)
    terms whole fuel rest total

/-- Reads a duration. -/
def parse (s : String) : Except ParseError Duration := do
  let cs := s.toList
  let (neg, body) := match cs with
    | '-' :: r => (true, r)
    | '+' :: r => (false, r)
    | r => (false, r)
  if body = ['0'] then return ⟨0⟩
  if body.isEmpty then throw (.invalid s)
  let d ← terms s body.length body 0
  if neg then return ⟨-(d : Int)⟩
  if d > limit - 1 then throw (.invalid s)
  return ⟨d⟩

/-- The digits of `v / 10^prec` after the point, trailing zeros and then the point itself
dropped, and the integer part. -/
def fraction (v prec : Nat) : String × Nat :=
  let digits := (List.range prec).map fun i => (v / Nat.pow 10 i) % 10
  let kept := digits.dropWhile (· == 0)
  let text := String.ofList (kept.reverse.map fun d => Char.ofNat (48 + d))
  ((if text.isEmpty then "" else "." ++ text), v / Nat.pow 10 prec)

/-- The text of a duration. -/
def toText (d : Duration) : String :=
  let u := d.nanos.natAbs
  let sign := if d.nanos < 0 then "-" else ""
  if u = 0 then "0s"
  else if u < 1000000000 then
    let (prec, unit) :=
      if u < 1000 then (0, "ns") else if u < 1000000 then (3, "µs") else (6, "ms")
    let (frac, whole) := fraction u prec
    sign ++ toString whole ++ frac ++ unit
  else
    let (frac, secs) := fraction u 9
    let mins := secs / 60
    let hours := mins / 60
    let text :=
      if mins = 0 then toString (secs % 60) ++ frac ++ "s"
      else if hours = 0 then toString (mins % 60) ++ "m" ++ toString (secs % 60) ++ frac ++ "s"
      else toString hours ++ "h" ++ toString (mins % 60) ++ "m" ++ toString (secs % 60) ++ frac ++ "s"
    sign ++ text

end Duration

end StackLink
