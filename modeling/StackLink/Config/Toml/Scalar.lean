import StackLink.Config.Toml.Value
/-!
# TOML numbers and dates

The reader first takes the longest run of characters that can belong to a number
or date, then checks it here. An integer is decimal, or hexadecimal, octal or
binary after `0x`, `0o` or `0b`; an underscore must stand between two digits, a
decimal integer has no leading zero, and the value must fit 64 signed bits. A
float follows the same underscore and leading-zero rules, needs a digit after
each point, and must be finite unless written `inf` or `nan`. A date-time is
`yyyy-mm-ddThh:mm:ss` with an optional fraction and a zone `Z` or `±hh:mm`, or
the same without a zone, or only the date, or only the time; a space or a lower
case `t` may stand for the `T`.
-/

namespace StackLink.Toml.Scalar

/-- Hexadecimal digits, which include every character an underscore may stand between. -/
def isHex (c : Char) : Bool := c.isDigit || ('a' ≤ c && c ≤ 'f') || ('A' ≤ c && c ≤ 'F')

/-- Whether every underscore stands between two characters that are not underscores and the
text does not end in one. -/
def underscoresOk (s : String) : Bool :=
  if ["nan", "+nan", "-nan", "inf", "-inf", "+inf"].contains s then true
  else
    let (ok, accept) := s.toList.foldl (fun (ok, accept) c =>
      (ok && (c ≠ '_' || accept), isHex c)) (true, false)
    ok && accept

/-- Whether a number starts with a superfluous zero (`0` itself, a signed `0` and base
prefixes aside). -/
def hasLeadingZero (s : String) : Bool :=
  match s.toList with
  | '0' :: c :: _ => !(c = 'b' || c = 'o' || c = 'x')
  | s0 :: '0' :: _ :: _ => s0 = '-' || s0 = '+'
  | _ => false

/-- Whether every point is followed by a digit. -/
def periodsOk (s : String) : Bool :=
  let (ok, period) := s.toList.foldl (fun (ok, period) c =>
    (ok && (!period || c.isDigit), c = '.')) (true, false)
  ok && !period

/-- The value of digits in a base, underscores skipped. -/
def digitsValue (base : Nat) (cs : List Char) : Nat :=
  cs.foldl (fun acc c =>
    if c = '_' then acc
    else
      let d := if c.isDigit then c.toNat - 48
        else if 'a' ≤ c ∧ c ≤ 'f' then c.toNat - 87 else c.toNat - 55
      acc * base + d) 0

/-- Reads an integer token. -/
def integer (tok : String) : Except String Int :=
  if !underscoresOk tok then
    .error s!"Invalid integer {Quote.text tok}: underscores must be surrounded by digits"
  else if hasLeadingZero tok then
    .error s!"Invalid integer {Quote.text tok}: cannot have leading zeroes"
  else
    let v : Int := match tok.toList with
      | '0' :: 'x' :: ds => digitsValue 16 ds
      | '0' :: 'o' :: ds => digitsValue 8 ds
      | '0' :: 'b' :: ds => digitsValue 2 ds
      | '-' :: ds => -(digitsValue 10 ds : Int)
      | '+' :: ds => digitsValue 10 ds
      | ds => digitsValue 10 ds
    if v < -(Nat.pow 2 63) ∨ v ≥ Nat.pow 2 63 then .error s!"{tok} is out of range for int64" else .ok v

/-- The least value a double cannot hold: above it every decimal rounds to infinity. -/
def overflowBound : Nat := Nat.pow 2 1024 - Nat.pow 2 970

/-- Whether `m · 10^e` is too large for a double. -/
def exceedsDouble (m : Nat) (e : Int) : Bool :=
  if m = 0 then false
  else
    let k : Int := (Nat.toDigits 10 m).length
    if k + e ≤ 308 then false
    else if k + e ≥ 310 then true
    else if 0 ≤ e then decide (overflowBound ≤ m * Nat.pow 10 e.toNat)
    else decide (overflowBound * Nat.pow 10 (-e).toNat ≤ m)

/-- A decimal's digits and exponent when the text is a decimal float (`1`, `1.5`, `.5`, `1.`,
`1e5`, each with an optional sign), none otherwise. -/
def decimal? (cs : List Char) : Option (Nat × Int) :=
  let cs := match cs with | '-' :: r => r | '+' :: r => r | r => r
  let whole := cs.takeWhile Char.isDigit
  let r := cs.dropWhile Char.isDigit
  let (frac, r) := match r with
    | '.' :: r' => (r'.takeWhile Char.isDigit, r'.dropWhile Char.isDigit)
    | r' => ([], r')
  if whole.isEmpty && frac.isEmpty then none
  else
    let exp? : Option Int := match r with
      | [] => some 0
      | e :: rest =>
        if e = 'e' ∨ e = 'E' then
          let (neg, ds) := match rest with
            | '-' :: ds => (true, ds) | '+' :: ds => (false, ds) | ds => (false, ds)
          if ds.isEmpty || !ds.all Char.isDigit then none
          else let n : Int := digitsValue 10 ds; some (if neg then -n else n)
        else none
    exp?.map fun e => (digitsValue 10 (whole ++ frac), e - frac.length)

/-- Whether text names an infinity or not-a-number, in any case, with an optional sign. -/
def isSpecialFloat (s : String) : Bool :=
  let body := match s.toList with | '-' :: r => r | '+' :: r => r | r => r
  ["inf", "infinity", "nan"].contains (String.ofList body).toLower

/-- Reads a float token, giving its text without underscores. -/
def float (tok : String) : Except String String :=
  let parts := (tok.split fun (c : Char) => c = '.' || c = 'e' || c = 'E').toList.map (·.toString)
    |>.filter (!·.isEmpty)
  if !parts.all underscoresOk then
    .error s!"Invalid float {Quote.text tok}: underscores must be surrounded by digits"
  else if parts.head?.any hasLeadingZero then
    .error s!"Invalid float {Quote.text tok}: cannot have leading zeroes"
  else if !periodsOk tok then
    .error s!"Invalid float {Quote.text tok}: '.' must be followed by one or more digits"
  else
    let v := String.ofList (tok.toList.filter (· ≠ '_'))
    if isSpecialFloat v then .ok v
    else match decimal? v.toList with
      | some (m, e) => if exceedsDouble m e then .error s!"{tok} is out of range for float64" else .ok v
      | none => .error s!"Invalid float value: {Quote.text tok}"

/-- Exactly two digits and their value. -/
def twoDigits : List Char → Option (Nat × List Char)
  | a :: b :: rest => if a.isDigit && b.isDigit then some ((a.toNat - 48) * 10 + (b.toNat - 48), rest) else none
  | _ => none

/-- The days of a month. -/
def daysIn (year month : Nat) : Nat :=
  if month = 2 then (if year % 4 = 0 ∧ (year % 100 ≠ 0 ∨ year % 400 = 0) then 29 else 28)
  else if month = 4 ∨ month = 6 ∨ month = 9 ∨ month = 11 then 30 else 31

/-- A date `yyyy-mm-dd` and what follows it. -/
def date? (cs : List Char) : Option (List Char) := do
  let (y1, r) ← twoDigits cs
  let (y2, r) ← twoDigits r
  let r ← match r with | '-' :: r => some r | _ => none
  let (m, r) ← twoDigits r
  let r ← match r with | '-' :: r => some r | _ => none
  let (d, r) ← twoDigits r
  let year := y1 * 100 + y2
  if 1 ≤ m ∧ m ≤ 12 ∧ 1 ≤ d ∧ d ≤ daysIn year m then some r else none

/-- A time `hh:mm:ss` with an optional fraction, and what follows it. -/
def time? (cs : List Char) : Option (List Char) := do
  let (h, r) ← twoDigits cs
  let r ← match r with | ':' :: r => some r | _ => none
  let (m, r) ← twoDigits r
  let r ← match r with | ':' :: r => some r | _ => none
  let (s, r) ← twoDigits r
  let r := match r with
    | p :: d :: rest => if (p = '.' ∨ p = ',') ∧ d.isDigit then rest.dropWhile Char.isDigit else p :: d :: rest
    | r => r
  if h < 24 ∧ m < 60 ∧ s < 60 then some r else none

/-- A zone `Z` or `±hh:mm` that ends the text. -/
def isZone : List Char → Bool
  | ['Z'] => true
  | [s, h1, h2, ':', m1, m2] =>
    (s = '+' || s = '-') && [h1, h2, m1, m2].all Char.isDigit &&
      (h1.toNat - 48) * 10 + (h2.toNat - 48) ≤ 24 && (m1.toNat - 48) * 10 + (m2.toNat - 48) ≤ 60
  | _ => false

/-- A date-time token with its separator and zone letter normalized. -/
def normalize (tok : String) : String :=
  String.ofList (tok.toList.map fun c => if c = 't' ∨ c = ' ' then 'T' else if c = 'z' then 'Z' else c)

/-- Reads a date-time token, giving its normalized text. -/
def datetime (tok : String) : Except String String :=
  let v := normalize tok
  let cs := v.toList
  let ok : Bool := match date? cs with
    | some [] => true
    | some ('T' :: r) => (time? r).any fun z => z.isEmpty || isZone z
    | _ => (time? cs).any List.isEmpty
  if ok then .ok v else .error s!"invalid datetime: {Quote.text v}"

end StackLink.Toml.Scalar
