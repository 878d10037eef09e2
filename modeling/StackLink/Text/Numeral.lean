import StackLink.Text.Quote

/-!
# Numerals

Integers as a user types them on a command line: decimal, or with a base prefix
`0x`, `0o`, `0b`, or a bare leading `0` for octal. With a prefix, underscores may
separate digits; each one must stand between two digits (the prefix counts as
one). A signed numeral may start with `+` or `-`. A value that does not fit the
requested width is out of range; the reading stops at the first digit that
makes it so, before any later fault is seen.

Truth values are `1 t T TRUE true True` and `0 f F FALSE false False`.
-/

namespace StackLink.Numeral

/-- What is wrong with a numeral. -/
inductive Fault where
  | malformed
  | range
  deriving DecidableEq, Repr

/-- A numeral that could not be read: the reader, the text and the fault. -/
structure NumError where
  reader : String
  text : String
  fault : Fault
  deriving DecidableEq, Repr

/-- The error's text. -/
def NumError.message (e : NumError) : String :=
  "strconv." ++ e.reader ++ ": parsing " ++ Quote.text e.text ++ ": " ++
    match e.fault with
    | .malformed => "invalid syntax"
    | .range => "value out of range"

/-- The base a numeral is written in and its digits: a prefix picks 2, 8 or 16, a bare
leading zero 8, and anything else is decimal. -/
def baseOf : List Char → Nat × List Char
  | '0' :: c :: d :: rest =>
    let l := c.toLower
    if l = 'b' then (2, d :: rest) else if l = 'o' then (8, d :: rest)
    else if l = 'x' then (16, d :: rest) else (8, c :: d :: rest)
  | '0' :: rest => (8, rest)
  | cs => (10, cs)

/-- The value of a digit in any base up to 36. -/
def digitValue? (c : Char) : Option Nat :=
  let l := c.toLower
  if c.isDigit then some (c.toNat - '0'.toNat)
  else if 'a' ≤ l ∧ l ≤ 'z' then some (l.toNat - 'a'.toNat + 10)
  else none

/-- Whether the underscores of a body of digits stand only between digits, given what
came before it: `0` for a digit or prefix, `_` for an underscore, `!` for anything else. -/
def separated (hex : Bool) : Char → List Char → Bool
  | saw, [] => saw ≠ '_'
  | saw, c :: cs =>
    if c.isDigit ∨ (hex ∧ 'a' ≤ c.toLower ∧ c.toLower ≤ 'f') then separated hex '0' cs
    else if c = '_' then saw = '0' && separated hex '_' cs
    else saw ≠ '_' && separated hex '!' cs

/-- Whether the underscores of a numeral stand only between digits. -/
def underscoresOk (s : List Char) : Bool :=
  let s := match s with | '+' :: r | '-' :: r => r | r => r
  match s with
  | '0' :: c :: rest =>
    let l := c.toLower
    if l = 'b' ∨ l = 'o' ∨ l = 'x' then separated (l = 'x') '0' rest else separated false '^' s
  | _ => separated false '^' s

/-- The digits read in a base, up to a largest value: the value, or the first fault. -/
def digits (base maxVal : Nat) (prefixed : Bool) : List Char → Nat → Except Fault Nat
  | [], n => .ok n
  | c :: cs, n =>
    if c = '_' ∧ prefixed then digits base maxVal prefixed cs n
    else match digitValue? c with
      | none => .error .malformed
      | some d =>
        if d ≥ base then .error .malformed
        else if n * base + d > maxVal then .error .range
        else digits base maxVal prefixed cs (n * base + d)

/-- Reads an unsigned numeral of at most `bits` bits, its base given by its prefix. -/
def unsigned (s : String) (bits : Nat) : Except NumError Nat :=
  let fail := fun f => Except.error (NumError.mk "ParseUint" s f)
  if s.isEmpty then fail .malformed
  else
    let (base, ds) := baseOf s.toList
    match digits base (Nat.pow 2 bits - 1) true ds 0 with
    | .error f => fail f
    | .ok n =>
      if s.toList.contains '_' && !underscoresOk s.toList then fail .malformed else .ok n

/-- Reads a signed numeral of at most `bits` bits, its base given by its prefix. -/
def signed (s : String) (bits : Nat) : Except NumError Int :=
  let fail := fun f => Except.error (NumError.mk "ParseInt" s f)
  let (neg, rest) : Bool × String := match s.toList with
    | '+' :: r => (false, String.ofList r)
    | '-' :: r => (true, String.ofList r)
    | _ => (false, s)
  if s.isEmpty then fail .malformed
  else match unsigned rest bits with
    | .error e => fail e.fault
    | .ok n =>
      let cutoff := Nat.pow 2 (bits - 1)
      if !neg && n ≥ cutoff then fail .range
      else if neg && n > cutoff then fail .range
      else .ok (if neg then -(n : Int) else n)

/-- Reads a truth value. -/
def truth (s : String) : Except NumError Bool :=
  if ["1", "t", "T", "TRUE", "true", "True"].contains s then .ok true
  else if ["0", "f", "F", "FALSE", "false", "False"].contains s then .ok false
  else .error ⟨"ParseBool", s, .malformed⟩

end StackLink.Numeral
