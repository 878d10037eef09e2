/-!
# Network addresses

A TCP address is written `host:port`, the host in brackets when it holds colons
itself (`[::1]:80`). The port after the last colon is a decimal number, with an
optional sign, or a service name looked up in a small table of well-known TCP
services. Reading one fails with the first fault found, in this order: no
colon, a bracket not closed, a colon or bracket out of place, an unknown service
name, a number outside `0 … 65535`.

An empty port means port 0, and a number too long to read is clamped, so that it
is reported as out of range rather than as unreadable.
-/

namespace StackLink.Address

/-- Why an address could not be read. -/
inductive AddressError where
  /-- The text is not a `host:port` pair: the address and what is wrong with it. -/
  | malformed (addr why : String)
  /-- The port is a name that no service has. -/
  | unknownPort (network service : String)
  /-- The port is a number outside `0 … 65535`. -/
  | invalidPort (service : String)
  deriving DecidableEq, Repr

/-- The error's text. -/
def AddressError.message : AddressError → String
  | .malformed a why => if a.isEmpty then why else s!"address {a}: {why}"
  | .unknownPort n s => s!"lookup {n}/{s}: unknown port"
  | .invalidPort s => s!"address {s}: invalid port"

/-- The index of the last `c` in a list. -/
def lastIndex? (cs : List Char) (c : Char) : Option Nat :=
  (cs.zipIdx.filter (·.1 == c)).getLast?.map (·.2)

/-- The index of the first `c` in a list. -/
def firstIndex? (cs : List Char) (c : Char) : Option Nat :=
  (cs.zipIdx.find? (·.1 == c)).map (·.2)

/-- Fails reading an address for a reason. -/
def fault {α : Type} (addr why : String) : Except AddressError α := .error (.malformed addr why)

/-- Splits `host:port` into its host, without brackets, and its port. -/
def split (hostport : String) : Except AddressError (String × String) :=
  let cs := hostport.toList
  match lastIndex? cs ':' with
  | none => fault hostport "missing port in address"
  | some i =>
    let checked : Except AddressError (String × Nat × Nat) :=
      if cs.head? = some '[' then
        match firstIndex? cs ']' with
        | none => fault hostport "missing ']' in address"
        | some e =>
          if e + 1 = cs.length then fault hostport "missing port in address"
          else if e + 1 = i then .ok (String.ofList ((cs.take e).drop 1), 1, e + 1)
          else if cs.getD (e + 1) ' ' = ':' then fault hostport "too many colons in address"
          else fault hostport "missing port in address"
      else
        let host := cs.take i
        if host.contains ':' then fault hostport "too many colons in address"
        else .ok (String.ofList host, 0, 0)
    match checked with
    | .error e => .error e
    | .ok (host, j, k) =>
      if (cs.drop j).contains '[' then fault hostport "unexpected '[' in address"
      else if (cs.drop k).contains ']' then fault hostport "unexpected ']' in address"
      else .ok (host, String.ofList (cs.drop (i + 1)))

/-- The value of a run of decimal digits, clamped: once it reaches `2^30` the reading
stops at `2^32 - 1`. A character that is not a digit makes it a name instead. -/
def digitsValue : List Char → Nat → Option Nat
  | [], n => some n
  | d :: ds, n =>
    if d.isDigit then
      if n ≥ Nat.pow 2 30 then (if ds.all Char.isDigit then some (Nat.pow 2 32 - 1) else none)
      else digitsValue ds (10 * n + (d.toNat - '0'.toNat))
    else none

/-- A port written as a number: its value, clamped to `2^30 - 1` above and `-2^30` below,
or `none` when it is a name. The empty port is 0. -/
def number? (service : String) : Option Int :=
  match service.toList with
  | [] => some 0
  | '+' :: ds => (digitsValue ds 0).map fun n => min n (Nat.pow 2 30 - 1)
  | '-' :: ds => (digitsValue ds 0).map fun n => -((min n (Nat.pow 2 30) : Nat) : Int)
  | ds => (digitsValue ds 0).map fun n => min n (Nat.pow 2 30 - 1)

/-- The well-known TCP services, by name. -/
def services : List (String × Nat) :=
  [("ftp", 21), ("ftps", 990), ("gopher", 70), ("http", 80), ("https", 443),
    ("imap2", 143), ("imap3", 220), ("imaps", 993), ("pop3", 110), ("pop3s", 995),
    ("smtp", 25), ("submissions", 465), ("telnet", 23)]

/-- The port a service stands for on a network: a number in range, or a service name
in any ASCII case. -/
def port (network service : String) : Except AddressError Nat :=
  let value : Except AddressError Int :=
    match number? service with
    | some n => .ok n
    | none =>
      match services.lookup (String.ofList (service.toList.map Char.toLower)) with
      | some n => .ok n
      | none => .error (.unknownPort network service)
  match value with
  | .error e => .error e
  | .ok n => if 0 ≤ n ∧ n ≤ 65535 then .ok n.toNat else .error (.invalidPort service)

/-- A host and port written back as one address, the host bracketed if it holds a colon. -/
def join (host : String) (port : Nat) : String :=
  if host.contains ':' then s!"[{host}]:{port}" else s!"{host}:{port}"

/-- Reads a TCP address into its host and port number. -/
def parse (hostport : String) : Except AddressError (String × Nat) := do
  let (host, service) ← split hostport
  let p ← port "tcp" service
  pure (host, p)

end StackLink.Address
