import StackLink.Text.Utf8

/-!
# The symbol table

The host remembers, for each device, the words it uploaded: index, name, size
and the time it was recorded (nanoseconds since 1970). A name is kept as the bytes
the device reported, UTF-8 or not, and names are compared byte by byte. A device has at most one
symbol per index; recording another at the same index replaces it. Symbols are
listed in index order, devices in the order of their names' bytes. A name is
resolved to the symbol with the highest index of that name, since later words
shadow earlier ones.
-/

namespace StackLink

/-- One word a device reported registering. -/
structure Symbol where
  device : String
  index : UInt16
  name : List UInt8
  size : Int
  /-- When it was recorded, in nanoseconds since 1970. -/
  recorded : Int
  deriving DecidableEq, Repr

/-- Why a symbol was not found. -/
inductive SymbolError where
  | noName (name : List UInt8) (device : String)
  | noIndex (index : UInt16) (device : String)
  deriving DecidableEq, Repr

/-- The error's text. -/
def SymbolError.message : SymbolError → String
  | .noName n d => "symbol not found: " ++ Utf8.lossy n ++ s!" on {d}"
  | .noIndex i d => s!"symbol not found: index {i.toNat} on {d}"

/-- The symbols of all devices, by device and then index. -/
structure SymbolTable where
  symbols : List Symbol := []
  deriving Repr

namespace SymbolTable

/-- Whether a symbol sorts before another: by device, then index. -/
def before (a b : Symbol) : Bool :=
  a.device < b.device || (a.device == b.device && a.index < b.index)

/-- Records one symbol, replacing the device's symbol at the same index. -/
def insert (t : SymbolTable) (s : Symbol) : SymbolTable :=
  let rest := t.symbols.filter fun o => !(o.device == s.device && o.index == s.index)
  ⟨(rest.filter (before · s)) ++ [s] ++ (rest.filter fun o => !before o s)⟩

/-- Records symbols in order. -/
def record (t : SymbolTable) (syms : List Symbol) : SymbolTable := syms.foldl insert t

/-- A device's symbols in index order. -/
def list (t : SymbolTable) (device : String) : List Symbol :=
  t.symbols.filter (·.device == device)

/-- The symbol a name resolves to on a device: the one with the highest index. -/
def lookup (t : SymbolTable) (device : String) (name : List UInt8) : Except SymbolError Symbol :=
  match ((t.list device).filter (·.name == name)).getLast? with
  | some s => .ok s
  | none => .error (.noName name device)

/-- The name recorded for a device's word index. -/
def nameOf (t : SymbolTable) (device : String) (index : UInt16) :
    Except SymbolError (List UInt8) :=
  match (t.list device).find? (·.index == index) with
  | some s => .ok s.name
  | none => .error (.noIndex index device)

/-- Forgets every symbol of a device. -/
def clear (t : SymbolTable) (device : String) : SymbolTable :=
  ⟨t.symbols.filter (·.device != device)⟩

/-- Every device with symbols, in order. -/
def devices (t : SymbolTable) : List String :=
  t.symbols.foldl (fun acc s => if acc.contains s.device then acc else acc ++ [s.device]) []

end SymbolTable

end StackLink
