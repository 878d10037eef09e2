import StackLink.Code.Instruction
import StackLink.Text.Utf8

/-!
# The stack machine's state

A machine holds a table of named words (code strings), a data stack and a
return stack of 32-bit cells with a common depth limit, and a linear byte
memory. Its configuration fixes the memory size, the table size, the stack
depth, the call depth and the step limit of one run; sizes requested at or
below zero take the defaults (4096 bytes, 256 words, 256 cells, 64 calls), and a
step limit at or below zero means no limit.

Stacks are lists with the top first. Memory accesses are bounds-checked as
unbounded integers (`addr + width ≤ size`), so an address near `2^32` never
wraps around, and words are stored least significant byte first.

Every operation that can fail returns a `VmError`, the machine's error causes.
-/

namespace StackLink

/-- A machine's sizes and limits. -/
structure MachineConfig where
  memorySize : Nat
  maxWords : Nat
  stackDepth : Nat
  maxCallDepth : Nat
  /-- Instructions one run may take; zero or less for no limit. -/
  maxSteps : Int
deriving DecidableEq, Repr

namespace MachineConfig

/-- The defaults: 4096 bytes, 256 words, 256 cells, 64 nested calls, a million steps. -/
def default : MachineConfig := ⟨4096, 256, 256, 64, 1000000⟩

/-- The configuration of a machine built with these requested values: a size at or below
zero takes its default, and the step limit is kept as it is. -/
def ofRequested (memorySize maxWords stackDepth maxCallDepth maxSteps : Int) : MachineConfig :=
  let pick (v : Int) (d : Nat) : Nat := if v ≤ 0 then d else v.toNat
  ⟨pick memorySize 4096, pick maxWords 256, pick stackDepth 256, pick maxCallDepth 64, maxSteps⟩

end MachineConfig

/-- Why a machine operation failed. -/
inductive VmError where
  | stackUnderflow
  | stackOverflow
  | unknownOpcode (op : UInt8)
  /-- A call of word `index` in a table of `count` words. -/
  | badWord (index count : Nat)
  | divideByZero
  /-- `width` bytes at `addr` do not fit in `size` bytes of memory. -/
  | memoryBounds (width : Nat) (addr : UInt32) (size : Nat)
  | truncated
  /-- A taken jump to a position outside its word. -/
  | jumpOutOfRange (target : Int)
  /-- The table already holds `count` words. -/
  | wordTableFull (count : Nat)
  /-- A system call with no handler installed. -/
  | sysUnsupported (id : UInt8)
  | stepLimit
  | callDepth
  /-- A run was asked of no word. -/
  | nilWord
  /-- A word name of `length` bytes, over 255. -/
  | nameTooLong (length : Nat)
  /-- A system call handler refused the call. -/
  | sysFailed (reason : String)
deriving DecidableEq, Repr

/-- The text of a machine error. -/
def VmError.message : VmError → String
  | .stackUnderflow => "stack underflow"
  | .stackOverflow => "stack overflow"
  | .unknownOpcode op => "unknown opcode: 0x" ++ Hex.upper 2 op.toNat
  | .badWord i n => s!"word index out of range: {i} of {n}"
  | .divideByZero => "division by zero"
  | .memoryBounds w a n =>
    s!"memory access out of bounds: {w} bytes at 0x" ++ Hex.upper 8 a.toNat ++ s!", memory is {n}"
  | .truncated => "instruction truncated"
  | .jumpOutOfRange t => s!"jump target outside word: {t}"
  | .wordTableFull n => s!"word table full: {n} words"
  | .sysUnsupported id => s!"system call not supported: id {id.toNat}"
  | .stepLimit => "step limit exceeded"
  | .callDepth => "call depth exceeded"
  | .nilWord => "nil word"
  | .nameTooLong n => s!"word name too long: {n} bytes"
  | .sysFailed r => r

/-- A named code string; `index` is its place in the table, or `-1` for a word run without
being registered. -/
structure Word where
  index : Int
  name : List UInt8
  code : List UInt8
deriving DecidableEq, Repr

/-- A machine's state. -/
structure Machine where
  config : MachineConfig
  words : Array Word
  /-- The data stack, top first. -/
  data : List Int32
  /-- The return stack, top first. -/
  ret : List Int32
  mem : Array UInt8
deriving Repr

namespace Machine

/-- A fresh machine: no words, empty stacks, zeroed memory. -/
def new (cfg : MachineConfig) : Machine :=
  ⟨cfg, #[], [], [], Array.replicate cfg.memorySize 0⟩

/-- Clears the table, both stacks and memory. -/
def reset (m : Machine) : Machine :=
  { m with words := #[], data := [], ret := [], mem := Array.replicate m.mem.size 0 }

/-- How many words the table holds. -/
def wordCount (m : Machine) : Nat := m.words.size

/-- The word at a table position. -/
def word? (m : Machine) (i : Int) : Option Word :=
  if i < 0 then none else m.words[i.toNat]?

/-- Adds a word at the end of the table and returns its position. -/
def registerWord (m : Machine) (name code : List UInt8) : Except VmError (Machine × Nat) :=
  if m.words.size ≥ m.config.maxWords then .error (.wordTableFull m.words.size)
  else if name.length > 255 then .error (.nameTooLong name.length)
  else .ok ({ m with words := m.words.push ⟨m.words.size, name, code⟩ }, m.words.size)

/-- Pushes a cell on the data stack. -/
def push (m : Machine) (v : Int32) : Except VmError Machine :=
  if m.data.length ≥ m.config.stackDepth then .error .stackOverflow
  else .ok { m with data := v :: m.data }

/-- Pops the top cell of the data stack. -/
def pop (m : Machine) : Except VmError (Int32 × Machine) :=
  match m.data with
  | [] => .error .stackUnderflow
  | v :: rest => .ok (v, { m with data := rest })

/-- Pushes a cell on the return stack. -/
def rpush (m : Machine) (v : Int32) : Except VmError Machine :=
  if m.ret.length ≥ m.config.stackDepth then .error .stackOverflow
  else .ok { m with ret := v :: m.ret }

/-- Checks that `width` bytes at `addr` lie inside memory. -/
def span (m : Machine) (addr : UInt32) (width : Nat) : Except VmError Unit :=
  if addr.toNat + width > m.mem.size then .error (.memoryBounds width addr m.mem.size)
  else .ok ()

/-- Reads `n` bytes at `addr`. -/
def readMemory (m : Machine) (addr : UInt32) (n : Nat) : Except VmError (List UInt8) := do
  m.span addr n
  return (m.mem.extract addr.toNat (addr.toNat + n)).toList

/-- Writes bytes one after another from `pos` on. -/
def Memory.write (mem : Array UInt8) (pos : Nat) : List UInt8 → Array UInt8
  | [] => mem
  | b :: bs => Memory.write (mem.setIfInBounds pos b) (pos + 1) bs

/-- Writes bytes at `addr`. -/
def writeMemory (m : Machine) (addr : UInt32) (data : List UInt8) : Except VmError Machine := do
  m.span addr data.length
  return { m with mem := Memory.write m.mem addr.toNat data }

/-- Reads the little-endian 32-bit word at `addr`. -/
def readMemory32 (m : Machine) (addr : UInt32) : Except VmError UInt32 := do
  let bs ← m.readMemory addr 4
  return UInt32.ofNat (Bytes.leValue bs)

/-- Writes a 32-bit word at `addr`, least significant byte first. -/
def writeMemory32 (m : Machine) (addr v : UInt32) : Except VmError Machine :=
  m.writeMemory addr (Bytes.le32 v.toNat)

end Machine

end StackLink
