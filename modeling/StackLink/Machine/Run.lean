import StackLink.Machine.Basic

/-!
# Running words

A run executes one word from its first instruction. It fetches the instruction
at the program counter, counts it against the step limit, and carries it out;
running off the end of a word returns to the caller, or ends the run when there
is none. `CALL` saves the caller's place on a frame stack (bounded by the call
depth) and enters the called word; `RET` goes back, or ends the run.

Failures stop the run with an `ExecError` naming the word, the offset and the
opcode of the failing instruction, and its cause. The step limit is checked
before the instruction is read, so a run of a machine with limit `n` executes at
most `n` instructions and fails at the fetch of the next one.

System calls are the machine's only contact with its host. A handler, if one is
installed, receives the machine, the call number and the fifteen argument bytes;
it runs in the host's monad `M`, may change the machine, may refuse the call, or
may abort the whole run, which then unwinds to the host.

Arithmetic wraps at 32 bits; division truncates toward zero and the remainder
takes the sign of the dividend; comparisons push `-1` for true and `0` for false.
-/

namespace StackLink

/-- What a system call handler did. -/
inductive SysResult where
  | ok (m : Machine)
  | error (m : Machine) (e : VmError)
  /-- The handler gave up on the whole run; nothing after it executes. -/
  | abort (reason : String)

/-- A system call handler in the host's monad `M`. -/
abbrev SysHandler (M : Type → Type) := Machine → UInt8 → List UInt8 → M SysResult

/-- A failed instruction: the word it belongs to, its offset and opcode, and the cause. -/
structure ExecError where
  word : List UInt8
  pc : Nat
  op : UInt8
  cause : VmError
deriving DecidableEq, Repr

/-- The text of a failed instruction, an unnamed word shown as `<anonymous>`. -/
def ExecError.message (e : ExecError) : String :=
  let name := if e.word.isEmpty then "<anonymous>" else Utf8.lossy e.word
  s!"vm: {name} at " ++ Hex.upper 4 e.pc ++ " (" ++ (Opcode.info e.op).name ++ "): " ++ e.cause.message

/-- How a run ends when it does not finish. -/
inductive RunError where
  /-- There was no word to run. -/
  | nilWord
  | exec (e : ExecError)
  /-- A system call handler aborted the run. -/
  | abort (reason : String)
  /-- The run was still going when its budget of iterations ran out. -/
  | outOfFuel
deriving DecidableEq, Repr

/-- A saved place in a caller. -/
structure CallFrame where
  word : Word
  pc : Nat
deriving Repr

/-- Where a run is: the current word and offset, the saved callers (innermost first) and
the instructions counted so far. -/
structure Cursor where
  word : Word
  pc : Nat
  frames : List CallFrame
  steps : Nat
deriving Repr

/-- What one step of a run leads to. -/
inductive Step where
  | next (m : Machine) (c : Cursor)
  | done (m : Machine)
  | fail (m : Machine) (e : RunError)

/-- The cell of a truth value: all ones for true. -/
def Int32.ofBool (b : Bool) : Int32 := if b then -1 else 0

/-- The operations that replace the top two cells by one. -/
def Op.isBinary : Op → Bool
  | .add | .sub | .mul | .div | .mod | .and | .or | .xor
  | .eq | .ne | .lt | .le | .gt | .ge => true
  | _ => false

/-- A two-operand operation on the second cell `a` and the top cell `b`. -/
def binaryOp (op : Op) (a b : Int32) : Except VmError Int32 :=
  match op with
  | .add => .ok (a + b)
  | .sub => .ok (a - b)
  | .mul => .ok (a * b)
  | .div => if b = 0 then .error .divideByZero else .ok (a / b)
  | .mod => if b = 0 then .error .divideByZero else .ok (a % b)
  | .and => .ok (a &&& b)
  | .or => .ok (a ||| b)
  | .xor => .ok (a ^^^ b)
  | .eq => .ok (Int32.ofBool (a == b))
  | .ne => .ok (Int32.ofBool (a != b))
  | .lt => .ok (Int32.ofBool (decide (a < b)))
  | .le => .ok (Int32.ofBool (decide (a ≤ b)))
  | .gt => .ok (Int32.ofBool (decide (b < a)))
  | .ge => .ok (Int32.ofBool (decide (b ≤ a)))
  | _ => .error (.unknownOpcode op.byte)

namespace Machine

/-- Carries out one complete instruction other than a system call. `c` is already past the
instruction; `fail` reports a cause at the instruction. -/
def execute (m : Machine) (c : Cursor) (i : Instruction) (op : Op) : Step :=
  let fail (m : Machine) (e : VmError) : Step := .fail m (.exec ⟨c.word.name, i.offset, i.opcode, e⟩)
  let push (m : Machine) (v : Int32) (c : Cursor) : Step :=
    match m.push v with
    | .ok m' => .next m' c
    | .error e => fail m e
  match op, m.data with
  -- each literal reads its operand at its own width: a word, a byte, a signed byte or a
  -- signed 16-bit field, widened to a cell
  | .lit, _ => push m (UInt32.ofNat (Bytes.leValue i.operands)).toInt32 c
  | .litU8, _ => push m (Int32.ofNat (i.operands.headD 0).toNat) c
  | .litI8, _ => push m (i.operands.headD 0).toInt8.toInt32 c
  | .litI16, _ => push m (UInt16.ofNat (Bytes.leValue i.operands)).toInt16.toInt32 c
  | .dup, a :: _ => push m a c
  | .drop, _ :: rest => .next { m with data := rest } c
  | .swap, b :: a :: rest => .next { m with data := a :: b :: rest } c
  | .over, _ :: a :: _ => push m a c
  | .rot, x :: y :: z :: rest => .next { m with data := z :: x :: y :: rest } c
  | .neg, a :: rest => .next { m with data := -a :: rest } c
  | .invert, a :: rest => .next { m with data := ~~~a :: rest } c
  | .toR, a :: rest =>
    let m₁ := { m with data := rest }
    match m₁.rpush a with
    | .ok m₂ => .next m₂ c
    | .error e => fail m₁ e
  | .toR, [] => fail m .stackUnderflow
  | .fromR, _ =>
    match m.ret with
    | [] => fail m .stackUnderflow
    | r :: rs =>
      match m.push r with
      | .ok m₁ => .next { m₁ with ret := rs } c
      | .error e => fail m e
  | .rFetch, _ =>
    match m.ret with
    | [] => fail m .stackUnderflow
    | r :: _ => push m r c
  | .jmp, _ | .jz, _ | .jnz, _ =>
    let popped : Except VmError (Bool × Machine) :=
      if op = .jmp then .ok (true, m)
      else match m.data with
        | [] => .error .stackUnderflow
        | v :: rest => .ok (decide (v = 0) == decide (op = .jz), { m with data := rest })
    match popped with
    | .error e => fail m e
    | .ok (false, m₁) => .next m₁ c
    | .ok (true, m₁) =>
      let target := (c.pc : Int) + Bytes.signed 16 (Bytes.leValue i.operands)
      if target < 0 ∨ target > c.word.code.length then fail m₁ (.jumpOutOfRange target)
      else .next m₁ { c with pc := target.toNat }
  | .load, a :: rest =>
    match m.readMemory32 a.toUInt32 with
    | .ok v => .next { m with data := v.toInt32 :: rest } c
    | .error e => fail m e
  | .load8, a :: rest =>
    match m.readMemory a.toUInt32 1 with
    | .ok bs => .next { m with data := Int32.ofNat (Bytes.leValue bs) :: rest } c
    | .error e => fail m e
  | .store, a :: v :: rest =>
    match m.writeMemory32 a.toUInt32 v.toUInt32 with
    | .ok m₁ => .next { m₁ with data := rest } c
    | .error e => fail m e
  | .store8, a :: v :: rest =>
    match m.writeMemory a.toUInt32 [v.toUInt32.toUInt8] with
    | .ok m₁ => .next { m₁ with data := rest } c
    | .error e => fail m e
  | .call, _ =>
    let idx := Bytes.leValue i.operands
    match m.words[idx]? with
    | none => fail m (.badWord idx m.words.size)
    | some w =>
      if c.frames.length ≥ m.config.maxCallDepth then fail m .callDepth
      else .next m { c with word := w, pc := 0, frames := ⟨c.word, c.pc⟩ :: c.frames }
  | .ret, _ =>
    match c.frames with
    | [] => .done m
    | f :: fs => .next m { c with word := f.word, pc := f.pc, frames := fs }
  | .sys, _ => fail m (.sysUnsupported (i.operands.headD 0))
  | op, b :: a :: rest =>
    if op.isBinary then
      match binaryOp op a b with
      | .ok r => .next { m with data := r :: rest } c
      | .error e => fail m e
    else fail m .stackUnderflow
  | _, _ => fail m .stackUnderflow

/-- Takes one step of a run: an implicit return at the end of a word, or one instruction. -/
def step {M : Type → Type} [Monad M] (sys : Option (SysHandler M)) (m : Machine) (c : Cursor) :
    M Step :=
  match Code.fetch c.word.code c.pc with
  | none =>
    match c.frames with
    | [] => pure (.done m)
    | f :: fs => pure (.next m { c with word := f.word, pc := f.pc, frames := fs })
  | some i =>
    let fail (e : VmError) : Step := .fail m (.exec ⟨c.word.name, i.offset, i.opcode, e⟩)
    let steps := c.steps + 1
    if m.config.maxSteps > 0 ∧ (steps : Int) > m.config.maxSteps then pure (fail .stepLimit)
    else if i.truncated then pure (fail .truncated)
    else
      let c' := { c with pc := c.pc + 1 + i.operands.length, steps }
      match Op.ofByte? i.opcode with
      | none => pure (fail (.unknownOpcode i.opcode))
      | some .sys =>
        match sys, i.operands with
        | some h, id :: args => do
          match ← h m id args with
          | .ok m' => pure (.next m' c')
          | .error m' e => pure (.fail m' (.exec ⟨c.word.name, i.offset, i.opcode, e⟩))
          | .abort r => pure (.fail m (.abort r))
        | _, _ => pure (m.execute c' i .sys)
      | some op => pure (m.execute c' i op)

/-- Runs for at most `fuel` steps. -/
def runFor {M : Type → Type} [Monad M] (sys : Option (SysHandler M)) :
    Nat → Machine → Cursor → M (Machine × Except RunError Unit)
  | 0, m, _ => pure (m, .error .outOfFuel)
  | n + 1, m, c => do
    match ← m.step sys c with
    | .next m' c' => runFor sys n m' c'
    | .done m' => pure (m', .ok ())
    | .fail m' e => pure (m', .error e)

/-- Enough steps for any run under a step limit: every iteration executes a counted
instruction or returns from a call that one of them made. Without a limit, a bound no
run reaches in practice. -/
def fuel (cfg : MachineConfig) : Nat :=
  if cfg.maxSteps > 0 then 2 * cfg.maxSteps.toNat + 2 else Nat.pow 2 62

/-- Runs a word from its start with no callers. -/
def exec {M : Type → Type} [Monad M] (sys : Option (SysHandler M)) (m : Machine) (w : Word) :
    M (Machine × Except RunError Unit) :=
  runFor sys (fuel m.config) m ⟨w, 0, [], 0⟩

/-- Runs the word at a table position; a missing word is no word. -/
def execIndex {M : Type → Type} [Monad M] (sys : Option (SysHandler M)) (m : Machine) (i : Int) :
    M (Machine × Except RunError Unit) :=
  match m.word? i with
  | some w => m.exec sys w
  | none => pure (m, .error .nilWord)

end Machine

end StackLink
