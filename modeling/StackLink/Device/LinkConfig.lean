import StackLink.Wire.Frame

/-!
# Link settings

A device link has three sizes and a switch: the receive buffer (the longest
request payload it accepts, at most a whole frame's 512 bytes), the stack window
(how many cells of each stack a stack query returns: at most 63, so that two
windows and their counts fit one reply), the memory window (the most bytes a
memory query returns: at most 511, the room a reply leaves after its status)
and whether uploaded containers have their calls relocated.

Settings can be checked (`validate`, which names the first size out of range)
or forced into range (`clamp`, what a link does with the settings it is built
with). A setting passes the check exactly when clamping leaves it alone.
-/

namespace StackLink

/-- The largest stack window: two counts and two windows of 4-byte cells fit one payload. -/
def maxStackWindow : Nat := (maxPayload - 2) / 8

/-- The largest memory window: a reply payload less its status byte. -/
def maxMemoryWindow : Nat := maxPayload - 1

/-- Link settings as requested; sizes may be out of range until clamped. -/
structure LinkConfig where
  bufferSize : Int
  stackWindow : Int
  memoryWindow : Int
  relocate : Bool
deriving DecidableEq, Repr

namespace LinkConfig

/-- The defaults: a whole-frame buffer, the largest stack window, 256 bytes of memory, and
relocation on. -/
def default : LinkConfig := ⟨maxPayload, maxStackWindow, 256, true⟩

/-- Forces `v` into `lo..hi`. -/
def clampTo (lo hi v : Int) : Int := max lo (min v hi)

/-- Forces every size into its range. -/
def clamp (c : LinkConfig) : LinkConfig :=
  { c with bufferSize := clampTo 0 maxPayload c.bufferSize,
           stackWindow := clampTo 0 maxStackWindow c.stackWindow,
           memoryWindow := clampTo 0 maxMemoryWindow c.memoryWindow }

/-- The first size out of range, as a message; `none` when all are in range. -/
def validate (c : LinkConfig) : Option String :=
  if c.bufferSize < 0 ∨ c.bufferSize > maxPayload then
    some s!"link: buffer size {c.bufferSize} outside 0..{maxPayload}"
  else if c.stackWindow < 0 ∨ c.stackWindow > maxStackWindow then
    some s!"link: stack window {c.stackWindow} outside 0..{maxStackWindow}"
  else if c.memoryWindow < 0 ∨ c.memoryWindow > maxMemoryWindow then
    some s!"link: memory window {c.memoryWindow} outside 0..{maxMemoryWindow}"
  else none

end LinkConfig

end StackLink
