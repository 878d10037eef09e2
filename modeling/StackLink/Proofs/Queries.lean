import Mathlib
import StackLink.Proofs.Fields
import StackLink.Proofs.Replies

/-!
# What the queries answer

A link answers three queries from the state of its machine and changes nothing: the tops of
the two stacks, a window of memory and one word of the table. This file says what each reply
carries, byte by byte, and when it is the bare `BUFFER_FULL` that stands in for a reply too
long for a frame. `StackLink.Link.AnswersWith` says that the link is left as it was and
answers with the frame of one given reply, so that reply is never replaced.

* **A stack query** answers `OK` with each stack's count and its top cells, bottom first
  (`StackLink.Link.windowPayload`), at most the stack window of each. A link clamps its
  window to 63 cells, which keeps the reply within 506 bytes
  (`StackLink.Link.stack_query_reports_stack_tops`).
* **A memory query** reads a 32-bit word at a time from the address it names and answers the
  first `min len window` bytes of those words. A word that does not lie wholly inside memory
  reads as zeros, even when some of its bytes do. The address of each word is computed
  modulo `2^32`, so a window that runs past the top of the address space goes on at address
  zero (`StackLink.Link.memory_query_reads_words_modulo_address_space`,
  `StackLink.Link.memory_query_wraps_to_low_memory`). The window is at most 511 bytes, so
  the reply always fits.
* **A word query** answers with the word's name and code when they fit a reply, and with a
  bare `BUFFER_FULL` when they do not (`StackLink.Link.word_query_answers_by_size`). The
  link checks the length against a whole payload before it builds the reply, and the frame
  encoder checks it again against a payload less the status byte. At exactly 512 bytes the
  first check passes and the second refuses (`StackLink.Link.queryWord_of_word`).
-/

namespace StackLink

/-- A clamped stack window is at most 63 cells. -/
theorem LinkConfig.toNat_clamp_stackWindow_le (c : LinkConfig) :
    c.clamp.stackWindow.toNat ≤ maxStackWindow := by
  simp only [clamp, clampTo, maxStackWindow, maxPayload]
  omega

/-- A clamped memory window is at most 511 bytes. -/
theorem LinkConfig.toNat_clamp_memoryWindow_le (c : LinkConfig) :
    c.clamp.memoryWindow.toNat ≤ maxMemoryWindow := by
  simp only [clamp, clampTo, maxMemoryWindow, maxPayload]
  omega

/-- The word at a table position given as a natural number. -/
theorem Machine.word?_natCast (m : Machine) (i : Nat) : m.word? i = m.words[i]? := by
  rw [Machine.word?, if_neg (by omega), Int.toNat_natCast]

/-! ### Replies that fit -/

/-- A reply that fits a frame is encoded as its reply frame. -/
theorem encode_replyFrame {s : Status} {extra : List UInt8} (h : extra.length + 1 ≤ maxPayload) :
    (Reply.mk s extra).encode = .ok (replyFrame s extra) := by
  rw [replyFrame_eq, if_pos h]
  exact (Direction.encode_eq_ok_iff .reply).mpr ⟨h, rfl⟩

/-- A reply too long for a frame is replaced by the bare `BUFFER_FULL`. -/
theorem replyFrame_of_too_long {s : Status} {extra : List UInt8}
    (h : maxPayload < extra.length + 1) :
    replyFrame s extra = replyFrame Status.bufferFull [] := by
  rw [replyFrame_eq, if_neg (by omega), replyFrame_eq, if_pos (by simp [maxPayload])]
  rfl

namespace Link

variable {M : Type → Type} [Monad M]

/-- The link is left as it was and answers with the frame of reply `r`. -/
def AnswersWith (l : Link) (res : M (Link × Answer)) (r : Reply) : Prop :=
  ∃ f, r.encode = .ok f ∧ res = pure (l, .reply f)

theorem answersWith_replyFrame (l : Link) {s : Status} {extra : List UInt8}
    (h : extra.length + 1 ≤ maxPayload) :
    l.AnswersWith (pure (f := M) (l, .reply (replyFrame s extra))) ⟨s, extra⟩ :=
  ⟨_, encode_replyFrame h, rfl⟩

/-- A bare status always fits a frame. -/
theorem answersWith_bare (l : Link) (s : Status) :
    l.AnswersWith (pure (f := M) (l, .reply (replyFrame s []))) ⟨s, []⟩ :=
  answersWith_replyFrame l (by simp [maxPayload])

/-! ### Which query a frame asks -/

section Dispatch

variable (sys : Option (SysHandler M)) (l : Link) {g p : List UInt8}

theorem handleFrame_queryStack (hg : Frame.decode g = .ok ⟨Command.queryStack, p⟩) :
    l.handleFrame sys g = pure (l, .reply (replyFrame Status.ok l.queryStack)) := by
  unfold handleFrame
  rw [hg]
  simp [Command.queryStack, Command.exec, Command.ping, Command.reset]

theorem handleFrame_queryMemory (hg : Frame.decode g = .ok ⟨Command.queryMemory, p⟩)
    {addr len : Nat} (ha : Bytes.readLE32 p 0 = some addr) (hn : Bytes.readLE16 p 4 = some len) :
    l.handleFrame sys g = pure (l, .reply (replyFrame Status.ok (l.queryMemory addr len))) := by
  unfold handleFrame
  rw [hg]
  simp [Command.queryStack, Command.queryMemory, Command.exec, Command.ping, Command.reset, ha,
    hn]

/-- A memory query shorter than an address and a length is a malformed frame. -/
theorem handleFrame_queryMemory_short (hg : Frame.decode g = .ok ⟨Command.queryMemory, p⟩)
    (hp : p.length < 6) :
    l.handleFrame sys g = pure (l, .reply (replyFrame Status.invalidFrame [])) := by
  have hn : Bytes.readLE16 p 4 = none := Bytes.readLE_of_short (by omega)
  unfold handleFrame
  rw [hg]
  simp [Command.queryStack, Command.queryMemory, Command.exec, Command.ping, Command.reset, hn]

theorem handleFrame_queryWord (hg : Frame.decode g = .ok ⟨Command.queryWord, p⟩) {i : Nat}
    (hi : Bytes.readLE16 p 0 = some i) :
    l.handleFrame sys g = pure (l, .reply (l.queryWord i)) := by
  unfold handleFrame
  rw [hg]
  simp [Command.queryStack, Command.queryMemory, Command.queryWord, Command.exec, Command.ping,
    Command.reset, hi]

/-- A word query shorter than an index is a malformed frame. -/
theorem handleFrame_queryWord_short (hg : Frame.decode g = .ok ⟨Command.queryWord, p⟩)
    (hp : p.length < 2) :
    l.handleFrame sys g = pure (l, .reply (replyFrame Status.invalidFrame [])) := by
  have hi : Bytes.readLE16 p 0 = none := Bytes.readLE_of_short (by omega)
  unfold handleFrame
  rw [hg]
  simp [Command.queryStack, Command.queryMemory, Command.queryWord, Command.exec, Command.ping,
    Command.reset, hi]

end Dispatch

end Link

/-! ### Memory, a word at a time -/

/-- The bytes of the word a memory query reads at `a`: the four bytes of memory there, or
zeros when they do not all lie inside memory. -/
theorem Machine.getElem?_le32_readMemory32 (m : Machine) (a : UInt32) {j : Nat} (hj : j < 4) :
    (Bytes.le32 ((m.readMemory32 a).toOption.getD 0).toNat)[j]? =
      if a.toNat + 4 ≤ m.mem.size then m.mem[a.toNat + j]? else some 0 := by
  by_cases h : a.toNat + 4 ≤ m.mem.size
  · -- the four bytes at `a`, read as a value and written out again
    have hread : m.readMemory32 a =
        .ok (UInt32.ofNat (Bytes.leValue (m.mem.extract a.toNat (a.toNat + 4)).toList)) := by
      simp [Machine.readMemory32, Machine.readMemory, Machine.span, Nat.not_lt.mpr h]
    have hlen : (m.mem.extract a.toNat (a.toNat + 4)).toList.length = 4 := by simp; omega
    rw [hread, if_pos h]
    simp only [Except.toOption, Option.getD_some, UInt32.toNat_ofNat', Bytes.le32_mod,
      Bytes.le32_leValue hlen]
    rw [Array.getElem?_toList, Array.getElem?_extract, if_pos (by omega)]
  · have hread : m.readMemory32 a = .error (.memoryBounds 4 a m.mem.size) := by
      simp [Machine.readMemory32, Machine.readMemory, Machine.span,
        show m.mem.size < a.toNat + 4 by omega]
    rw [hread, if_neg h]
    interval_cases j <;> simp [Except.toOption, Bytes.le32]

/-- Words cut short at `n` bytes are the first `n` bytes of the whole words. -/
theorem flatMap_take_words (f : Nat → List UInt8) (hf : ∀ k, (f k).length = 4) (n m : Nat) :
    (List.range m).flatMap (fun k => (f k).take (n - 4 * k)) =
      ((List.range m).flatMap f).take n := by
  induction m with
  | zero => simp
  | succ m ih =>
    rw [List.range_succ, List.flatMap_append, List.flatMap_append, ih, List.take_append,
      Bytes.length_flatMap_of_width f hf, List.length_range]
    simp

/-- Byte `i` of whole words is byte `i % 4` of word `i / 4`. -/
theorem getElem?_flatMap_words (f : Nat → List UInt8) (hf : ∀ k, (f k).length = 4) {m i : Nat}
    (hi : i < 4 * m) : ((List.range m).flatMap f)[i]? = (f (i / 4))[i % 4]? := by
  induction m with
  | zero => omega
  | succ m ih =>
    have hlen : ((List.range m).flatMap f).length = 4 * m := by
      rw [Bytes.length_flatMap_of_width f hf, List.length_range]
    rw [List.range_succ, List.flatMap_append, List.flatMap_singleton]
    by_cases h : i < 4 * m
    · rw [List.getElem?_append_left (by omega), ih h]
    · -- the last word
      rw [List.getElem?_append_right (by omega), hlen, show i / 4 = m by omega,
        show i % 4 = i - 4 * m by omega]

namespace Link

/-- A memory query's reply is the first `min len window` bytes of the words read from `addr`
on, four bytes apart. -/
theorem queryMemory_eq_take (l : Link) (addr len : Nat) :
    l.queryMemory addr len =
      ((List.range ((min len l.config.memoryWindow.toNat + 3) / 4)).flatMap fun k =>
        Bytes.le32 ((l.machine.readMemory32 (UInt32.ofNat (addr + 4 * k))).toOption.getD 0).toNat
        ).take (min len l.config.memoryWindow.toNat) :=
  flatMap_take_words _ (fun _ => Bytes.length_le32 _) _ _

/-- A memory query answers `min len window` bytes. -/
theorem length_queryMemory (l : Link) (addr len : Nat) :
    (l.queryMemory addr len).length = min len l.config.memoryWindow.toNat := by
  rw [queryMemory_eq_take, List.length_take,
    Bytes.length_flatMap_of_width _ (fun _ => Bytes.length_le32 _), List.length_range]
  omega

/-- **Byte `i` of a memory query** is byte `i % 4` of the word at `addr + 4 * (i / 4)`, taken
modulo `2^32`, when that word lies inside memory, and zero when it does not. -/
theorem getElem?_queryMemory (l : Link) (addr len : Nat) {i : Nat}
    (hi : i < min len l.config.memoryWindow.toNat) :
    (l.queryMemory addr len)[i]? =
      if (addr + 4 * (i / 4)) % 2 ^ 32 + 4 ≤ l.machine.mem.size then
        l.machine.mem[(addr + 4 * (i / 4)) % 2 ^ 32 + i % 4]?
      else some 0 := by
  rw [queryMemory_eq_take, List.getElem?_take_of_lt hi,
    getElem?_flatMap_words _ (fun _ => Bytes.length_le32 _) (by omega),
    Machine.getElem?_le32_readMemory32 _ _ (Nat.mod_lt _ (by omega)), UInt32.toNat_ofNat']

/-- With a clamped window, a memory query's reply fits a frame. -/
theorem queryMemory_fits (cfg : LinkConfig) (l : Link) (hcfg : l.config = cfg.clamp)
    (addr len : Nat) : (l.queryMemory addr len).length + 1 ≤ maxPayload := by
  have hM : l.config.memoryWindow.toNat ≤ maxMemoryWindow := hcfg ▸ cfg.toNat_clamp_memoryWindow_le
  rw [length_queryMemory]
  simp only [maxMemoryWindow, maxPayload] at hM ⊢
  omega

variable {M : Type → Type} [Monad M]

/-- **A memory query reads words of memory, their addresses modulo `2^32`.** Take a link whose
settings are clamped from some settings, so that its memory window `M` is at most 511 bytes,
and a frame that asks for memory with payload `p`. If `p` is shorter than six bytes the link
answers `INVALID_FRAME`. Otherwise, with `addr` the 32-bit field and `len` the 16-bit field
of `p`, the link answers `OK` with exactly `n = min len M` bytes, never `BUFFER_FULL`. For
`i < n`, with `a` the address `addr + 4 * (i / 4)` modulo `2^32`, byte `i` is byte
`a + i % 4` of memory when the four bytes at `a` lie inside memory, and zero otherwise. The
link changes nothing. -/
theorem memory_query_reads_words_modulo_address_space (sys : Option (SysHandler M))
    (cfg : LinkConfig) (l : Link) (hcfg : l.config = cfg.clamp) {g p : List UInt8}
    (hg : Frame.decode g = .ok ⟨Command.queryMemory, p⟩) :
    (p.length < 6 → l.AnswersWith (l.handleFrame sys g) ⟨Status.invalidFrame, []⟩) ∧
    ∀ addr len, Bytes.readLE32 p 0 = some addr → Bytes.readLE16 p 4 = some len →
      ∃ R, l.AnswersWith (l.handleFrame sys g) ⟨Status.ok, R⟩ ∧
        R.length = min len l.config.memoryWindow.toNat ∧
        ∀ i < R.length,
          R[i]? = if (addr + 4 * (i / 4)) % 2 ^ 32 + 4 ≤ l.machine.mem.size then
            l.machine.mem[(addr + 4 * (i / 4)) % 2 ^ 32 + i % 4]?
          else some 0 := by
  refine ⟨fun hp => ?_, fun addr len ha hn => ?_⟩
  · rw [handleFrame_queryMemory_short sys l hg hp]
    exact answersWith_bare l _
  · refine ⟨l.queryMemory addr len, ?_, length_queryMemory l addr len, fun i hi => ?_⟩
    · rw [handleFrame_queryMemory sys l hg ha hn]
      exact answersWith_replyFrame l (queryMemory_fits cfg l hcfg addr len)
    · rw [length_queryMemory] at hi
      exact getElem?_queryMemory l addr len hi

set_option maxRecDepth 20000 in
/-- A link over four bytes of memory, asked for a window at `0x00000010`: the window lies wholly
past memory. -/
theorem memory_query_at_sixteen :
    let l : Link :=
      Link.new ⟨{ MachineConfig.default with memorySize := 4 }, #[], [], [], #[1, 2, 3, 4]⟩
        LinkConfig.default
    let p : List UInt8 := [0x10, 0, 0, 0, 8, 0]
    let g : List UInt8 := wrap 0x31 6 p
    (l.config = LinkConfig.default.clamp ∧ Frame.decode g = .ok ⟨Command.queryMemory, p⟩) ∧
      ((p.length < 6 → l.AnswersWith (l.handleFrame (M := Id) none g) ⟨Status.invalidFrame, []⟩) ∧
      ∀ addr len, Bytes.readLE32 p 0 = some addr → Bytes.readLE16 p 4 = some len →
        ∃ R, l.AnswersWith (l.handleFrame (M := Id) none g) ⟨Status.ok, R⟩ ∧
          R.length = min len l.config.memoryWindow.toNat ∧
          ∀ i < R.length,
            R[i]? = if (addr + 4 * (i / 4)) % 2 ^ 32 + 4 ≤ l.machine.mem.size then
              l.machine.mem[(addr + 4 * (i / 4)) % 2 ^ 32 + i % 4]?
            else some 0) := by
  intro l p g
  have hcfg : l.config = LinkConfig.default.clamp := rfl
  have hg : Frame.decode g = .ok ⟨Command.queryMemory, p⟩ := by decide +kernel
  exact ⟨⟨hcfg, hg⟩, memory_query_reads_words_modulo_address_space none _ l hcfg hg⟩

set_option maxRecDepth 20000 in
/-- A memory query for eight bytes at `0xFFFFFFFC`, on a link over four bytes of memory. The
first word lies past the end of memory and reads as zeros. The second word's address,
`0xFFFFFFFC + 4`, wraps to zero, and the reply carries the first four bytes of memory there,
where that address read as an unbounded number lies past the end of memory too. -/
theorem memory_query_wraps_to_low_memory :
    let l : Link :=
      Link.new ⟨{ MachineConfig.default with memorySize := 4 }, #[], [], [],
        #[0x44, 0x33, 0x22, 0x11]⟩ LinkConfig.default
    let p : List UInt8 := [0xFC, 0xFF, 0xFF, 0xFF, 8, 0]
    let g : List UInt8 := wrap 0x31 6 p
    Frame.decode g = .ok ⟨Command.queryMemory, p⟩ ∧
      Bytes.readLE32 p 0 = some 0xFFFFFFFC ∧ Bytes.readLE16 p 4 = some 8 ∧
      (Id.run (l.handleFrame none g)).2 =
        .reply (replyFrame Status.ok [0, 0, 0, 0, 0x44, 0x33, 0x22, 0x11]) ∧
      ¬ (0xFFFFFFFC + 4 * (4 / 4) + 4 ≤ l.machine.mem.size) := by
  decide +kernel

/-! ### Stacks -/

/-- One stack window as a stack query lays it out: the number of cells, then each cell as
32 bits, in the order given. -/
def windowPayload (cells : List Int32) : List UInt8 :=
  UInt8.ofNat cells.length :: cells.flatMap fun v => Bytes.le32 v.toUInt32.toNat

@[simp] theorem length_windowPayload (cells : List Int32) :
    (windowPayload cells).length = 1 + 4 * cells.length := by
  rw [windowPayload, List.length_cons,
    Bytes.length_flatMap_of_width _ (fun _ => Bytes.length_le32 _)]
  omega

/-- The window of a stack (kept top first) is its top `window` cells, bottom first: the stack
read from the bottom, from position `length - window` on. -/
theorem stackPayload_eq (window : Nat) (cells : List Int32) :
    stackPayload window cells = windowPayload (cells.reverse.drop (cells.length - window)) := by
  rw [stackPayload, List.reverse_take]
  rfl

/-- A stack query answers each stack's count and at most `window` of its cells. -/
theorem length_queryStack (l : Link) :
    l.queryStack.length = 2 + 4 * (min l.machine.data.length l.config.stackWindow.toNat +
      min l.machine.ret.length l.config.stackWindow.toNat) := by
  simp only [queryStack, stackPayload_eq, List.length_append, length_windowPayload,
    List.length_drop, List.length_reverse]
  omega

/-- With a clamped window of at most 63 cells, a stack query answers at most 506 bytes. -/
theorem length_queryStack_le (cfg : LinkConfig) (l : Link) (hcfg : l.config = cfg.clamp) :
    l.queryStack.length ≤ 2 + 8 * 63 := by
  have hW : l.config.stackWindow.toNat ≤ maxStackWindow := hcfg ▸ cfg.toNat_clamp_stackWindow_le
  rw [length_queryStack]
  simp only [maxStackWindow, maxPayload] at hW
  omega

/-- **A stack query reports the top of each stack and always fits a frame.** Take a link whose
settings are clamped from some settings, so that its stack window `W` is at most 63 cells,
and any frame that asks for the stacks. With `d` and `r` the data and return stacks read from
the bottom, the link answers `OK` with each stack's window: the count `min |d| W` and the top
`min |d| W` cells of `d`, bottom first, as 32-bit words; then the same for `r`. The payload
is `2 + 4 * (min |d| W + min |r| W)` bytes, at most `2 + 8 * 63 = 506`, so it is never
replaced by `BUFFER_FULL`. The link changes nothing. -/
theorem stack_query_reports_stack_tops (sys : Option (SysHandler M)) (cfg : LinkConfig)
    (l : Link) (hcfg : l.config = cfg.clamp) {g p : List UInt8}
    (hg : Frame.decode g = .ok ⟨Command.queryStack, p⟩) :
    let W := l.config.stackWindow.toNat
    let d := l.machine.data.reverse
    let r := l.machine.ret.reverse
    let P := windowPayload (d.drop (d.length - W)) ++ windowPayload (r.drop (r.length - W))
    l.AnswersWith (l.handleFrame sys g) ⟨Status.ok, P⟩ ∧
      P.length = 2 + 4 * (min d.length W + min r.length W) ∧ P.length ≤ 2 + 8 * 63 := by
  intro W d r P
  have hq : l.queryStack = P := by
    simp only [queryStack, stackPayload_eq, P, d, r, W, List.length_reverse]
  have hfit : P.length ≤ 2 + 8 * 63 := hq ▸ length_queryStack_le cfg l hcfg
  refine ⟨?_, by simp only [← hq, length_queryStack, d, r, W, List.length_reverse], hfit⟩
  rw [handleFrame_queryStack sys l hg, hq]
  exact answersWith_replyFrame l (by simp only [maxPayload]; omega)

set_option maxRecDepth 20000 in
/-- A fresh link whose data stack holds two cells, asked for its stacks with an empty
payload. -/
theorem stack_query_on_two_cells :
    let l : Link := Link.new ⟨MachineConfig.default, #[], [2, -1], [], #[]⟩ LinkConfig.default
    let g : List UInt8 := wrap 0x30 0 []
    (l.config = LinkConfig.default.clamp ∧ Frame.decode g = .ok ⟨Command.queryStack, []⟩) ∧
      (let W := l.config.stackWindow.toNat
       let d := l.machine.data.reverse
       let r := l.machine.ret.reverse
       let P := windowPayload (d.drop (d.length - W)) ++ windowPayload (r.drop (r.length - W))
       l.AnswersWith (l.handleFrame (M := Id) none g) ⟨Status.ok, P⟩ ∧
         P.length = 2 + 4 * (min d.length W + min r.length W) ∧ P.length ≤ 2 + 8 * 63) := by
  intro l g
  have hcfg : l.config = LinkConfig.default.clamp := rfl
  have hg : Frame.decode g = .ok ⟨Command.queryStack, []⟩ := by decide +kernel
  exact ⟨⟨hcfg, hg⟩, stack_query_reports_stack_tops none _ l hcfg hg⟩

/-! ### Words -/

/-- A word as a word query lays it out: the name's length and bytes, then the code's length as
16 bits and its bytes. -/
def wordPayload (name code : List UInt8) : List UInt8 :=
  UInt8.ofNat name.length :: name ++ Bytes.le16 code.length ++ code

@[simp] theorem length_wordPayload (name code : List UInt8) :
    (wordPayload name code).length = 3 + name.length + code.length := by
  simp only [wordPayload, List.length_cons, List.length_append, Bytes.length_le16]
  omega

/-- What a word query answers for a word whose name fits its length byte: the word, when it
fits a reply, and the bare `BUFFER_FULL` otherwise. A 512-byte payload passes the link's own
check and is refused by the frame encoder; both refusals are the same frame. -/
theorem queryWord_of_word (l : Link) {i : Nat} {w : Word} (h : l.machine.words[i]? = some w)
    (hname : w.name.length ≤ 255) :
    l.queryWord i =
      if 3 + w.name.length + w.code.length ≤ 511 then
        replyFrame Status.ok (wordPayload w.name w.code)
      else replyFrame Status.bufferFull [] := by
  rw [queryWord, Machine.word?_natCast, h]
  dsimp only
  by_cases hfit : 3 + w.name.length + w.code.length ≤ 511
  · rw [if_neg (by simp only [maxPayload]; omega), if_pos hfit]
    rfl
  · rw [if_neg hfit]
    split
    · rfl
    · -- the link's check let it through; the encoder refuses it
      show replyFrame Status.ok (wordPayload w.name w.code) = _
      exact replyFrame_of_too_long (by simp only [length_wordPayload, maxPayload]; omega)

/-- **A word query's two size checks agree.** Take a link whose words all have names of at
most 255 bytes (every word a machine registers does, so every link a host can reach is one:
`StackLink.Link.Reachable.namesFit`), and a frame that asks for a word with
payload `p`. If `p` is shorter than two bytes the link answers `INVALID_FRAME`. Otherwise,
with `i` the 16-bit field of `p`: if the table has no word `i` the link answers `VM_ERROR`;
if word `i` has name `s` and code `k`, the link answers `OK` with `[|s|] ++ s ++ LE16 |k| ++ k`
when `3 + |s| + |k| ≤ 511`, and a bare `BUFFER_FULL` otherwise. The link changes nothing. -/
theorem word_query_answers_by_size (sys : Option (SysHandler M)) (l : Link)
    (hnames : ∀ w ∈ l.machine.words, w.name.length ≤ 255) {g p : List UInt8}
    (hg : Frame.decode g = .ok ⟨Command.queryWord, p⟩) :
    (p.length < 2 → l.AnswersWith (l.handleFrame sys g) ⟨Status.invalidFrame, []⟩) ∧
    ∀ i, Bytes.readLE16 p 0 = some i →
      (l.machine.wordCount ≤ i → l.AnswersWith (l.handleFrame sys g) ⟨Status.vmError, []⟩) ∧
      ∀ w, l.machine.words[i]? = some w →
        (3 + w.name.length + w.code.length ≤ 511 →
          l.AnswersWith (l.handleFrame sys g) ⟨Status.ok, wordPayload w.name w.code⟩) ∧
        (511 < 3 + w.name.length + w.code.length →
          l.AnswersWith (l.handleFrame sys g) ⟨Status.bufferFull, []⟩) := by
  refine ⟨fun hp => ?_, fun i hi => ⟨fun hout => ?_, fun w hw => ?_⟩⟩
  · rw [handleFrame_queryWord_short sys l hg hp]
    exact answersWith_bare l _
  · -- past the end of the table
    have hnone : l.machine.word? i = none := by
      rw [Machine.word?_natCast]
      exact Array.getElem?_eq_none (by simpa [Machine.wordCount] using hout)
    rw [handleFrame_queryWord sys l hg hi, queryWord, hnone]
    exact answersWith_bare l _
  · -- a word of the table, whose name fits its length byte
    rw [handleFrame_queryWord sys l hg hi,
      queryWord_of_word l hw (hnames w (Array.mem_of_getElem? hw))]
    refine ⟨fun hfit => ?_, fun hover => ?_⟩
    · rw [if_pos hfit]
      exact answersWith_replyFrame l (by simp only [length_wordPayload, maxPayload]; omega)
    · rw [if_neg (by omega)]
      exact answersWith_bare l _

set_option maxRecDepth 20000 in
/-- A link whose table holds one word, `dup` with code `RET`, asked for word zero. -/
theorem word_query_for_one_word :
    let l : Link :=
      Link.new ⟨MachineConfig.default, #[⟨0, [0x64, 0x75, 0x70], [0x51]⟩], [], [], #[]⟩
        LinkConfig.default
    let p : List UInt8 := [0, 0]
    let g : List UInt8 := wrap 0x32 2 p
    ((∀ w ∈ l.machine.words, w.name.length ≤ 255) ∧
        Frame.decode g = .ok ⟨Command.queryWord, p⟩) ∧
      ((p.length < 2 → l.AnswersWith (l.handleFrame (M := Id) none g) ⟨Status.invalidFrame, []⟩) ∧
      ∀ i, Bytes.readLE16 p 0 = some i →
        (l.machine.wordCount ≤ i →
          l.AnswersWith (l.handleFrame (M := Id) none g) ⟨Status.vmError, []⟩) ∧
        ∀ w, l.machine.words[i]? = some w →
          (3 + w.name.length + w.code.length ≤ 511 →
            l.AnswersWith (l.handleFrame (M := Id) none g) ⟨Status.ok, wordPayload w.name w.code⟩) ∧
          (511 < 3 + w.name.length + w.code.length →
            l.AnswersWith (l.handleFrame (M := Id) none g) ⟨Status.bufferFull, []⟩)) := by
  intro l p g
  have hnames : ∀ w ∈ l.machine.words, w.name.length ≤ 255 := by decide
  have hg : Frame.decode g = .ok ⟨Command.queryWord, p⟩ := by decide +kernel
  exact ⟨⟨hnames, hg⟩, word_query_answers_by_size none l hnames hg⟩

end Link

end StackLink
