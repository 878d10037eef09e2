import Mathlib
import StackLink.Proofs.Footprint
import StackLink.Proofs.Upload
import StackLink.Proofs.Reception

/-!
# What a link goes through

A host drives a link with bytes and resets. This file says once what answering one frame can
do to a link (`StackLink.Link.Moves`). There are three things:

* nothing changes (a query, a ping, a rejected frame or upload);
* the machine and the word buffers are reset (`RESET`);
* words are added to the machine's table, each with its code kept as a word buffer, and then
  a run changes the machine's stacks and memory (an upload).

Every frame is answered by one of these (`StackLink.Link.handleFrame_moves`), and a byte
moves the receiver before that (`StackLink.Link.feed_moves`). Both rest on one inversion
lemma per step (`StackLink.Link.feed_cases`, `StackLink.Link.handleFrame_cases`,
`StackLink.Link.exec_cases`), which also says what names an upload adds. The links a host can reach
from a fresh one are `StackLink.Link.Reachable`. A property that holds of a fresh link and
survives each of the three moves, a receiver step and a reset holds of all of them
(`StackLink.Link.Reachable.induction_moves`).

The first such property is that **the word buffers follow the table**
(`StackLink.Link.Parallel`): buffer `i` is the code of word `i`, and there are as many
buffers as words (`StackLink.Link.word_buffers_follow_table`). It holds because an upload
adds a word and its buffer together, and a registration the machine refuses adds neither.

The second is that **every name fits its length byte** (`StackLink.Link.NamesFit`,
`StackLink.Link.Reachable.namesFit`). It does not survive every upload of the three moves, so
it is carried through the inversion lemmas, which say which words an upload adds.
-/

namespace StackLink

namespace Link

/-! ### What answering a frame can do -/

/-- What answering one frame can do to link `l`. -/
inductive Moves (l : Link) : Link → Prop
  /-- Nothing changes. -/
  | keep : Moves l l
  /-- The machine and the word buffers are reset. -/
  | reset : Moves l { l with machine := l.machine.reset, buffers := [] }
  /-- Words `ws` are added with their buffers, and a run leaves machine `m`. -/
  | upload (ws : List Word) (m : Machine) :
      (l.withWords ws).machine.Alike m → Moves l { l.withWords ws with machine := m }

variable {sys : Option (SysHandler Id)} {l : Link}

/-- **What an upload does to a link**: nothing, or it adds words whose names fit their length
byte and then a run leaves a machine alike to the one it was given. -/
theorem exec_cases (hsys : ∀ h, sys = some h → h.Confined) (l : Link) (P : List UInt8) :
    (Id.run (l.exec sys P)).1 = l ∨
      ∃ ws m, (∀ w ∈ ws, w.name.length ≤ 255) ∧ (l.withWords ws).machine.Alike m ∧
        (Id.run (l.exec sys P)).1 = { l.withWords ws with machine := m } := by
  cases hP : Container.isContainer P with
  | false =>
    rw [exec_bare sys l P hP, uploadBare]
    split
    · -- one unnamed word, and its run
      exact .inr ⟨_, _, by simp, Machine.exec_alike hsys _, rfl⟩
    · exact .inl rfl
  | true =>
    cases hh : Container.readHeader P with
    | error e =>
      rw [exec_badHeader sys l hP hh]
      exact .inl rfl
    | ok h =>
      have hadded : ∀ off, ∀ w ∈ uploadEntries l.machine.wordCount off
          ((h.records P).1.map (·.1)), w.name.length ≤ 255 :=
        fun _ _ hw => name_length_of_mem_uploadEntries (h.records_name_length P) hw
      rw [exec_container sys l hh, uploadContainer]
      dsimp only
      -- records only, up to a refusal or a failing record; or records, main and its run
      split
      · exact .inr ⟨_, _, fun w hw => hadded _ w (List.mem_of_mem_take hw), .refl _, rfl⟩
      split
      · exact .inr ⟨_, _, hadded _, .refl _, rfl⟩
      split
      · exact .inr ⟨_, _, hadded _, .refl _, rfl⟩
      · refine .inr ⟨_, _, fun w hw => ?_, Machine.exec_alike hsys _, rfl⟩
        rcases List.mem_append.mp hw with hw | hw
        · exact hadded _ w hw
        · -- the main code is unnamed
          rw [List.mem_singleton.mp hw]
          simp

/-- **An upload adds words and runs**, or changes nothing. -/
theorem exec_moves (hsys : ∀ h, sys = some h → h.Confined) (l : Link) (P : List UInt8) :
    l.Moves (Id.run (l.exec sys P)).1 := by
  rcases exec_cases hsys l P with h | ⟨ws, m, -, halike, h⟩ <;> rw [h]
  · exact .keep
  · exact .upload ws m halike

/-- **What answering a frame does to a link**: nothing, a reset of the machine and the word
buffers, or an upload. -/
theorem handleFrame_cases (l : Link) (g : List UInt8) :
    (Id.run (l.handleFrame sys g)).1 = l ∨
      (Id.run (l.handleFrame sys g)).1 = { l with machine := l.machine.reset, buffers := [] } ∨
      ∃ P, (Id.run (l.handleFrame sys g)).1 = (Id.run (l.exec sys P)).1 := by
  unfold handleFrame
  cases Frame.decode g with
  | error e => exact .inl rfl
  | ok r =>
    dsimp only
    split
    · exact .inr (.inr ⟨r.payload, rfl⟩)
    split
    · exact .inl rfl
    split
    · exact .inr (.inl rfl)
    split
    · exact .inl rfl
    split
    · split <;> exact .inl rfl
    split
    · split <;> exact .inl rfl
    · exact .inl rfl

/-- **Every frame is answered by one of the three moves.** -/
theorem handleFrame_moves (hsys : ∀ h, sys = some h → h.Confined) (l : Link) (g : List UInt8) :
    l.Moves (Id.run (l.handleFrame sys g)).1 := by
  rcases handleFrame_cases l g with h | h | ⟨P, h⟩ <;> rw [h]
  · exact .keep
  · exact .reset
  · exact exec_moves hsys l P

/-- A byte moves the receiver, and then the frame it completes, if any, is answered. -/
theorem feed_cases (l : Link) (b : UInt8) :
    (Id.run (l.feed sys b)).1 = { l with rx := (l.rx.step b).1 } ∨
      ∃ g, (Id.run (l.feed sys b)).1 =
        (Id.run ({ l with rx := (l.rx.step b).1 }.handleFrame sys g)).1 := by
  unfold feed
  generalize l.rx.step b = p
  obtain ⟨rx, ev⟩ := p
  rcases ev with _ | ev
  · exact .inl rfl
  · cases ev with
    | oversize n => exact .inl rfl
    | frame g => exact .inr ⟨g, rfl⟩

/-- A byte moves the receiver, and the frame it completes, if any, is answered by a move. -/
theorem feed_moves (hsys : ∀ h, sys = some h → h.Confined) (l : Link) (b : UInt8) :
    { l with rx := (l.rx.step b).1 }.Moves (Id.run (l.feed sys b)).1 := by
  rcases feed_cases l b with h | ⟨g, h⟩ <;> rw [h]
  · exact .keep
  · exact handleFrame_moves hsys _ g

/-- A byte that completes a frame has the frame answered by the link with its receiver moved. -/
theorem feed_of_frame {rx : Receiver} {g : List UInt8} (sys : Option (SysHandler Id)) (l : Link)
    {b : UInt8} (hev : l.rx.step b = (rx, some (.frame g))) :
    Id.run (l.feed sys b) =
      ((Id.run ({ l with rx }.handleFrame sys g)).1, some (Id.run ({ l with rx }.handleFrame sys g)).2) := by
  unfold feed
  rw [hev]
  rfl

/-- A `RESET` request resets the machine and the word buffers, and is answered `OK`. -/
theorem handleFrame_of_reset (sys : Option (SysHandler Id)) (l : Link) {g : List UInt8} {f : Frame}
    (hd : Frame.decode g = .ok f) (hc : f.command = Command.reset) :
    Id.run (l.handleFrame sys g) =
      ({ l with machine := l.machine.reset, buffers := [] }, .reply (replyFrame Status.ok [])) := by
  unfold handleFrame
  rw [hd]
  simp [hc, Command.reset, Command.exec, Command.ping]

/-! ### Reachable links -/

/-- The links a host can reach from a fresh link over a fresh machine, by feeding bytes and
resetting. -/
inductive Reachable (sys : Option (SysHandler Id)) (mcfg : MachineConfig) (lcfg : LinkConfig) :
    Link → Prop
  | new : Reachable sys mcfg lcfg (Link.new (Machine.new mcfg) lcfg)
  | feed {l : Link} (b : UInt8) :
      Reachable sys mcfg lcfg l → Reachable sys mcfg lcfg (Id.run (l.feed sys b)).1
  | reset {l : Link} : Reachable sys mcfg lcfg l → Reachable sys mcfg lcfg l.reset

variable {mcfg : MachineConfig} {lcfg : LinkConfig}

/-- Writing a stream is feeding its bytes one by one, up to an abort. -/
theorem Reachable.write (hl : Reachable sys mcfg lcfg l) (bs : List UInt8) :
    Reachable sys mcfg lcfg (Id.run (l.write sys bs)).1 := by
  induction bs generalizing l with
  | nil => exact hl
  | cons b bs ih =>
    have hfeed := Reachable.feed b hl
    simp only [Link.write, Id.run_bind]
    generalize Id.run (l.feed sys b) = p at hfeed
    obtain ⟨l', a⟩ := p
    -- after an abort nothing more is read; otherwise the rest of the stream follows
    rcases a with _ | a
    · exact ih hfeed
    · cases a with
      | abort r => exact hfeed
      | reply f => exact ih hfeed

/-- **What holds of a fresh link and survives every move, receiver step and reset holds of
every reachable link.** -/
theorem Reachable.induction_moves (hsys : ∀ h, sys = some h → h.Confined) {I : Link → Prop}
    (hnew : I (Link.new (Machine.new mcfg) lcfg))
    (hmove : ∀ {l l'}, I l → l.Moves l' → I l')
    (hrx : ∀ {l} (b : UInt8), I l → I { l with rx := (l.rx.step b).1 })
    (hreset : ∀ {l}, I l → I l.reset) (hl : Reachable sys mcfg lcfg l) : I l := by
  induction hl with
  | new => exact hnew
  | feed b _ ih => exact hmove (hrx b ih) (feed_moves hsys _ b)
  | reset _ ih => exact hreset ih

/-! ### The word buffers follow the table -/

/-- Buffer `i` is the code of word `i`, for every word. -/
def Parallel (l : Link) : Prop := l.buffers = l.machine.words.toList.map Word.code

theorem parallel_new (m : Machine) (lcfg : LinkConfig) (hm : m.words = #[]) :
    (Link.new m lcfg).Parallel := by
  simp [Parallel, Link.new, hm]

theorem parallel_reset (l : Link) : l.reset.Parallel := by
  simp [Parallel, Link.reset, Machine.reset]

/-- Words added with their buffers keep the two in step. -/
theorem Parallel.withWords (h : l.Parallel) (ws : List Word) : (l.withWords ws).Parallel := by
  unfold Parallel at h ⊢
  simp [Link.withWords, h]

/-- Every move keeps the word buffers in step with the table. -/
theorem Parallel.moves {l' : Link} (h : l.Parallel) (hm : l.Moves l') : l'.Parallel := by
  cases hm with
  | keep => exact h
  | reset => simp [Parallel, Machine.reset]
  | upload ws m halike =>
    -- the run keeps the table that the upload left
    have hw : (l.withWords ws).Parallel := h.withWords ws
    unfold Parallel at hw ⊢
    rw [halike.words]
    exact hw

/-- A registration is refused exactly when the table is full or the name is over 255 bytes. -/
theorem register_eq_none_iff (l : Link) (name code : List UInt8) (off : Nat) :
    l.register name code off = none ↔
      l.machine.config.maxWords ≤ l.machine.wordCount ∨ 255 < name.length := by
  rw [register_eq]
  split
  · rename_i h
    simp only [reduceCtorEq, false_iff, not_or, not_le]
    exact ⟨h.1, by omega⟩
  · rename_i h
    simp only [true_iff]
    omega

/-- **The word buffers follow the table.** On every link a host can reach from a fresh one
(with no handler or a confined one), by feeding bytes and resetting, there are as many word
buffers as words, and buffer `i` is the code of word `i`. A registration is refused exactly
when the table is full or the name too long, and then `register` gives no link, so neither
the table nor the buffers change. A reset, by `Link.reset` or by a `RESET` request, empties
both. -/
theorem word_buffers_follow_table (hsys : ∀ h, sys = some h → h.Confined)
    (hl : Reachable sys mcfg lcfg l) :
    l.wordBuffers = l.machine.wordCount ∧
      (∀ i : Nat, (l.machine.words[i]?).map Word.code = l.buffers[i]?) ∧
      (∀ name code off, l.register name code off = none ↔
        l.machine.config.maxWords ≤ l.machine.wordCount ∨ 255 < name.length) ∧
      (l.reset.wordBuffers = 0 ∧ l.reset.machine.wordCount = 0) ∧
      (∀ b g f, (l.rx.step b).2 = some (.frame g) → Frame.decode g = .ok f →
        f.command = Command.reset →
        (Id.run (l.feed sys b)).1.wordBuffers = 0 ∧
          (Id.run (l.feed sys b)).1.machine.wordCount = 0) := by
  have hpar : l.buffers = l.machine.words.toList.map Word.code :=
    Reachable.induction_moves hsys (parallel_new _ lcfg rfl) (fun h hm => h.moves hm)
      (fun _ h => h) (fun _ => parallel_reset _) hl
  refine ⟨?_, ?_, register_eq_none_iff l, ?_, ?_⟩
  · simp [wordBuffers, Machine.wordCount, hpar]
  · intro i
    rw [hpar, List.getElem?_map, Array.getElem?_toList]
  · simp [wordBuffers, Link.reset, Machine.reset, Machine.wordCount]
  · intro b g f hev hdec hcmd
    have hstep : l.rx.step b = ((l.rx.step b).1, some (.frame g)) := by rw [← hev]
    rw [feed_of_frame sys l hstep, handleFrame_of_reset sys _ hdec hcmd]
    simp [wordBuffers, Machine.reset, Machine.wordCount]

/-- The buffers follow the table on a fresh link that has been sent an upload of bare code
(`RET`) and then reset, with no handler. -/
theorem word_buffers_follow_table_after_upload :
    let fresh := Link.new (Machine.new MachineConfig.default) LinkConfig.default
    let l := (Id.run (fresh.write none (wrap 0x10 1 [0x51]))).1
    Reachable none MachineConfig.default LinkConfig.default l ∧
      l.wordBuffers = l.machine.wordCount ∧
      (∀ i : Nat, (l.machine.words[i]?).map Word.code = l.buffers[i]?) ∧
      (∀ name code off, l.register name code off = none ↔
        l.machine.config.maxWords ≤ l.machine.wordCount ∨ 255 < name.length) ∧
      (l.reset.wordBuffers = 0 ∧ l.reset.machine.wordCount = 0) ∧
      (∀ b g f, (l.rx.step b).2 = some (.frame g) → Frame.decode g = .ok f →
        f.command = Command.reset →
        (Id.run (l.feed none b)).1.wordBuffers = 0 ∧
          (Id.run (l.feed none b)).1.machine.wordCount = 0) :=
  have hl := Reachable.write .new (wrap 0x10 1 [0x51])
  ⟨hl, word_buffers_follow_table (fun _ h => by cases h) hl⟩

/-! ### Names fit their length byte -/

/-- Every word of the table has a name of at most 255 bytes, so that its length fits the one
byte a word query gives it. -/
def NamesFit (l : Link) : Prop := ∀ w ∈ l.machine.words, w.name.length ≤ 255

theorem namesFit_of_words_eq_empty (h : l.machine.words = #[]) : l.NamesFit := by
  intro w hw
  rw [h] at hw
  simp at hw

/-- An upload keeps every name within a byte: the machine refuses a longer one. -/
theorem NamesFit.exec (hsys : ∀ h, sys = some h → h.Confined) (h : l.NamesFit) (P : List UInt8) :
    (Id.run (l.exec sys P)).1.NamesFit := by
  rcases exec_cases hsys l P with hl | ⟨ws, m, hws, halike, hl⟩ <;> rw [hl]
  · exact h
  · -- the run keeps the table the upload built: the old words, then the new ones
    intro w hw
    change w ∈ m.words at hw
    simp only [halike.words, withWords, Array.mem_append, List.mem_toArray] at hw
    rcases hw with hw | hw
    · exact h w hw
    · exact hws w hw

theorem NamesFit.handleFrame (hsys : ∀ h, sys = some h → h.Confined) (h : l.NamesFit)
    (g : List UInt8) : (Id.run (l.handleFrame sys g)).1.NamesFit := by
  rcases handleFrame_cases l g with hl | hl | ⟨P, hl⟩ <;> rw [hl]
  · exact h
  · exact namesFit_of_words_eq_empty rfl
  · exact h.exec hsys P

theorem NamesFit.feed (hsys : ∀ h, sys = some h → h.Confined) (h : l.NamesFit) (b : UInt8) :
    (Id.run (l.feed sys b)).1.NamesFit := by
  rcases feed_cases l b with hl | ⟨g, hl⟩ <;> rw [hl]
  · exact h
  · -- the receiver's step leaves the table alone
    have hrx : ({ l with rx := (l.rx.step b).1 } : Link).NamesFit := h
    exact hrx.handleFrame hsys g

/-- **Every word a reachable link holds has a name of at most 255 bytes.** A fresh link and a
reset one have no words; a registration refuses a longer name, and a container's records
give their names' lengths in one byte. So what the word queries assume of a link's names
holds of every link a host can reach. -/
theorem Reachable.namesFit (hsys : ∀ h, sys = some h → h.Confined)
    (hl : Reachable sys mcfg lcfg l) : l.NamesFit := by
  induction hl with
  | new => exact namesFit_of_words_eq_empty rfl
  | feed b _ ih => exact ih.feed hsys b
  | reset _ => exact namesFit_of_words_eq_empty rfl

end Link

end StackLink
