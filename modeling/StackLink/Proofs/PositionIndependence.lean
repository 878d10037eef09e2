import Mathlib
import StackLink.Proofs.ShiftedRuns

/-!
# Uploads behind a table

With relocation on, the link registers a container's records and main code at the next free
indices and adds the table's size `n` to every call index. The upload then does what the same
upload does to an empty table, `n` places further up
(`StackLink.Link.container_upload_is_position_independent`): the same stacks and memory, the
same answer but for listed indices, and the same failure but for word indices.

Only calls are relocated, so the code must not read a call's operand as an instruction.
Every jump that lands inside its code must land at an instruction start
(`StackLink.Code.JumpsLand`): a jump into the operand of a call runs one byte from the start
and another behind the table
(`StackLink.Link.jump_into_call_operand_breaks_position_independence`). A system call handler
must neither read nor change the table (`StackLink.SysHandler.TableBlind`).
-/

namespace StackLink

/-- Registering records `n` places further up, relocated by `n`, gives the entries registered
from the start, shifted. -/
theorem uploadEntries_shift (k n : Nat) (ds : List WordDef) :
    uploadEntries (k + n) n ds = (uploadEntries k 0 ds).map (Word.shift n) := by
  induction ds generalizing k with
  | nil => rfl
  | cons d ds ih =>
    have hhead : (⟨((k + n : Nat) : Int), d.name, Code.relocate (UInt16.ofNat n) d.code⟩ : Word) =
        (⟨(k : Int), d.name, Code.relocate (UInt16.ofNat 0) d.code⟩ : Word).shift n := by
      simp [Word.shift, Code.relocate_zero]
    rw [uploadEntries, uploadEntries, List.map_cons, hhead, Nat.add_right_comm, ih]

/-- The records registered behind `n` words, relocated by `n`, are those registered from the
start, shifted. -/
theorem uploadEntries_self (n : Nat) (ds : List WordDef) :
    uploadEntries n n ds = (uploadEntries 0 0 ds).map (Word.shift n) := by
  simpa using uploadEntries_shift 0 n ds

/-- Every entry registered from a list of records holds the code of one of them, relocated. -/
theorem code_of_mem_uploadEntries {k off : Nat} {ds : List WordDef} {w : Word}
    (hw : w ∈ uploadEntries k off ds) :
    ∃ d ∈ ds, w.code = Code.relocate (UInt16.ofNat off) d.code := by
  induction ds generalizing k with
  | nil => simp [uploadEntries] at hw
  | cons d ds ih =>
    rcases List.mem_cons.mp hw with rfl | hw
    · exact ⟨d, List.mem_cons_self, rfl⟩
    · obtain ⟨d', hd', hc⟩ := ih hw
      exact ⟨d', List.mem_cons_of_mem d hd', hc⟩

namespace Link

/-- The link with the same machine, stacks and memory, but an empty table and no word buffers. -/
def withoutWords (l : Link) : Link :=
  { l with machine := { l.machine with words := #[] }, buffers := [] }

variable {l : Link} {P : List UInt8} {h : ContainerHeader} {sys : Option (SysHandler Id)}

@[simp] theorem wordCount_withoutWords : l.withoutWords.machine.wordCount = 0 := rfl

@[simp] theorem config_withoutWords : l.withoutWords.machine.config = l.machine.config := rfl

@[simp] theorem linkConfig_withoutWords : l.withoutWords.config = l.config := rfl

/-- Adding shifted words to a link's table is adding the words to an empty table and putting
the link's own table in front. -/
theorem machine_withWords_shift (l : Link) (ws : List Word) :
    (l.withWords (ws.map (Word.shift l.machine.wordCount))).machine =
      (l.withoutWords.withWords ws).machine.afterWords l.machine.words := by
  simp [withWords, withoutWords, Machine.afterWords, Machine.wordCount]

/-- The run of the main code that an upload of a container with header `h` makes once all its
records are registered: the records and the main code go in at the next indices, relocated by
the table size when relocation is on, and the main code runs. -/
def mainRun (sys : Option (SysHandler Id)) (l : Link) (h : ContainerHeader) (P : List UInt8) :
    Machine × Except RunError Unit :=
  let n := l.machine.wordCount
  let off := if l.config.relocate then n else 0
  let defs := (h.records P).1.map (·.1)
  let main : Word := ⟨(n + defs.length : Nat), [], Code.relocate (UInt16.ofNat off) (h.main P)⟩
  Id.run ((l.withWords (uploadEntries n off defs ++ [main])).machine.exec sys main)

/-- An upload with room for every record and the main code, whose records all read, answers
from the run of its main code. -/
theorem exec_of_room (hh : Container.readHeader P = .ok h)
    (hroom : l.machine.wordCount + (h.records P).1.length < l.machine.config.maxWords)
    (hread : (h.records P).2 = none) :
    (Id.run (l.exec sys P)).1.machine = (l.mainRun sys h P).1 ∧
      (Id.run (l.exec sys P)).2 =
        runAnswer (replyFrame Status.ok (indicesPayload
            (List.range' l.machine.wordCount ((h.records P).1.length + 1))))
          (replyFrame Status.vmError []) (l.mainRun sys h P).2 := by
  rw [exec_container sys l hh]
  unfold uploadContainer mainRun
  have hroom' : ¬ l.machine.config.maxWords - l.machine.wordCount < (h.records P).1.length := by
    omega
  have hend : ¬ l.machine.config.maxWords - l.machine.wordCount = (h.records P).1.length := by
    omega
  simp only [List.length_map, hroom', hend, hread, Option.isSome_none, Bool.false_eq_true,
    if_false, Id.run_bind]
  exact ⟨rfl, rfl⟩

/-- An upload with room for every record, one of which does not read, registers the records
before it and answers `ERROR`. -/
theorem exec_of_unread (hh : Container.readHeader P = .ok h)
    (hroom : l.machine.wordCount + (h.records P).1.length < l.machine.config.maxWords)
    {e : ContainerError} (hread : (h.records P).2 = some e) :
    Id.run (l.exec sys P) = (l.withWords (uploadEntries l.machine.wordCount
        (if l.config.relocate then l.machine.wordCount else 0) ((h.records P).1.map (·.1))),
      .reply (replyFrame Status.general [])) := by
  rw [exec_container sys l hh]
  unfold uploadContainer
  have hroom' : ¬ l.machine.config.maxWords - l.machine.wordCount < (h.records P).1.length := by
    omega
  simp only [List.length_map, hroom', hread, Option.isSome_some, if_false, if_true]
  rfl

/-- **The main code runs behind the table as it runs from the start**: it ends on the same
machine behind the table, and fails with the same error but for word indices, shifted by the
table's size. -/
theorem mainRun_behind (hsys : ∀ hdl, sys = some hdl → hdl.TableBlind)
    (hrel : l.config.relocate = true)
    (hcode : ∀ code ∈ h.main P :: (h.records P).1.map (·.1.code),
      Code.Relocatable l.machine.wordCount code) :
    l.mainRun sys h P = ((l.withoutWords.mainRun sys h P).1.afterWords l.machine.words,
      (l.withoutWords.mainRun sys h P).2.mapError (RunError.shift l.machine.wordCount)) := by
  unfold mainRun
  simp only [hrel, if_true, wordCount_withoutWords, linkConfig_withoutWords, ite_self]
  simp only [List.mem_cons, forall_eq_or_imp] at hcode
  obtain ⟨hmain, hrecs⟩ := hcode
  have hdefs : ∀ d ∈ (h.records P).1.map (·.1), Code.Relocatable l.machine.wordCount d.code := by
    intro d hd
    obtain ⟨r, hr, rfl⟩ := List.mem_map.mp hd
    exact hrecs _ (List.mem_map_of_mem hr)
  generalize (h.records P).1.map (·.1) = defs at hdefs
  generalize h.main P = main at hmain
  -- behind the table the words go in `n` places further up, relocated by `n`
  set mainB : Word := ⟨((0 + defs.length : Nat) : Int), [], Code.relocate (UInt16.ofNat 0) main⟩
  have hmainw : (⟨((l.machine.wordCount + defs.length : Nat) : Int), [],
      Code.relocate (UInt16.ofNat l.machine.wordCount) main⟩ : Word) =
      mainB.shift l.machine.wordCount := by
    simp only [mainB, Word.shift, show UInt16.ofNat 0 = 0 from rfl, Code.relocate_zero,
      Word.mk.injEq, and_true]
    push_cast
    ring
  rw [hmainw, uploadEntries_self, ← List.map_singleton, ← List.map_append,
    machine_withWords_shift]
  -- every word the run can reach relocates cleanly
  have hzero : ∀ code, Code.relocate (UInt16.ofNat 0) code = code := Code.relocate_zero
  have hn : l.machine.wordCount = l.machine.words.size := rfl
  rw [hn] at hmain hdefs
  have htable : ∀ w ∈ (l.withoutWords.withWords (uploadEntries 0 0 defs ++ [mainB])).machine.words,
      Code.Relocatable l.machine.words.size w.code := by
    intro w hw
    simp only [withWords, withoutWords, Array.mem_append, List.mem_toArray, List.mem_append,
      List.mem_singleton] at hw
    rcases hw with hw | hw | rfl
    · simp at hw
    · obtain ⟨d, hd, hc⟩ := code_of_mem_uploadEntries hw
      rw [hc, hzero]
      exact hdefs d hd
    · simpa [mainB, Code.relocate_zero] using hmain
  exact Machine.exec_shift hsys htable (by simpa [mainB, Code.relocate_zero] using hmain)

/-- A failed run is answered the same from a longer table: shifting the error never turns a
failure into an abort, nor an abort into a failure. -/
theorem runAnswer_error_shift (onOk onOk' onError : List UInt8) (e : RunError) (n : Nat) :
    runAnswer onOk onError (.error (e.shift n)) = runAnswer onOk' onError (.error e) := by
  cases e <;> rfl

/-- **Uploading a container behind the table is uploading it from the start.** With room for
the whole upload and code that relocates cleanly, the upload ends on the machine the upload
from the start ends on, behind the table, so with the same stacks and memory. Its answer is
the same, except that a reply listing indices lists each one `n` places further up. -/
theorem exec_behind (hsys : ∀ hdl, sys = some hdl → hdl.TableBlind)
    (hh : Container.readHeader P = .ok h) (hrel : l.config.relocate = true)
    (hroom : l.machine.wordCount + (h.records P).1.length < l.machine.config.maxWords)
    (hcode : ∀ code ∈ h.main P :: (h.records P).1.map (·.1.code),
      Code.Relocatable l.machine.wordCount code) :
    (Id.run (l.exec sys P)).1.machine =
        (Id.run (l.withoutWords.exec sys P)).1.machine.afterWords l.machine.words ∧
      ((Id.run (l.exec sys P)).2 = (Id.run (l.withoutWords.exec sys P)).2 ∨
        ∃ idxs, (Id.run (l.withoutWords.exec sys P)).2 =
            .reply (replyFrame Status.ok (indicesPayload idxs)) ∧
          (Id.run (l.exec sys P)).2 =
            .reply (replyFrame Status.ok (indicesPayload (idxs.map (· + l.machine.wordCount))))) := by
  have hroomB : l.withoutWords.machine.wordCount + (h.records P).1.length <
      l.withoutWords.machine.config.maxWords := by
    simp only [wordCount_withoutWords, config_withoutWords]; omega
  cases hread : (h.records P).2 with
  | some e =>
    -- a record that does not read ends both uploads after the records before it
    rw [exec_of_unread hh hroom hread, exec_of_unread hh hroomB hread]
    refine ⟨?_, .inl rfl⟩
    simp only [hrel, if_true, linkConfig_withoutWords, wordCount_withoutWords, ite_self]
    rw [uploadEntries_self]
    exact machine_withWords_shift l _
  | none =>
    obtain ⟨hmA, haA⟩ := exec_of_room hh hroom hread
    obtain ⟨hmB, haB⟩ := exec_of_room (l := l.withoutWords) hh hroomB hread
    rw [hmA, hmB, haA, haB, mainRun_behind hsys hrel hcode, wordCount_withoutWords]
    refine ⟨rfl, ?_⟩
    generalize l.withoutWords.mainRun sys h P = r
    obtain ⟨m, res⟩ := r
    -- a finished run lists the indices, shifted; a failure answers alike
    cases res with
    | ok u =>
      refine .inr ⟨List.range' 0 ((h.records P).1.length + 1), rfl, ?_⟩
      -- the indices listed from the start, each `n` places further up
      have hidx : (List.range' 0 ((h.records P).1.length + 1)).map (· + l.machine.wordCount) =
          List.range' l.machine.wordCount ((h.records P).1.length + 1) := by
        simp [List.range'_eq_map_range, Nat.add_comm]
      rw [hidx]
      rfl
    | error e => exact .inl (runAnswer_error_shift _ _ _ e _)

/-- **Relocation makes container uploads position-independent.** Upload a container with
relocation on, to a link whose table already holds `n` words and has room for the whole
upload, and the same container to the link with the same stacks and memory but an empty
table. If every call of the container names an index that stays below `2^16` when `n` is
added, and every jump lands at an instruction start, then:

* the main code runs alike in both: ending on the same machine, behind the table, and
  failing at the same word, offset and opcode for the same cause, up to word indices shifted
  by `n`;
* the two uploads end on the same machine, behind the table, with the same stacks and memory;
* they answer alike, except that a reply listing indices lists each one `n` places further
  up. -/
theorem container_upload_is_position_independent (l : Link)
    (hsys : ∀ hdl, sys = some hdl → hdl.TableBlind) (hh : Container.readHeader P = .ok h)
    (hrel : l.config.relocate = true)
    (hroom : l.machine.wordCount + (h.records P).1.length < l.machine.config.maxWords)
    (hcode : ∀ code ∈ h.main P :: (h.records P).1.map (·.1.code),
      Code.Relocatable l.machine.wordCount code) :
    l.mainRun sys h P = ((l.withoutWords.mainRun sys h P).1.afterWords l.machine.words,
        (l.withoutWords.mainRun sys h P).2.mapError (RunError.shift l.machine.wordCount)) ∧
      (Id.run (l.exec sys P)).1.machine =
        (Id.run (l.withoutWords.exec sys P)).1.machine.afterWords l.machine.words ∧
      ((Id.run (l.exec sys P)).2 = (Id.run (l.withoutWords.exec sys P)).2 ∨
        ∃ idxs, (Id.run (l.withoutWords.exec sys P)).2 =
            .reply (replyFrame Status.ok (indicesPayload idxs)) ∧
          (Id.run (l.exec sys P)).2 =
            .reply (replyFrame Status.ok (indicesPayload (idxs.map (· + l.machine.wordCount))))) :=
  ⟨mainRun_behind hsys hrel hcode, exec_behind hsys hh hrel hroom hcode⟩

set_option maxRecDepth 20000 in
/-- A container with one record, whose main code calls it, uploaded behind a table of one
word. -/
theorem upload_behind_one_word_is_position_independent :
    let l : Link :=
      Link.new ⟨MachineConfig.default, #[⟨0, [], [0x51]⟩], [7], [], #[]⟩ LinkConfig.default
    let P : List UInt8 := [0x56, 0x34, 0x42, 0x43, 0x00, 0x02, 0x00, 0x00, 0x03, 0, 0, 0,
      0x01, 0, 0, 0, 0x50, 0x00, 0x00, 0x01, 0x72, 0x01, 0, 0, 0, 0x51]
    let h : ContainerHeader := ⟨0, 2, 3, 1⟩
    let sys : Option (SysHandler Id) := none
    ((∀ hdl, sys = some hdl → hdl.TableBlind) ∧ Container.readHeader P = .ok h ∧
      l.config.relocate = true ∧
      l.machine.wordCount + (h.records P).1.length < l.machine.config.maxWords ∧
      ∀ code ∈ h.main P :: (h.records P).1.map (·.1.code),
        Code.Relocatable l.machine.wordCount code) ∧
    (l.mainRun sys h P = ((l.withoutWords.mainRun sys h P).1.afterWords l.machine.words,
        (l.withoutWords.mainRun sys h P).2.mapError (RunError.shift l.machine.wordCount)) ∧
      (Id.run (l.exec sys P)).1.machine =
        (Id.run (l.withoutWords.exec sys P)).1.machine.afterWords l.machine.words ∧
      ((Id.run (l.exec sys P)).2 = (Id.run (l.withoutWords.exec sys P)).2 ∨
        ∃ idxs, (Id.run (l.withoutWords.exec sys P)).2 =
            .reply (replyFrame Status.ok (indicesPayload idxs)) ∧
          (Id.run (l.exec sys P)).2 =
            .reply (replyFrame Status.ok (indicesPayload (idxs.map (· + l.machine.wordCount)))))) := by
  intro l P h sys
  have hsys : ∀ hdl, sys = some hdl → hdl.TableBlind := fun _ hs => nomatch hs
  have hh : Container.readHeader P = .ok h := by decide +kernel
  have hrel : l.config.relocate = true := rfl
  have hroom : l.machine.wordCount + (h.records P).1.length < l.machine.config.maxWords := by
    decide +kernel
  have hcode : ∀ code ∈ h.main P :: (h.records P).1.map (·.1.code),
      Code.Relocatable l.machine.wordCount code := by decide +kernel
  exact ⟨⟨hsys, hh, hrel, hroom, hcode⟩,
    container_upload_is_position_independent l hsys hh hrel hroom hcode⟩

set_option maxRecDepth 20000 in
/-- A jump into the operand of a call breaks position independence. The main code
    JMP +1; CALL 0x51
jumps to the low byte of the call's operand. From the start that byte is the opcode of
RET and the upload answers OK. Behind one word relocation makes it 0x52, not an opcode,
and the upload answers VM_ERROR. Every call still fits. -/
theorem jump_into_call_operand_breaks_position_independence :
    let l : Link := (Id.run ((Link.new (Machine.new MachineConfig.default)
      LinkConfig.default).exec none [0x51])).1
    let P : List UInt8 := [0x56, 0x34, 0x42, 0x43, 0x00, 0x02, 0x00, 0x00, 0x06, 0, 0, 0,
      0, 0, 0, 0, 0x40, 0x01, 0x00, 0x50, 0x51, 0x00]
    let h : ContainerHeader := ⟨0, 2, 6, 0⟩
    Container.readHeader P = .ok h ∧ l.config.relocate = true ∧
      l.machine.wordCount + (h.records P).1.length < l.machine.config.maxWords ∧
      Code.CallsFit l.machine.wordCount (h.main P) ∧ ¬ Code.JumpsLand (h.main P) ∧
      (Id.run (l.exec none P)).2 = .reply (replyFrame Status.vmError []) ∧
      (Id.run (l.withoutWords.exec none P)).2 = .reply (replyFrame Status.ok (indicesPayload [0])) := by
  decide +kernel

end Link
end StackLink
