import Mathlib
import StackLink.Device.Link
import StackLink.Proofs.CodeWalks

/-!
# Uploading code

An `EXEC` request carries either bare code or a container. This file says what
the link does with each, in the words of the protocol rather than of the loop
that does it: `StackLink.Link.uploadBare` and `StackLink.Link.uploadContainer`
describe the two uploads without a loop, and the link's `exec` is shown to be
them.

* **Bare code** is registered as one unnamed word at the end of the table, with
  its calls left as they are, and run; the reply lists its index whatever the
  run did, unless the table is full, when nothing is registered
  (`StackLink.Link.exec_bare`).
* **A container whose header does not read** changes nothing and is answered
  `ERROR` (`StackLink.Link.exec_badHeader`).
* **A readable container** has its records registered in order at the next
  indices, under their names, with their calls relocated by the table size
  taken once before the first (or by zero when relocation is off). Registration
  stops at the first record the table has no room for (`VM_ERROR`) or, if all
  fit, at the first record that does not read (`ERROR`); what was registered
  stays. Otherwise the main code is registered after the records and run; the
  reply lists every index when the run finishes and is `VM_ERROR` when it fails,
  all registrations kept (`StackLink.Link.exec_container`).

Two facts carry the equations. Relocating by zero leaves the code as it is
(`StackLink.Code.relocate_zero`). And registering a list of records
adds, in one go, the table entries `StackLink.uploadEntries` at consecutive
indices, as many as the table has room for (`StackLink.Link.registerAll_eq`).
A run that a system call handler aborts is passed on as the abort
(`StackLink.Link.runAnswer`).
-/

namespace StackLink

/-! ### Relocating by zero -/

/-- **Relocating by zero changes nothing.** -/
theorem Code.relocate_zero (code : List UInt8) : Code.relocate 0 code = code := if_pos rfl

/-! ### Registering records -/

/-- The table entries of code strings registered one after another from index `n`, under their
names, with their calls relocated by `off`. -/
def uploadEntries (n off : Nat) : List WordDef → List Word
  | [] => []
  | d :: ds => ⟨n, d.name, Code.relocate (UInt16.ofNat off) d.code⟩ :: uploadEntries (n + 1) off ds

@[simp]
theorem length_uploadEntries (n off : Nat) (ds : List WordDef) :
    (uploadEntries n off ds).length = ds.length := by
  induction ds generalizing n with
  | nil => rfl
  | cons d ds ih => simp [uploadEntries, ih]

/-- The entries carry the names of the records, so they fit a length byte when those do. -/
theorem name_length_of_mem_uploadEntries {n off : Nat} {ds : List WordDef}
    (hds : ∀ d ∈ ds, d.name.length ≤ 255) {w : Word} (hw : w ∈ uploadEntries n off ds) :
    w.name.length ≤ 255 := by
  induction ds generalizing n with
  | nil => simp [uploadEntries] at hw
  | cons d ds ih =>
    rcases List.mem_cons.mp hw with rfl | hw
    · exact hds d List.mem_cons_self
    · exact ih (fun d' hd' => hds d' (List.mem_cons_of_mem d hd')) hw

/-- The first `k` entries are those of the first `k` records. -/
theorem uploadEntries_take (n off k : Nat) (ds : List WordDef) :
    (uploadEntries n off ds).take k = uploadEntries n off (ds.take k) := by
  induction ds generalizing n k with
  | nil => simp [uploadEntries]
  | cons d ds ih =>
    cases k with
    | zero => simp [uploadEntries]
    | succ k => simp [uploadEntries, ih]

/-- A payload whose header reads starts like a container. -/
theorem Container.isContainer_of_readHeader {P : List UInt8} {h : ContainerHeader}
    (hh : Container.readHeader P = .ok h) : Container.isContainer P = true := by
  cases hc : Container.isContainer P
  · simp [Container.readHeader, hc] at hh
  · rfl

/-- A record's name is at most 255 bytes: its length is one byte. -/
theorem Container.recordAt_name_length {P : List UInt8} {index pos p : Nat} {w : WordDef}
    (h : Container.recordAt P index pos = .ok (w, p)) : w.name.length ≤ 255 := by
  unfold Container.recordAt at h
  split at h
  · cases h
  · rename_i len _
    dsimp only at h
    split at h
    · cases h
    · split at h
      · cases h
      · split at h
        · cases h
        · simp only [Except.ok.injEq, Prod.mk.injEq] at h
          obtain ⟨rfl, -⟩ := h
          have := len.toNat_lt
          simp only [List.length_take]
          omega

/-- Every record a reader hands out has a name of at most 255 bytes. -/
theorem Container.recordsFrom_name_length (P : List UInt8) (index pos k : Nat) :
    ∀ w ∈ (Container.recordsFrom P index pos k).1, w.1.name.length ≤ 255 := by
  induction k generalizing index pos with
  | zero => simp [Container.recordsFrom]
  | succ k ih =>
    unfold Container.recordsFrom
    split
    · simp
    · rename_i w p hw
      intro x hx
      rcases List.mem_cons.mp hx with rfl | hx
      · exact Container.recordAt_name_length hw
      · exact ih _ _ x hx

/-- Every record of a container has a name of at most 255 bytes. -/
theorem ContainerHeader.records_name_length (h : ContainerHeader) (P : List UInt8) :
    ∀ d ∈ (h.records P).1.map (·.1), d.name.length ≤ 255 := by
  intro d hd
  obtain ⟨w, hw, rfl⟩ := List.mem_map.mp hd
  exact Container.recordsFrom_name_length _ _ _ _ w hw

namespace Link

/-- A link whose machine has `ws` added at the end of its table, with their code kept as word
buffers. -/
def withWords (l : Link) (ws : List Word) : Link :=
  { l with machine := { l.machine with words := l.machine.words ++ ws.toArray },
           buffers := l.buffers ++ ws.map Word.code }

@[simp] theorem withWords_nil (l : Link) : l.withWords [] = l := by
  simp [withWords]

theorem withWords_append (l : Link) (ws vs : List Word) :
    (l.withWords ws).withWords vs = l.withWords (ws ++ vs) := by
  simp [withWords, Array.append_assoc]

@[simp] theorem wordCount_withWords (l : Link) (ws : List Word) :
    (l.withWords ws).machine.wordCount = l.machine.wordCount + ws.length := by
  simp [withWords, Machine.wordCount]

@[simp] theorem config_withWords (l : Link) (ws : List Word) :
    (l.withWords ws).machine.config = l.machine.config := rfl

@[simp] theorem linkConfig_withWords (l : Link) (ws : List Word) :
    (l.withWords ws).config = l.config := rfl

@[simp] theorem rx_withWords (l : Link) (ws : List Word) : (l.withWords ws).rx = l.rx := rfl

/-- A registration succeeds while the table has room and the name fits a byte, and adds one
entry at the current count. -/
theorem register_eq (l : Link) (name code : List UInt8) (off : Nat) :
    l.register name code off =
      if l.machine.wordCount < l.machine.config.maxWords ∧ name.length ≤ 255 then
        some (l.withWords [⟨l.machine.wordCount, name, Code.relocate (UInt16.ofNat off) code⟩],
          l.machine.wordCount)
      else none := by
  unfold register Machine.registerWord
  by_cases hfull : l.machine.words.size ≥ l.machine.config.maxWords
  · have : ¬ l.machine.wordCount < l.machine.config.maxWords := by
      simp only [Machine.wordCount]; omega
    simp [hfull, this]
  · by_cases hname : name.length > 255
    · simp [hfull, hname]
    · have h1 : l.machine.wordCount < l.machine.config.maxWords := by
        simp only [Machine.wordCount]; omega
      simp [hfull, hname, withWords, Machine.wordCount]

/-- **Registering a list of records** adds, at consecutive indices, the entries of as many of
them as the table has room for, and reports whether all of them fit. -/
theorem registerAll_eq (l : Link) (off : Nat) (ds : List WordDef)
    (hnames : ∀ d ∈ ds, d.name.length ≤ 255) :
    l.registerAll off ds =
      (l.withWords (uploadEntries l.machine.wordCount off
          (ds.take (min ds.length (l.machine.config.maxWords - l.machine.wordCount)))),
        List.range' l.machine.wordCount
          (min ds.length (l.machine.config.maxWords - l.machine.wordCount)),
        decide (ds.length ≤ l.machine.config.maxWords - l.machine.wordCount)) := by
  induction ds generalizing l with
  | nil => simp [registerAll, uploadEntries]
  | cons d ds ih =>
    rw [registerAll, register_eq]
    by_cases hroom : l.machine.wordCount < l.machine.config.maxWords
    · rw [if_pos ⟨hroom, hnames d List.mem_cons_self⟩]
      simp only
      -- the rest goes in one index further on, with one place fewer
      rw [ih _ (fun d' hd' => hnames d' (List.mem_cons_of_mem d hd'))]
      have hk : min (ds.length + 1) (l.machine.config.maxWords - l.machine.wordCount) =
          min ds.length (l.machine.config.maxWords - (l.machine.wordCount + 1)) + 1 := by omega
      have hfit : ds.length ≤ l.machine.config.maxWords - (l.machine.wordCount + 1) ↔
          ds.length + 1 ≤ l.machine.config.maxWords - l.machine.wordCount := by omega
      simp only [wordCount_withWords, config_withWords, List.length_cons, List.length_nil,
        Nat.zero_add, hk, withWords_append, List.take_succ_cons, uploadEntries, List.range'_succ,
        List.singleton_append, hfit]
    · rw [if_neg (fun h => hroom h.1)]
      have hk : min (ds.length + 1) (l.machine.config.maxWords - l.machine.wordCount) = 0 := by
        omega
      simp [hk, uploadEntries]
      omega

/-- The word at index `n + i`, after `ws` is added to a table of `n`, is the `i`-th of `ws`. -/
theorem word?_withWords (l : Link) (ws : List Word) (i : Nat) :
    (l.withWords ws).machine.word? (l.machine.wordCount + i : Nat) = ws[i]? := by
  have hnn : ¬ ((l.machine.wordCount + i : Nat) : Int) < 0 := by omega
  rw [Machine.word?, if_neg hnn, Int.toNat_natCast]
  simp [withWords, Machine.wordCount, Array.getElem?_append_right]

/-- The last of the words added is found at the index after the others. -/
theorem word?_withWords_concat (l : Link) (ws : List Word) (w : Word) :
    (l.withWords (ws ++ [w])).machine.word? (l.machine.wordCount + ws.length : Nat) = some w := by
  rw [word?_withWords]
  simp

/-- How an upload answers the run of the code it registered: an abort of the system call
handler is passed on; otherwise `onOk` when the run finished and `onError` when it failed. -/
def runAnswer (onOk onError : List UInt8) : Except RunError Unit → Answer
  | .ok () => .reply onOk
  | .error (.abort s) => .abort s
  | .error _ => .reply onError

variable {M : Type → Type} [Monad M]

/-- An upload of bare code as the protocol describes it: one unnamed word, unrelocated, at
the next index, run, and answered with that index whatever the run did; nothing when the
table is full. -/
def uploadBare (sys : Option (SysHandler M)) (l : Link) (P : List UInt8) : M (Link × Answer) :=
  if l.machine.wordCount < l.machine.config.maxWords then
    let w : Word := ⟨l.machine.wordCount, [], P⟩
    let ok := replyFrame Status.ok (indicesPayload [l.machine.wordCount])
    (l.withWords [w]).machine.exec sys w >>= fun (m, r) =>
      pure ({ l.withWords [w] with machine := m }, runAnswer ok ok r)
  else pure (l, .reply (replyFrame Status.vmError []))

/-- An upload of a container with header `h` as the protocol describes it. The records go
in at the next indices, relocated by the count taken before the first (by zero when
relocation is off); a table without room for all of them takes those it can (`VM_ERROR`); a
record that does not read ends the upload after the ones before it (`ERROR`); otherwise the
main code goes in after them and is run, and the reply lists every index. -/
def uploadContainer (sys : Option (SysHandler M)) (l : Link) (h : ContainerHeader)
    (P : List UInt8) : M (Link × Answer) :=
  let n := l.machine.wordCount
  let off := if l.config.relocate then n else 0
  let defs := (h.records P).1.map (·.1)
  let room := l.machine.config.maxWords - n
  let added := uploadEntries n off defs
  if room < defs.length then
    pure (l.withWords (added.take room), .reply (replyFrame Status.vmError []))
  else if (h.records P).2.isSome then
    pure (l.withWords added, .reply (replyFrame Status.general []))
  else if room = defs.length then
    pure (l.withWords added, .reply (replyFrame Status.vmError []))
  else
    let main : Word := ⟨(n + defs.length : Nat), [], Code.relocate (UInt16.ofNat off) (h.main P)⟩
    let ok := replyFrame Status.ok (indicesPayload (List.range' n (defs.length + 1)))
    (l.withWords (added ++ [main])).machine.exec sys main >>= fun (m, r) =>
      pure ({ l.withWords (added ++ [main]) with machine := m },
        runAnswer ok (replyFrame Status.vmError []) r)

/-- **Bare code** is uploaded as the protocol describes. -/
theorem exec_bare (sys : Option (SysHandler M)) (l : Link) (P : List UInt8)
    (hP : Container.isContainer P = false) : l.exec sys P = l.uploadBare sys P := by
  rw [uploadBare]
  unfold Link.exec
  rw [if_neg (by simp [hP]), register_eq]
  by_cases hroom : l.machine.wordCount < l.machine.config.maxWords
  · rw [if_pos ⟨hroom, by simp⟩, if_pos hroom]
    have hword := word?_withWords_concat l [] ⟨l.machine.wordCount, [], P⟩
    simp only [List.nil_append, List.length_nil, Nat.add_zero] at hword
    rw [show UInt16.ofNat 0 = 0 from rfl, Code.relocate_zero]
    simp only [hword]
    congr 1
    funext ⟨m, r⟩
    rcases r with e | _
    · cases e <;> rfl
    · rfl
  · rw [if_neg (fun h => hroom h.1), if_neg hroom]

/-- **A container whose header does not read** changes nothing and is answered `ERROR`. -/
theorem exec_badHeader (sys : Option (SysHandler M)) (l : Link) {P : List UInt8}
    (hP : Container.isContainer P = true) {e : ContainerError}
    (he : Container.readHeader P = .error e) :
    l.exec sys P = pure (l, .reply (replyFrame Status.general [])) := by
  unfold Link.exec Link.execContainer
  rw [if_pos hP, he]

/-- **A readable container** is uploaded as the protocol describes. -/
theorem exec_container (sys : Option (SysHandler M)) (l : Link) {P : List UInt8}
    {h : ContainerHeader} (hh : Container.readHeader P = .ok h) :
    l.exec sys P = l.uploadContainer sys h P := by
  rw [uploadContainer]
  have hc := Container.isContainer_of_readHeader hh
  have hnames := h.records_name_length P
  unfold Link.exec Link.execContainer
  rw [if_pos hc, hh]
  simp only
  generalize (if l.config.relocate = true then l.machine.wordCount else 0) = off
  generalize (h.records P) = rs at hnames ⊢
  obtain ⟨recs, fail⟩ := rs
  simp only at hnames ⊢
  rw [registerAll_eq _ _ _ hnames]
  generalize recs.map (·.1) = defs at hnames ⊢
  by_cases hroom : l.machine.config.maxWords - l.machine.wordCount < defs.length
  · have hk : min defs.length (l.machine.config.maxWords - l.machine.wordCount) =
        l.machine.config.maxWords - l.machine.wordCount := by omega
    have hfit : decide (defs.length ≤ l.machine.config.maxWords - l.machine.wordCount) = false := by
      simp only [decide_eq_false_iff_not]; omega
    rw [hk, hfit, if_pos hroom, uploadEntries_take]
  · have hk : min defs.length (l.machine.config.maxWords - l.machine.wordCount) = defs.length := by
      omega
    have hfit : decide (defs.length ≤ l.machine.config.maxWords - l.machine.wordCount) = true := by
      simp only [decide_eq_true_eq]; omega
    rw [hk, hfit, if_neg hroom, List.take_length]
    simp only
    -- every record fits; what is left depends on how the reader stopped
    cases fail with
    | some e => simp
    | none =>
      simp only [Option.isSome_none, Bool.false_eq_true, if_false]
      rw [register_eq]
      simp only [wordCount_withWords, length_uploadEntries, config_withWords, List.length_nil,
        Nat.zero_le, and_true]
      by_cases hend : l.machine.config.maxWords - l.machine.wordCount = defs.length
      · rw [if_neg (by omega), if_pos hend]
      · rw [if_pos (by omega), if_neg hend]
        simp only
        rw [withWords_append]
        -- the main code is the last word added, right after the records
        have hword := word?_withWords_concat l (uploadEntries l.machine.wordCount off defs)
          ⟨(l.machine.wordCount + defs.length : Nat), [],
            Code.relocate (UInt16.ofNat off) (h.main P)⟩
        rw [length_uploadEntries] at hword
        simp only [hword]
        have hidx : List.range' l.machine.wordCount defs.length ++
            [l.machine.wordCount + defs.length] =
            List.range' l.machine.wordCount (defs.length + 1) := by
          rw [List.range'_concat]
          simp
        rw [hidx]
        congr 1
        funext ⟨m, r⟩
        rcases r with e | _
        · cases e <;> rfl
        · rfl

/-- **What an upload does.** Bare code is registered as one unnamed word at the next index
and run, the reply listing that index; a container whose header does not read changes
nothing and is answered `ERROR`; a readable container has its records registered in order,
relocated once, up to the first refusal or failing record, and then its main code registered
and run, the reply listing every index. -/
theorem exec_registers_then_runs (sys : Option (SysHandler M)) (l : Link) (P : List UInt8) :
    (Container.isContainer P = false → l.exec sys P = l.uploadBare sys P) ∧
    (Container.isContainer P = true → ∀ e, Container.readHeader P = .error e →
      l.exec sys P = pure (l, .reply (replyFrame Status.general []))) ∧
    (∀ h, Container.readHeader P = .ok h → l.exec sys P = l.uploadContainer sys h P) :=
  ⟨exec_bare sys l P, fun hP _ he => exec_badHeader sys l hP he,
    fun _ hh => exec_container sys l hh⟩

/-- A container whose main code would run past its end leaves a fresh link as it was. -/
theorem exec_keeps_link_on_truncated_container :
    (Link.new (Machine.new MachineConfig.default) LinkConfig.default).exec (M := Id) none
        (Container.magic ++ [1, 2, 0, 0, 255, 0, 0, 0, 0, 0, 0, 0]) =
      pure (Link.new (Machine.new MachineConfig.default) LinkConfig.default,
        .reply (replyFrame Status.general [])) :=
  (exec_registers_then_runs none _ _).2.1 (by decide) (.mainPastEnd 255 16) (by decide)

end Link

end StackLink
