import Mathlib
import StackLink.Host.Client
import StackLink.Proofs.Queries
import StackLink.Proofs.Footprint

/-!
# The host reads back what the link writes

A host reads each reply to a typed request in two steps: the reply frame must decode and have
status `OK` (any other status is returned as the error), and then its payload is read by the
parser of that request's layout. This file shows that each parser inverts the link's layout.

* **From the link to the host.** Whatever the link's state and the request, the host reads
  an upload's reply as the indices of the words the upload added, in order, as 16-bit values;
  a stack query's reply as the two stack windows, bottom first; a memory query's reply as its
  bytes, never more than were asked for; and a word query's reply as the word's name and
  code. A reply that is not `OK` is read as its status (`StackLink.Client.ReadsAs`).
* **From the host back to the link.** Every payload a parser accepts is the link's layout of
  what the parser returns: no parser accepts trailing or missing bytes.

The two directions are, for each layout, a pair of lemmas (`parseIndices_indicesPayload` and
`indicesPayload_of_parseIndices`, and likewise for stack windows and words). They rest on the
little-endian field lemmas of `StackLink.Proofs.Fields`. The upload's side rests on
`StackLink.Link.exec_reply`: an upload is answered `OK` with the indices of the words it
added, or with a bare failure status. The two directions for every reply a link sends are
`StackLink.Link.client_reads_back_link_replies`.
-/

namespace StackLink

/-! ### Reading a reply -/

namespace Client

/-- What the caller of a typed request for `cmd` gets from the reply frame `f`: the payload of
an `OK` reply read by `parse`, or the error that the reply is. -/
def readReply {α : Type} (cmd : Command) (parse : List UInt8 → Except ClientError α)
    (f : List UInt8) : Except ClientError α :=
  decodeReply cmd f >>= fun r => parse r.extra

/-- The host reads reply frame `f` as `v` when the reply is `OK`, and as the reply's own status
otherwise. -/
def ReadsAs {α : Type} (cmd : Command) (parse : List UInt8 → Except ClientError α)
    (f : List UInt8) (v : α) : Prop :=
  ∃ r, Reply.decode f = .ok r ∧
    readReply cmd parse f = if r.status = Status.ok then .ok v else .error (.status r)

variable {α : Type} {cmd : Command} {parse : List UInt8 → Except ClientError α} {v : α}

/-- An `OK` reply that fits a frame is read by its payload's parser. -/
theorem readReply_replyFrame_ok {extra : List UInt8} (h : extra.length + 1 ≤ maxPayload) :
    readReply cmd parse (replyFrame Status.ok extra) = parse extra := by
  unfold readReply decodeReply
  rw [decode_replyFrame, if_pos h]
  rfl

/-- A reply that fits a frame and is not `OK` is read as its status. -/
theorem readReply_replyFrame_of_ne {s : Status} {extra : List UInt8} (hs : s ≠ Status.ok)
    (h : extra.length + 1 ≤ maxPayload) :
    readReply cmd parse (replyFrame s extra) = .error (.status ⟨s, extra⟩) := by
  unfold readReply decodeReply
  rw [decode_replyFrame, if_pos h]
  simp only [if_neg hs]
  rfl

/-- **A reply frame is read as its parsed payload or as its status**: the host reads the
link's reply frame as `v` as soon as an `OK` payload that fits a frame parses as `v`. -/
theorem readsAs_replyFrame {s : Status} {extra : List UInt8}
    (h : s = Status.ok → extra.length + 1 ≤ maxPayload → parse extra = .ok v) :
    ReadsAs cmd parse (replyFrame s extra) v := by
  by_cases hfit : extra.length + 1 ≤ maxPayload
  · refine ⟨⟨s, extra⟩, by rw [decode_replyFrame, if_pos hfit], ?_⟩
    by_cases hs : s = Status.ok
    · subst hs
      rw [if_pos rfl, readReply_replyFrame_ok hfit]
      exact h rfl hfit
    · rw [if_neg hs, readReply_replyFrame_of_ne hs hfit]
  · -- the frame is the stand-in `BUFFER_FULL`, which is not `OK`
    have hbf : Status.bufferFull ≠ Status.ok := by decide
    have hbare : ([] : List UInt8).length + 1 ≤ maxPayload := by simp [maxPayload]
    rw [replyFrame_of_too_long (by omega)]
    refine ⟨⟨Status.bufferFull, []⟩, by rw [decode_replyFrame, if_pos hbare], ?_⟩
    rw [if_neg hbf, readReply_replyFrame_of_ne hbf hbare]

/-- A memory reply no longer than asked for is read as it is. -/
theorem parseMemory_of_le {asked : Nat} {p : List UInt8} (h : p.length ≤ asked) :
    parseMemory asked p = .ok p := by
  rw [parseMemory, if_neg (by omega)]

/-- A memory request carries its address and length as the fields the link reads. -/
theorem readLE_memoryRequest (addr : UInt32) (n : UInt16) :
    Bytes.readLE32 (memoryRequest addr n) 0 = some addr.toNat ∧
      Bytes.readLE16 (memoryRequest addr n) 4 = some n.toNat := by
  constructor
  · rw [memoryRequest, Bytes.readLE32_le32_append addr.toNat_lt]
  · -- the length is the field right after the four address bytes
    rw [Bytes.readLE16, memoryRequest, ← Bytes.length_le32 addr.toNat,
      ← Nat.add_zero (List.length _), Bytes.readLE_append_right, ← Bytes.readLE16,
      Bytes.readLE16_le16 n.toNat_lt]

/-- A word request carries its index as the field the link reads. -/
theorem readLE16_wordRequest (i : UInt16) : Bytes.readLE16 (wordRequest i) 0 = some i.toNat :=
  Bytes.readLE16_le16 i.toNat_lt

end Client

/-! ### Indices -/

/-- **An upload's reply reads back** as its indices, as 16-bit values, when there are fewer
than 256 of them. -/
theorem Client.parseIndices_indicesPayload {idxs : List Nat} (h : idxs.length < 256) :
    Client.parseIndices (Link.indicesPayload idxs) = .ok (idxs.map UInt16.ofNat) := by
  have hcount : (UInt8.ofNat idxs.length).toNat = idxs.length := UInt8.toNat_ofNat_of_lt' h
  have hlen : (idxs.flatMap Bytes.le16).length = 2 * idxs.length :=
    Bytes.length_flatMap_of_width _ Bytes.length_le16 idxs
  have hfields := Bytes.map_range_readLE_map Bytes.le16 UInt16.ofNat Bytes.length_le16 idxs []
  rw [List.append_nil] at hfields
  rw [Link.indicesPayload, Client.parseIndices, hcount, if_pos hlen, Except.ok.injEq]
  refine hfields.trans (List.map_congr_left fun x _ => ?_)
  -- each index is read back as its low sixteen bits
  simp [Bytes.leValue_le16_mod, UInt16.ofNat_mod_size']

/-- An index listing that fits a reply frame is read back as its indices. -/
theorem Client.parseIndices_of_fits {idxs : List Nat}
    (h : (Link.indicesPayload idxs).length + 1 ≤ maxPayload) :
    Client.parseIndices (Link.indicesPayload idxs) = .ok (idxs.map UInt16.ofNat) := by
  -- two bytes an index after the count, in a frame of at most `maxPayload` bytes
  simp only [Link.indicesPayload, List.length_cons,
    Bytes.length_flatMap_of_width _ Bytes.length_le16, maxPayload] at h
  exact Client.parseIndices_indicesPayload (by omega)

/-- **What the index parser accepts is an upload's reply**: the count and the indices it
returned, written back as the link writes them. -/
theorem Link.indicesPayload_of_parseIndices {p : List UInt8} {v : List UInt16}
    (h : Client.parseIndices p = .ok v) : Link.indicesPayload (v.map (·.toNat)) = p := by
  match p, h with
  | n :: rest, h =>
    rw [Client.parseIndices] at h
    by_cases hlen : rest.length = 2 * n.toNat
    · rw [if_pos hlen] at h
      cases h
      -- each index is written back as the two bytes it was read from
      have henc : ∀ c : List UInt8, c.length = 2 →
          Bytes.le16 (UInt16.ofNat (Bytes.leValue c)).toNat = c := by
        intro c hc
        rw [UInt16.toNat_ofNat', Nat.mod_eq_of_lt (by
          simpa using Bytes.leValue_lt_of_length_two hc), Bytes.le16_leValue_of_length_two hc]
      rw [Link.indicesPayload, List.map_map, List.length_map, List.length_range, UInt8.ofNat_toNat,
        List.flatMap_map]
      congr 1
      exact Bytes.flatMap_range_readLE (fun x => Bytes.le16 (UInt16.ofNat x).toNat) henc _ rest hlen
    · rw [if_neg hlen] at h
      cases h

/-! ### Stack windows -/

/-- A 32-bit cell written out and read back. -/
theorem Int32.ofNat_leValue_le32 (v : Int32) :
    Int32.ofNat (Bytes.leValue (Bytes.le32 v.toUInt32.toNat)) = v := by
  rw [Bytes.leValue_le32 v.toUInt32.toNat_lt, ← Int32.toBitVec_inj]
  simp

/-- **One stack window reads back**, whatever follows it, when it holds fewer than 256 cells. -/
theorem Client.parseStack_windowPayload {cells : List Int32} (h : cells.length < 256)
    (tail : List UInt8) :
    Client.parseStack (Link.windowPayload cells ++ tail) = .ok (cells, tail) := by
  have hcount : (UInt8.ofNat cells.length).toNat = cells.length := UInt8.toNat_ofNat_of_lt' h
  have hwidth : ∀ v : Int32, (Bytes.le32 v.toUInt32.toNat).length = 4 := fun v => Bytes.length_le32 _
  have hlen : (cells.flatMap fun v => Bytes.le32 v.toUInt32.toNat).length = 4 * cells.length :=
    Bytes.length_flatMap_of_width _ hwidth cells
  -- each cell is read back as the 32 bits it was written as
  have hfields := Bytes.map_range_readLE_map _ Int32.ofNat hwidth cells tail
  rw [List.map_congr_left fun v _ => Int32.ofNat_leValue_le32 v, List.map_id'] at hfields
  rw [Link.windowPayload, List.cons_append, Client.parseStack, hcount,
    if_neg (by rw [List.length_append, hlen]; omega), Except.ok.injEq, Prod.mk.injEq]
  exact ⟨hfields, by rw [← hlen, List.drop_left]⟩

/-- **The two stack windows read back** when each holds fewer than 256 cells. -/
theorem Client.parseStacks_windowPayload {d r : List Int32} (hd : d.length < 256)
    (hr : r.length < 256) :
    Client.parseStacks (Link.windowPayload d ++ Link.windowPayload r) = .ok (d, r) := by
  have hr' : Client.parseStack (Link.windowPayload r) = .ok (r, []) := by
    simpa using Client.parseStack_windowPayload hr []
  simp [Client.parseStacks, Client.parseStack_windowPayload hd, hr', bind, Except.bind, pure,
    Except.pure]

/-- **What the stack parser accepts is one window**: the count and the cells it returned, written
back as the link writes them, followed by the rest it returned. -/
theorem Link.windowPayload_of_parseStack {p tail : List UInt8} {cells : List Int32}
    (h : Client.parseStack p = .ok (cells, tail)) : Link.windowPayload cells ++ tail = p := by
  match p, h with
  | n :: rest, h =>
    rw [Client.parseStack] at h
    by_cases hshort : rest.length < 4 * n.toNat
    · rw [if_pos hshort] at h
      cases h
    · rw [if_neg hshort] at h
      cases h
      -- the cells come from the first `4 n` bytes, and what is left is the rest
      have hfirst : (rest.take (4 * n.toNat)).length = 4 * n.toNat :=
        List.length_take_of_le (by omega)
      have henc : ∀ c : List UInt8, c.length = 4 →
          Bytes.le32 (Int32.ofNat (Bytes.leValue c)).toUInt32.toNat = c := by
        intro c hc
        rw [Int32.toUInt32_ofNat', UInt32.toNat_ofNat', Bytes.le32_mod, Bytes.le32_leValue hc]
      have hin : ∀ i ∈ List.range n.toNat,
          Bytes.readLE32 rest (4 * i) = Bytes.readLE 4 (rest.take (4 * n.toNat)) (4 * i) := by
        intro i hi
        rw [List.mem_range] at hi
        conv_lhs => rw [← List.take_append_drop (4 * n.toNat) rest]
        exact Bytes.readLE_append_left (by omega) _
      rw [Link.windowPayload, List.length_map, List.length_range, UInt8.ofNat_toNat,
        List.flatMap_map, List.cons_append]
      congr 1
      rw [List.flatMap_congr (fun i hi => by rw [hin i hi]),
        Bytes.flatMap_range_readLE (fun x => Bytes.le32 (Int32.ofNat x).toUInt32.toNat) henc _ _
          hfirst, List.take_append_drop]

/-- **What the two-window parser accepts is a stack reply**: the two windows it returned, written
back as the link writes them, with nothing after them. -/
theorem Link.windowPayloads_of_parseStacks {p : List UInt8} {d r : List Int32}
    (h : Client.parseStacks p = .ok (d, r)) :
    Link.windowPayload d ++ Link.windowPayload r = p := by
  unfold Client.parseStacks at h
  cases h₁ : Client.parseStack p with
  | error e => simp [h₁, bind, Except.bind] at h
  | ok x =>
    obtain ⟨d', rest⟩ := x
    cases h₂ : Client.parseStack rest with
    | error e => simp [h₁, h₂, bind, Except.bind] at h
    | ok y =>
      obtain ⟨r', rest'⟩ := y
      simp only [h₁, h₂, bind, Except.bind] at h
      split at h
      · rename_i hempty
        simp only [pure, Except.pure, Except.ok.injEq, Prod.mk.injEq] at h
        obtain ⟨rfl, rfl⟩ := h
        have hnil : rest' = [] := List.isEmpty_iff.mp hempty
        have hrest := Link.windowPayload_of_parseStack h₂
        rw [hnil, List.append_nil] at hrest
        rw [hrest]
        exact Link.windowPayload_of_parseStack h₁
      · simp [throw, throwThe, MonadExceptOf.throw] at h

/-! ### Words -/

/-- **A word reply reads back** as the word's name and code, when the name fits its length byte
and the code its 16-bit length. -/
theorem Client.parseWord_wordPayload {name code : List UInt8} (hs : name.length < 256)
    (hk : code.length < 65536) :
    Client.parseWord (Link.wordPayload name code) = .ok (name, code) := by
  have hcount : (UInt8.ofNat name.length).toNat = name.length := UInt8.toNat_ofNat_of_lt' hs
  have hdeclared := Bytes.readLE16_le16_append hk code
  rw [Link.wordPayload, List.cons_append, List.cons_append, Client.parseWord]
  simp only [hcount, List.length_cons, List.length_append, Bytes.length_le16, List.append_assoc,
    List.take_left, List.drop_left, hdeclared, Option.getD_some]
  rw [if_neg (by omega), if_neg (by omega), List.drop_left' (Bytes.length_le16 _)]

/-- **What the word parser accepts is a word reply**: the name and code it returned, written back
as the link writes them. -/
theorem Link.wordPayload_of_parseWord {p name code : List UInt8}
    (h : Client.parseWord p = .ok (name, code)) : Link.wordPayload name code = p := by
  match p, h with
  | n :: rest, h =>
    rw [Client.parseWord] at h
    by_cases hshort : (n :: rest).length < 1 + n.toNat + 2
    · rw [if_pos hshort] at h
      cases h
    · rw [if_neg hshort] at h
      simp only at h
      by_cases hcode : (rest.drop n.toNat).length - 2 ≠
          (Bytes.readLE16 (rest.drop n.toNat) 0).getD 0
      · rw [if_pos hcode] at h
        cases h
      · rw [if_neg hcode] at h
        cases h
        -- the name is `n` bytes, and the two bytes after it give the length of the rest
        have hq : 2 ≤ (rest.drop n.toNat).length := by
          simp only [List.length_cons, List.length_drop] at hshort ⊢
          omega
        have hname : (rest.take n.toNat).length = n.toNat := List.length_take_of_le (by
          simp only [List.length_cons] at hshort
          omega)
        have hdeclared : Bytes.readLE16 (rest.drop n.toNat) 0 =
            some (Bytes.leValue ((rest.drop n.toNat).take 2)) := by
          simp only [Bytes.readLE16, Bytes.readLE, Nat.zero_add, List.drop_zero]
          rw [if_pos hq]
        have hlen : ((rest.drop n.toNat).drop 2).length =
            Bytes.leValue ((rest.drop n.toNat).take 2) := by
          rw [hdeclared, Option.getD_some] at hcode
          rw [List.length_drop]
          omega
        have htwo : ((rest.drop n.toNat).take 2).length = 2 := List.length_take_of_le hq
        rw [Link.wordPayload, hname, UInt8.ofNat_toNat, hlen, Bytes.le16_leValue_of_length_two htwo]
        simp only [List.cons_append, List.append_assoc, List.take_append_drop]

/-! ### Uploads -/

namespace Link

/-- An upload's run is answered by one of its two replies. -/
theorem runAnswer_eq_reply {onOk onError f : List UInt8} {r : Except RunError Unit}
    (h : runAnswer onOk onError r = .reply f) : f = onOk ∨ f = onError := by
  match r, h with
  | .ok (), h => exact .inl (Answer.reply.inj h).symm
  | .error .nilWord, h => exact .inr (Answer.reply.inj h).symm
  | .error (.exec _), h => exact .inr (Answer.reply.inj h).symm
  | .error .outOfFuel, h => exact .inr (Answer.reply.inj h).symm
  | .error (.abort _), h => cases h

variable {sys : Option (SysHandler Id)}

/-- The run that ends an upload keeps the table the upload built, and answers with one of its
two replies. -/
theorem run_reply (hsys : ∀ h, sys = some h → h.Confined) (l : Link) (ws : List Word) (w : Word)
    (onOk onError : List UInt8) {l' : Link} {f : List UInt8}
    (h : Id.run ((l.withWords ws).machine.exec sys w >>= fun p =>
      pure ({ l.withWords ws with machine := p.1 }, runAnswer onOk onError p.2)) = (l', .reply f)) :
    l'.machine.words = l.machine.words ++ ws.toArray ∧
      l'.machine.wordCount = l.machine.wordCount + ws.length ∧ (f = onOk ∨ f = onError) := by
  have halike := Machine.exec_alike (m := (l.withWords ws).machine) hsys w
  simp only [Id.run_bind, Id.run_pure] at h
  generalize Id.run ((l.withWords ws).machine.exec sys w) = p at halike h
  obtain ⟨m, r⟩ := p
  obtain ⟨rfl, hr⟩ := Prod.mk.inj h
  dsimp only at halike hr
  refine ⟨halike.words, ?_, runAnswer_eq_reply hr⟩
  rw [← wordCount_withWords]
  simp only [Machine.wordCount, halike.words]

/-- **What an upload answers**: `OK` listing the indices of the words it added, in order, or a
bare failure status. -/
theorem exec_reply (hsys : ∀ h, sys = some h → h.Confined) (l : Link) (P : List UInt8)
    {l' : Link} {f : List UInt8} (h : Id.run (l.exec sys P) = (l', .reply f)) :
    f = replyFrame Status.ok (indicesPayload
        (List.range' l.machine.wordCount (l'.machine.wordCount - l.machine.wordCount))) ∨
      ∃ s, s ≠ Status.ok ∧ f = replyFrame s [] := by
  cases hP : Container.isContainer P with
  | false =>
    rw [exec_bare sys l P hP, uploadBare] at h
    split at h
    · -- one word, listed whatever its run did
      obtain ⟨-, hcount, hf⟩ := run_reply hsys l _ _ _ _ h
      left
      rw [hcount, List.length_singleton, Nat.add_sub_cancel_left]
      rcases hf with rfl | rfl <;> rfl
    · cases h
      exact .inr ⟨Status.vmError, by decide, rfl⟩
  | true =>
    cases hh : Container.readHeader P with
    | error e =>
      rw [exec_badHeader sys l hP hh] at h
      cases h
      exact .inr ⟨Status.general, by decide, rfl⟩
    | ok hd =>
      rw [exec_container sys l hh, uploadContainer] at h
      dsimp only at h
      -- a refusal, a failing record, a full table before the main code, or the main code's run
      split at h
      · cases h
        exact .inr ⟨Status.vmError, by decide, rfl⟩
      split at h
      · cases h
        exact .inr ⟨Status.general, by decide, rfl⟩
      split at h
      · cases h
        exact .inr ⟨Status.vmError, by decide, rfl⟩
      · obtain ⟨-, hcount, hf⟩ := run_reply hsys l _ _ _ _ h
        rcases hf with rfl | rfl
        · left
          rw [hcount, List.length_append, length_uploadEntries, List.length_singleton,
            Nat.add_sub_cancel_left]
        · exact .inr ⟨Status.vmError, by decide, rfl⟩

theorem handleFrame_exec {M : Type → Type} [Monad M] (sys : Option (SysHandler M)) (l : Link)
    {g P : List UInt8} (hg : Frame.decode g = .ok ⟨Command.exec, P⟩) :
    l.handleFrame sys g = l.exec sys P := by
  unfold handleFrame
  rw [hg]
  simp

/-! ### What the host reads -/

/-- **An upload is read as the indices of the words it added**, in order, as 16-bit values. -/
theorem readsAs_exec (hsys : ∀ h, sys = some h → h.Confined) (l : Link) {g P : List UInt8}
    (hg : Frame.decode g = .ok ⟨Command.exec, P⟩) {l' : Link} {f : List UInt8}
    (h : Id.run (l.handleFrame sys g) = (l', .reply f)) :
    Client.ReadsAs Command.exec Client.parseIndices f
      ((List.range' l.machine.wordCount (l'.machine.wordCount - l.machine.wordCount)).map
        UInt16.ofNat) := by
  rw [handleFrame_exec sys l hg] at h
  rcases exec_reply hsys l P h with rfl | ⟨s, hs, rfl⟩
  · exact Client.readsAs_replyFrame fun _ hfit => Client.parseIndices_of_fits hfit
  · exact Client.readsAs_replyFrame fun hok => absurd hok hs

/-- **A stack query is read as the two stack windows**, bottom first. -/
theorem reads_stack (cfg : LinkConfig) (l : Link) (hcfg : l.config = cfg.clamp)
    {g p : List UInt8} (hg : Frame.decode g = .ok ⟨Command.queryStack, p⟩) :
    ∃ f, Id.run (l.handleFrame sys g) = (l, .reply f) ∧
      Client.readReply Command.queryStack Client.parseStacks f =
        .ok (l.machine.data.reverse.drop (l.machine.data.length - l.config.stackWindow.toNat),
          l.machine.ret.reverse.drop (l.machine.ret.length - l.config.stackWindow.toNat)) := by
  refine ⟨_, by rw [handleFrame_queryStack sys l hg]; rfl, ?_⟩
  -- two windows of at most 63 cells fit a frame, and each window's count fits its byte
  have hfit : l.queryStack.length + 1 ≤ maxPayload := by
    have := length_queryStack_le cfg l hcfg
    simp only [maxPayload]
    omega
  have hW : l.config.stackWindow.toNat ≤ maxStackWindow := hcfg ▸ cfg.toNat_clamp_stackWindow_le
  simp only [maxStackWindow, maxPayload] at hW
  rw [Client.readReply_replyFrame_ok hfit, queryStack, stackPayload_eq, stackPayload_eq]
  exact Client.parseStacks_windowPayload (by simp; omega) (by simp; omega)

/-- **A memory query is read as the bytes of its reply**, never more than were asked for. -/
theorem reads_memory (cfg : LinkConfig) (l : Link) (hcfg : l.config = cfg.clamp)
    {g : List UInt8} {addr : UInt32} {n : UInt16}
    (hg : Frame.decode g = .ok ⟨Command.queryMemory, Client.memoryRequest addr n⟩) :
    ∃ f, Id.run (l.handleFrame sys g) = (l, .reply f) ∧
      Client.readReply Command.queryMemory (Client.parseMemory n.toNat) f =
        .ok (l.queryMemory addr.toNat n.toNat) ∧
      (l.queryMemory addr.toNat n.toNat).length ≤ n.toNat := by
  obtain ⟨ha, hn⟩ := Client.readLE_memoryRequest addr n
  have hle : (l.queryMemory addr.toNat n.toNat).length ≤ n.toNat := by
    rw [length_queryMemory]
    omega
  refine ⟨_, by rw [handleFrame_queryMemory sys l hg ha hn]; rfl, ?_, hle⟩
  rw [Client.readReply_replyFrame_ok (queryMemory_fits cfg l hcfg _ _),
    Client.parseMemory_of_le hle]

/-- **A word query is read as the word's name and code**, or as the status that stands for a
word too long for a reply; an index past the table is read as `VM_ERROR`. -/
theorem reads_word (l : Link) (hnames : ∀ w ∈ l.machine.words, w.name.length ≤ 255)
    {g : List UInt8} {i : UInt16}
    (hg : Frame.decode g = .ok ⟨Command.queryWord, Client.wordRequest i⟩) :
    ∃ f, Id.run (l.handleFrame sys g) = (l, .reply f) ∧
      (∀ w, l.machine.words[i.toNat]? = some w →
        Client.ReadsAs Command.queryWord Client.parseWord f (w.name, w.code)) ∧
      (l.machine.words[i.toNat]? = none →
        Client.readReply Command.queryWord Client.parseWord f =
          .error (.status ⟨Status.vmError, []⟩)) := by
  refine ⟨_, by rw [handleFrame_queryWord sys l hg (Client.readLE16_wordRequest i)]; rfl,
    fun w hw => ?_, fun hnone => ?_⟩
  · have hname := hnames w (Array.mem_of_getElem? hw)
    rw [queryWord_of_word l hw hname]
    split
    · -- a word that fits a reply has a name below 256 bytes and a code below `2^16`
      exact Client.readsAs_replyFrame fun _ _ => Client.parseWord_wordPayload (by omega) (by omega)
    · exact Client.readsAs_replyFrame fun hok => absurd hok (by decide)
  · rw [queryWord, Machine.word?_natCast, hnone]
    exact Client.readReply_replyFrame_of_ne (by decide) (by simp [maxPayload])

/-- **The host reads back what the link writes.** Take a link whose settings are clamped and
whose words have names of at most 255 bytes (as every link a host can reach has:
`StackLink.Link.Reachable.namesFit`), with no system call handler or one that keeps to the
stacks and memory. For every request frame the link answers:

* an upload is read as the indices of the words it added, in order, as 16-bit values;
* a stack query is read as the data and return windows, bottom first, as 32-bit cells;
* a memory query for `n` bytes at `addr` is read as the bytes of the reply, at most `n`;
* a word query for index `i` is read as word `i`'s name and code, and as `VM_ERROR` when the
  table has no word `i`;

and any reply that is not `OK` is read as its status. Conversely, a payload that the index
parser, the two-window parser or the word parser accepts is exactly the link's layout of what
the parser returns. -/
theorem client_reads_back_link_replies (sys : Option (SysHandler Id))
    (hsys : ∀ h, sys = some h → h.Confined) (cfg : LinkConfig) (l : Link)
    (hcfg : l.config = cfg.clamp) (hnames : ∀ w ∈ l.machine.words, w.name.length ≤ 255) :
    (∀ g P l' f, Frame.decode g = .ok ⟨Command.exec, P⟩ →
      Id.run (l.handleFrame sys g) = (l', .reply f) →
      Client.ReadsAs Command.exec Client.parseIndices f
        ((List.range' l.machine.wordCount (l'.machine.wordCount - l.machine.wordCount)).map
          UInt16.ofNat)) ∧
    (∀ g p, Frame.decode g = .ok ⟨Command.queryStack, p⟩ →
      ∃ f, Id.run (l.handleFrame sys g) = (l, .reply f) ∧
        Client.readReply Command.queryStack Client.parseStacks f =
          .ok (l.machine.data.reverse.drop (l.machine.data.length - l.config.stackWindow.toNat),
            l.machine.ret.reverse.drop (l.machine.ret.length - l.config.stackWindow.toNat))) ∧
    (∀ g (addr : UInt32) (n : UInt16),
      Frame.decode g = .ok ⟨Command.queryMemory, Client.memoryRequest addr n⟩ →
      ∃ f, Id.run (l.handleFrame sys g) = (l, .reply f) ∧
        Client.readReply Command.queryMemory (Client.parseMemory n.toNat) f =
          .ok (l.queryMemory addr.toNat n.toNat) ∧
        (l.queryMemory addr.toNat n.toNat).length ≤ n.toNat) ∧
    (∀ g (i : UInt16), Frame.decode g = .ok ⟨Command.queryWord, Client.wordRequest i⟩ →
      ∃ f, Id.run (l.handleFrame sys g) = (l, .reply f) ∧
        (∀ w, l.machine.words[i.toNat]? = some w →
          Client.ReadsAs Command.queryWord Client.parseWord f (w.name, w.code)) ∧
        (l.machine.words[i.toNat]? = none →
          Client.readReply Command.queryWord Client.parseWord f =
            .error (.status ⟨Status.vmError, []⟩))) ∧
    (∀ p v, Client.parseIndices p = .ok v → indicesPayload (v.map (·.toNat)) = p) ∧
    (∀ p d r, Client.parseStacks p = .ok (d, r) → windowPayload d ++ windowPayload r = p) ∧
    (∀ p name code, Client.parseWord p = .ok (name, code) → wordPayload name code = p) :=
  ⟨fun _ _ _ _ hg h => readsAs_exec hsys l hg h,
    fun _ _ hg => reads_stack cfg l hcfg hg,
    fun _ _ _ hg => reads_memory cfg l hcfg hg,
    fun _ _ hg => reads_word l hnames hg,
    fun _ _ h => indicesPayload_of_parseIndices h,
    fun _ _ _ h => windowPayloads_of_parseStacks h,
    fun _ _ _ h => wordPayload_of_parseWord h⟩

/-- The host reads back the replies of a link with no handler, whose table holds one word,
`dup` with code `RET`, and whose data stack holds one cell. -/
theorem client_reads_back_one_word_link :
    let l : Link :=
      Link.new ⟨MachineConfig.default, #[⟨0, [0x64, 0x75, 0x70], [0x51]⟩], [2], [], #[]⟩
        LinkConfig.default
    let sys : Option (SysHandler Id) := none
    ((∀ h, sys = some h → h.Confined) ∧ l.config = LinkConfig.default.clamp ∧
      ∀ w ∈ l.machine.words, w.name.length ≤ 255) ∧
    (∀ g P l' f, Frame.decode g = .ok ⟨Command.exec, P⟩ →
      Id.run (l.handleFrame sys g) = (l', .reply f) →
      Client.ReadsAs Command.exec Client.parseIndices f
        ((List.range' l.machine.wordCount (l'.machine.wordCount - l.machine.wordCount)).map
          UInt16.ofNat)) ∧
    (∀ g p, Frame.decode g = .ok ⟨Command.queryStack, p⟩ →
      ∃ f, Id.run (l.handleFrame sys g) = (l, .reply f) ∧
        Client.readReply Command.queryStack Client.parseStacks f =
          .ok (l.machine.data.reverse.drop (l.machine.data.length - l.config.stackWindow.toNat),
            l.machine.ret.reverse.drop (l.machine.ret.length - l.config.stackWindow.toNat))) ∧
    (∀ g (addr : UInt32) (n : UInt16),
      Frame.decode g = .ok ⟨Command.queryMemory, Client.memoryRequest addr n⟩ →
      ∃ f, Id.run (l.handleFrame sys g) = (l, .reply f) ∧
        Client.readReply Command.queryMemory (Client.parseMemory n.toNat) f =
          .ok (l.queryMemory addr.toNat n.toNat) ∧
        (l.queryMemory addr.toNat n.toNat).length ≤ n.toNat) ∧
    (∀ g (i : UInt16), Frame.decode g = .ok ⟨Command.queryWord, Client.wordRequest i⟩ →
      ∃ f, Id.run (l.handleFrame sys g) = (l, .reply f) ∧
        (∀ w, l.machine.words[i.toNat]? = some w →
          Client.ReadsAs Command.queryWord Client.parseWord f (w.name, w.code)) ∧
        (l.machine.words[i.toNat]? = none →
          Client.readReply Command.queryWord Client.parseWord f =
            .error (.status ⟨Status.vmError, []⟩))) ∧
    (∀ p v, Client.parseIndices p = .ok v → indicesPayload (v.map (·.toNat)) = p) ∧
    (∀ p d r, Client.parseStacks p = .ok (d, r) → windowPayload d ++ windowPayload r = p) ∧
    (∀ p name code, Client.parseWord p = .ok (name, code) → wordPayload name code = p) := by
  intro l sys
  have hsys : ∀ h, sys = some h → h.Confined := fun _ hs => nomatch hs
  have hcfg : l.config = LinkConfig.default.clamp := rfl
  have hnames : ∀ w ∈ l.machine.words, w.name.length ≤ 255 := by decide
  exact ⟨⟨hsys, hcfg, hnames⟩, client_reads_back_link_replies sys hsys _ l hcfg hnames⟩

end Link

end StackLink
