import Mathlib
import StackLink.Host.Tool.Run
import StackLink.Proofs.Readback
import StackLink.Proofs.Sessions
import StackLink.Proofs.Relocation

/-!
# What an upload registers, as the host reads it

The host records a word for each index an upload's `OK` reply lists, under the name and the
code size it reads off the payload it sent. This file shows that these are the words the link
registered at those indices, and that no other frame moves a word.

* **Frames other than a reset only add words** (`StackLink.Link.handleFrame_words`): the table
  after is the table before with words appended. Only a reset empties it. No frame touches the
  receiver (`StackLink.Link.handleFrame_rx`).
* **An `OK` upload registered what the host reads** (`StackLink.Link.exec_ok`): the words it
  added follow the old table and fit the machine's limit, the host reads their indices off the
  reply, and it pairs each index with the name and the code size of the word registered there. Bare
  code is one unnamed word. A container's records keep their names and sizes through
  relocation (`StackLink.map_name_size_uploadEntries`), and its main code comes last. The
  host's reading of the payload agrees with the link's
  (`StackLink.Container.parse_of_records`). Every other branch of an upload answers with a
  status that is not `OK`, which the host does not record.
-/

namespace StackLink

namespace Link

variable {sys : Option (SysHandler Id)} {l l' : Link}

/-- No move touches the receiver. -/
theorem Moves.rx (h : l.Moves l') : l'.rx = l.rx := by
  cases h <;> rfl

/-- Answering a frame leaves the receiver as it was. -/
theorem handleFrame_rx (hsys : ∀ h, sys = some h → h.Confined) (l : Link) (g : List UInt8) :
    (Id.run (l.handleFrame sys g)).1.rx = l.rx :=
  (handleFrame_moves hsys l g).rx

/-- A frame other than a reset is answered without touching the link, or by an upload of its
payload. -/
theorem handleFrame_of_ne_reset (l : Link) {g : List UInt8} {f : Frame}
    (hd : Frame.decode g = .ok f) (hr : f.command ≠ Command.reset) :
    (Id.run (l.handleFrame sys g)).1 = l ∨
      (Id.run (l.handleFrame sys g)).1 = (Id.run (l.exec sys f.payload)).1 := by
  unfold handleFrame
  rw [hd]
  dsimp only
  split
  · exact .inr rfl
  split
  · exact .inl rfl
  split
  · exact .inl rfl
  split
  · split <;> exact .inl rfl
  split
  · split <;> exact .inl rfl
  · exact .inl rfl

/-- An upload only adds words at the end of the table. -/
theorem exec_words (hsys : ∀ h, sys = some h → h.Confined) (l : Link) (P : List UInt8) :
    ∃ ws : List Word,
      (Id.run (l.exec sys P)).1.machine.words = l.machine.words ++ ws.toArray := by
  rcases exec_cases hsys l P with h | ⟨ws, m, -, halike, h⟩ <;> rw [h]
  · exact ⟨[], by simp⟩
  · exact ⟨ws, halike.words⟩

/-- **A frame other than a reset only adds words** at the end of the table. -/
theorem handleFrame_words (hsys : ∀ h, sys = some h → h.Confined) (l : Link) {g : List UInt8}
    {f : Frame} (hd : Frame.decode g = .ok f) (hr : f.command ≠ Command.reset) :
    ∃ ws : List Word,
      (Id.run (l.handleFrame sys g)).1.machine.words = l.machine.words ++ ws.toArray := by
  rcases handleFrame_of_ne_reset l hd hr with h | h <;> rw [h]
  · exact ⟨[], by simp⟩
  · exact exec_words hsys l f.payload

end Link

/-- A reply the host accepts as `OK` is an `OK` frame around bytes that fit it. -/
theorem Client.decodeReply_replyFrame_eq_ok {cmd : Command} {s : Status} {extra : List UInt8}
    {r : Reply} (h : Client.decodeReply cmd (replyFrame s extra) = .ok r) :
    s = Status.ok ∧ extra.length + 1 ≤ maxPayload ∧ r = ⟨Status.ok, extra⟩ := by
  unfold Client.decodeReply at h
  rw [decode_replyFrame] at h
  by_cases hfit : extra.length + 1 ≤ maxPayload
  · rw [if_pos hfit] at h
    by_cases hs : s = Status.ok
    · subst hs
      exact ⟨rfl, hfit, (Except.ok.inj h).symm⟩
    · simp [hs] at h
  · rw [if_neg hfit] at h
    simp [Status.bufferFull, Status.ok] at h

/-- A container whose records all read parses to its records and its main code. -/
theorem Container.parse_of_records {P : List UInt8} {h : ContainerHeader}
    (hh : Container.readHeader P = .ok h) (hr : (h.records P).2 = none) :
    Container.parse P =
      .ok { major := h.major, minor := h.minor, main := h.main P,
            words := (h.records P).1.map (·.1) } := by
  rcases hrec : h.records P with ⟨recs, fail⟩
  rw [hrec] at hr
  cases hr
  simp only [Container.parse, hh, bind, Except.bind, hrec]

/-- Registered records keep their names and their code sizes. -/
theorem map_name_size_uploadEntries (n off : Nat) (ds : List WordDef) :
    (uploadEntries n off ds).map (fun w => (w.name, w.code.length)) =
      ds.map (fun d => (d.name, d.code.length)) := by
  induction ds generalizing n with
  | nil => rfl
  | cons d ds ih => simp [uploadEntries, ih, Code.length_relocate]

namespace Link

variable {sys : Option (SysHandler Id)} {l l' : Link}

/-- **An upload answered `OK` registered, at the indices it lists, the words the host reads
off the payload.** The words `ws` it added come right after the old table and fit in it; the
host reads their indices off the reply; and the host, pairing those indices with the words of
the payload, gets each index with the name and the code size of the word at that index. -/
theorem exec_ok (hsys : ∀ h, sys = some h → h.Confined) (l : Link) (P : List UInt8)
    {f : List UInt8} {r : Reply} (h : Id.run (l.exec sys P) = (l', .reply f))
    (hok : Client.decodeReply Command.exec f = .ok r) :
    ∃ ws : List Word, l'.machine.words = l.machine.words ++ ws.toArray ∧
      l.machine.wordCount + ws.length ≤ l.machine.config.maxWords ∧
      Client.parseIndices r.extra =
        .ok ((List.range' l.machine.wordCount ws.length).map UInt16.ofNat) ∧
      Tool.uploadRows P ((List.range' l.machine.wordCount ws.length).map UInt16.ofNat) =
        .ok (((List.range' l.machine.wordCount ws.length).map UInt16.ofNat).zip
          (ws.map fun w => (w.name, w.code.length))) := by
  cases hP : Container.isContainer P with
  | false =>
    rw [exec_bare sys l P hP, uploadBare] at h
    split at h
    · -- one unnamed word, listed whatever its run did
      rename_i hroom
      obtain ⟨hwords, -, hf⟩ := run_reply hsys l _ _ _ _ h
      have hf : f = replyFrame Status.ok (indicesPayload [l.machine.wordCount]) := by
        rcases hf with rfl | rfl <;> rfl
      subst hf
      obtain ⟨-, hfit, rfl⟩ := Client.decodeReply_replyFrame_eq_ok hok
      refine ⟨_, hwords, by simpa using hroom, Client.parseIndices_of_fits hfit, ?_⟩
      simp [Tool.uploadRows, hP]
    · cases h
      exact absurd (Client.decodeReply_replyFrame_eq_ok hok).1 (by decide)
  | true =>
    cases hh : Container.readHeader P with
    | error e =>
      rw [exec_badHeader sys l hP hh] at h
      cases h
      exact absurd (Client.decodeReply_replyFrame_eq_ok hok).1 (by decide)
    | ok hd =>
      rw [exec_container sys l hh, uploadContainer] at h
      dsimp only at h
      -- only the branch that runs the main code can answer `OK`
      split at h
      · cases h
        exact absurd (Client.decodeReply_replyFrame_eq_ok hok).1 (by decide)
      rename_i hroom
      split at h
      · cases h
        exact absurd (Client.decodeReply_replyFrame_eq_ok hok).1 (by decide)
      rename_i hread
      split at h
      · cases h
        exact absurd (Client.decodeReply_replyFrame_eq_ok hok).1 (by decide)
      rename_i hend
      obtain ⟨hwords, -, hf⟩ := run_reply hsys l _ _ _ _ h
      rcases hf with rfl | rfl
      · obtain ⟨-, hfit, rfl⟩ := Client.decodeReply_replyFrame_eq_ok hok
        have hnone : (hd.records P).2 = none := by simpa using hread
        refine ⟨_, hwords, ?_, ?_, ?_⟩
        · simp only [List.length_append, length_uploadEntries, List.length_singleton]
          omega
        · simpa using Client.parseIndices_of_fits hfit
        · simp [Tool.uploadRows, hP, Container.parse_of_records hh hnone, Except.mapError, bind,
            pure, Except.bind, Except.pure, map_name_size_uploadEntries, Code.length_relocate]
      · exact absurd (Client.decodeReply_replyFrame_eq_ok hok).1 (by decide)

end Link

end StackLink
