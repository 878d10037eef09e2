import Mathlib
import StackLink.Code.Module
import StackLink.Proofs.CborCodec
import StackLink.Proofs.ContainerCodec

/-!
# Module files: writing, reading back, unpacking and packing

A module file is written and read by the CBOR library the host is built with, a
`StackLink.ModuleCodec`; reading it back also checks the digest
(`StackLink.ModuleCodec.unmarshalModule`). Unpacking a container makes a module of it and seals
it with the digest of the container's own contents; packing reads the module file back and
writes its container.

What the round trip needs of the library is stated as its laws (`StackLink.ModuleCodec.Lawful`):
texts are written as canonical text strings, so a module whose texts are UTF-8 reads back as it
was written; the decoder refuses a text that is not UTF-8; and it refuses an array of more items
than its limit.

**Unpacking and packing back keeps the container, as far as the file form carries it**, with
any lawful library (`StackLink.Module.unpack_pack_round_trip`). Two things of the container do
not survive the file form: a name that is not UTF-8, and more words than the decoder takes in
one array. With this library's codec a container whose word is named by the byte `0xFF` unpacks
and does not pack (`StackLink.Module.non_utf8_word_does_not_pack`).

The facts behind it:

* **this library's codec has the laws**, with a limit of 131072 items
  (`StackLink.ModuleCodec.cbor_lawful`): the bytes of a module read back as the CBOR item it was
  written as, or are refused at the head of its words when there are too many
  (`StackLink.Module.reads_encode`, `StackLink.Module.fails_encode`), and the fields of that item,
  walked in order, set a module's fields (`StackLink.Module.readFields_uints`,
  `StackLink.Module.foldlM_setField`), the first text that is not UTF-8 failing the walk;
* a lawful codec reads a module file back as far as its laws allow
  (`StackLink.ModuleCodec.Lawful.unmarshalModule_marshal`);
* a sealed module passes its digest check (`StackLink.Module.verify_sealed`), a digest being
  thirty-two bytes (`StackLink.Sha256.length_hash`).
-/

namespace StackLink.Sha256

theorem size_compress (state : Array UInt32) (block : Array UInt8) :
    (compress state block).size = 8 := by
  simp [compress]

theorem size_foldl_compress (blocks : Nat → Array UInt8) (l : List Nat) {st : Array UInt32}
    (h : st.size = 8) : (l.foldl (fun st i => compress st (blocks i)) st).size = 8 := by
  induction l generalizing st with
  | nil => exact h
  | cons i l ih => exact ih (size_compress _ _)

/-- A digest is thirty-two bytes. -/
theorem length_hash (msg : List UInt8) : (hash msg).length = 32 := by
  simp [hash, size_foldl_compress _ _ (show initialState.size = 8 from rfl)]

end StackLink.Sha256

namespace StackLink.Container

/-- A parsed container's fields fit what containers can write: names of at most 255 bytes, and
lengths and a word count below `2^32`. -/
theorem fits_of_parse {d : List UInt8} {c : Container} (h : parse d = .ok c) :
    (∀ w ∈ c.words, w.Fits) ∧ c.main.length < 2 ^ 32 ∧ c.words.length < 2 ^ 32 := by
  obtain ⟨hd, rs, hh, hr, rfl⟩ := parse_eq_ok h
  obtain ⟨r₁, r₂, cnt, rest, rfl, hcnt, hcs, hcsle, hwc⟩ := readHeader_eq_ok hh
  obtain ⟨hlen, hfits, -, -⟩ :=
    recordsFrom_eq_none (by simp [magic, hcnt, headerSize]; omega) hr
  have hcount : Bytes.leValue cnt < 2 ^ 32 := by
    have := Bytes.leValue_lt_pow cnt
    rw [hcnt] at this
    norm_num at this ⊢
    exact this
  refine ⟨hfits, ?_, ?_⟩
  · simp only [ContainerHeader.main, List.length_take]
    omega
  · simp only [List.length_map, hlen, hwc]
    split_ifs <;> omega

end StackLink.Container

namespace StackLink.Module

/-! ### Reading the fields of a module -/

@[simp] theorem readText_text (b : List UInt8) :
    readText (.text b) = if Utf8.isValid b then .ok (some b) else .error .invalidUtf8 := by
  by_cases hb : Utf8.isValid b <;>
    simp [readText, stripTags, untag, hb, bind, Except.bind, pure, Except.pure, throw, throwThe,
      MonadExceptOf.throw]

@[simp] theorem readBytes_bytes (b : List UInt8) : readBytes (.bytes b) = .ok (some b) := by
  simp [readBytes, stripTags, untag, bind, Except.bind, pure, Except.pure]

@[simp] theorem readBytes_null : readBytes (.prim 22 22) = .ok none := by
  simp [readBytes, stripTags, untag, bind, Except.bind, pure, Except.pure, isNil]

theorem readDigest_bytes {b : List UInt8} (hb : b.length = 32) :
    readDigest (.bytes b) = .ok (some b) := by
  simp [readDigest, stripTags, untag, bind, Except.bind, pure, Except.pure, hb]

/-- Walking a map whose keys are distinct field numbers of the struct, none seen yet, sets the
fields in the order of the map, and fails with the first error, unless it is a type error. -/
theorem readFields_uints {σ : Type} {struct : String} {fields : List Nat}
    {set : Nat → Cbor.Item → σ → Except ModuleError σ} :
    ∀ (kvs : List (Nat × Cbor.Item)) (seen : List Nat) (s : σ),
    (∀ k ∈ kvs.map Prod.fst, k ∈ fields ∧ k ∉ seen ∧ k < 2 ^ 63) → (kvs.map Prod.fst).Nodup →
    (∀ found want f note, kvs.foldlM (fun s kv => set kv.1 kv.2 s) s ≠
      .error (.mismatch found want f note)) →
    readFields struct fields set (kvs.map fun kv => (.uint kv.1, kv.2)) seen s =
      kvs.foldlM (fun s kv => set kv.1 kv.2 s) s
  | [], _, _, _, _, _ => rfl
  | (k, v) :: rest, seen, s, hkeys, hnodup, hnm => by
    obtain ⟨hk, hseen, hlt⟩ := hkeys k (by simp)
    have hkey : keyField (.uint k) = .ok (some k) := by
      simp only [keyField, Nat.pow_eq]
      rw [if_pos hlt]
    simp only [List.map_cons, readFields, hkey, bind, Except.bind]
    rw [if_pos ⟨hk, hseen⟩]
    cases hset : set k v s with
    | error e =>
      cases e with
      | mismatch found want f note =>
        exact absurd (by simp [hset, bind, Except.bind]) (hnm found want f note)
      | _ => simp [List.foldlM_cons, hset, throw, throwThe, MonadExceptOf.throw, bind, Except.bind]
    | ok s₁ =>
      simp only [pure, Except.pure, List.foldlM_cons, hset]
      simp only [List.map_cons, List.nodup_cons] at hnodup
      apply readFields_uints rest (k :: seen) s₁ _ hnodup.2
      · intro found want f note h
        exact hnm found want f note (by simp [List.foldlM_cons, hset, h, bind, Except.bind])
      · intro k' hk'
        obtain ⟨h1, h2, h3⟩ := hkeys k' (by simp [hk'])
        exact ⟨h1, by simp only [List.mem_cons, not_or]; exact ⟨fun h => hnodup.1 (h ▸ hk'), h2⟩, h3⟩

/-- The fields of a word as its map holds them: the name, and the code or null. -/
def wordEntries (w : ModuleWord) : List (Nat × Cbor.Item) :=
  [(1, .text w.name), (2, match w.code with | some c => .bytes c | none => .prim 22 22)]

/-- The item a word is written as. -/
def wordItem (w : ModuleWord) : Cbor.Item :=
  .map ((wordEntries w).map fun kv => (.uint kv.1, kv.2))

/-- **A word map is read back as the word**, once its name is UTF-8. -/
theorem readWord_wordItem (w : ModuleWord) :
    readWord (wordItem w) = if Utf8.isValid w.name then .ok w else .error .invalidUtf8 := by
  obtain ⟨name, code⟩ := w
  unfold readWord wordItem
  simp only [stripTags, untag, bind, Except.bind, pure, Except.pure]
  rw [readFields_uints]
  · cases code <;> by_cases hv : Utf8.isValid name <;>
      simp [wordEntries, List.foldlM_cons, hv, bind, Except.bind, pure, Except.pure]
  · intro k hk
    simp only [wordEntries, List.map_cons, List.map_nil, List.mem_cons, List.not_mem_nil,
      or_false] at hk
    rcases hk with rfl | rfl <;> simp
  · simp [wordEntries]
  · intro found want f note
    cases code <;> by_cases hv : Utf8.isValid name <;>
      simp [wordEntries, List.foldlM_cons, hv, bind, Except.bind, pure, Except.pure]

theorem readWordList_map (ws : List ModuleWord) :
    readWordList (ws.map wordItem) =
      if ws.all fun w => Utf8.isValid w.name then .ok ws else .error .invalidUtf8 := by
  induction ws with
  | nil => rfl
  | cons w ws ih =>
    by_cases hv : Utf8.isValid w.name <;> by_cases ha : ws.all fun w => Utf8.isValid w.name <;>
      simp_all [readWordList, readWord_wordItem, bind, Except.bind, pure, Except.pure]

/-- Whether every text a module carries, its name and its words' names, is UTF-8. -/
def namesValid (m : Module) : Bool :=
  Utf8.isValid m.name && m.words.all fun w => Utf8.isValid w.name

/-- The fields of a module as its map holds them: the name, the main code unless it is empty,
the words unless there are none, and the digest. -/
def moduleEntries (m : Module) : List (Nat × Cbor.Item) :=
  [(1, .text m.name)] ++ (if m.main.isEmpty then [] else [(2, .bytes m.main)]) ++
    (if m.words.isEmpty then [] else [(3, .array (m.words.map wordItem))]) ++
    [(4, .bytes m.digest)]

/-- The item a module is written as. -/
def moduleItem (m : Module) : Cbor.Item :=
  .map ((moduleEntries m).map fun kv => (.uint kv.1, kv.2))

theorem setField_name (b : List UInt8) (m : Module) :
    setField 1 (.text b) m =
      if Utf8.isValid b then .ok { m with name := b } else .error .invalidUtf8 := by
  by_cases hb : Utf8.isValid b <;> simp [setField, hb, bind, Except.bind, pure, Except.pure]

theorem setField_main (b : List UInt8) (m : Module) :
    setField 2 (.bytes b) m = .ok { m with main := b } := by
  simp [setField, bind, Except.bind, pure, Except.pure]

theorem setField_words (ws : List ModuleWord) (m : Module) :
    setField 3 (.array (ws.map wordItem)) m =
      if ws.all (fun w => Utf8.isValid w.name) then .ok { m with words := ws }
      else .error .invalidUtf8 := by
  by_cases ha : ws.all (fun w => Utf8.isValid w.name) <;>
    simp [setField, readWords, stripTags, untag, readWordList_map, ha, bind, Except.bind, pure,
      Except.pure]

theorem setField_digest {d : List UInt8} (hd : d.length = 32) (m : Module) :
    setField 4 (.bytes d) m = .ok { m with digest := d } := by
  simp [setField, readDigest_bytes hd, bind, Except.bind, pure, Except.pure]

/-- **The fields of a module, set in order from the empty module, give the module back**, once
its texts are UTF-8. -/
theorem foldlM_setField {m : Module} (hd : m.digest.length = 32) :
    (moduleEntries m).foldlM (fun s kv => setField kv.1 kv.2 s) {} =
      if m.namesValid then .ok m else .error .invalidUtf8 := by
  obtain ⟨name, main, words, digest⟩ := m
  simp only at hd
  -- the optional fields, each written only when it is not empty, set it either way
  have hmain : ∀ s : Module, s.main = [] →
      (if main.isEmpty then [] else [(2, Cbor.Item.bytes main)]).foldlM
        (fun s kv => setField kv.1 kv.2 s) s = .ok { s with main := main } := by
    intro s hs
    by_cases hm : main.isEmpty
    · obtain rfl : main = [] := List.isEmpty_iff.mp hm
      obtain ⟨n, mn, w, d⟩ := s
      simp only at hs
      subst hs
      rfl
    · simp [hm, setField_main, bind, Except.bind, pure, Except.pure]
  have hwords : ∀ s : Module, s.words = [] →
      (if words.isEmpty then [] else [(3, Cbor.Item.array (words.map wordItem))]).foldlM
        (fun s kv => setField kv.1 kv.2 s) s =
        if words.all (fun w => Utf8.isValid w.name) then .ok { s with words := words }
        else .error .invalidUtf8 := by
    intro s hs
    by_cases hw : words.isEmpty
    · obtain rfl : words = [] := List.isEmpty_iff.mp hw
      obtain ⟨n, mn, w, d⟩ := s
      simp only at hs
      subst hs
      rfl
    · by_cases ha : words.all (fun w => Utf8.isValid w.name) <;>
        simp [hw, ha, setField_words, bind, Except.bind, pure, Except.pure]
  simp only [moduleEntries, namesValid, List.foldlM_append, List.foldlM_cons, List.foldlM_nil,
    setField_name]
  by_cases hn : Utf8.isValid name
  · simp only [hn, if_true, bind, Except.bind, Bool.true_and, pure, Except.pure]
    rw [hmain _ rfl]
    simp only
    rw [hwords _ rfl]
    by_cases ha : words.all (fun w => Utf8.isValid w.name)
    · simp [ha, setField_digest hd]
    · simp [ha]
  · simp [hn, bind, Except.bind]

/-- Reading a module from bytes that read as its item gives the module back, once its texts are
UTF-8; the digest is not checked here. -/
theorem decodeUnchecked_of_read {bs : List UInt8} {m : Module}
    (h : Cbor.read bs = .ok (moduleItem m)) (hd : m.digest.length = 32) :
    decodeUnchecked bs = if m.namesValid then .ok m else .error .invalidUtf8 := by
  have hfold := foldlM_setField hd
  unfold decodeUnchecked
  simp only [h, Except.mapError, moduleItem, stripTags, untag, bind, Except.bind, pure,
    Except.pure]
  rw [readFields_uints _ _ _ _ _ _, hfold]
  · intro k hk
    simp only [moduleEntries, List.map_append, List.mem_append, List.map_cons, List.map_nil,
      List.mem_cons, List.not_mem_nil, or_false, apply_ite (List.map Prod.fst),
      List.mem_ite_nil_left] at hk
    rcases hk with ((rfl | ⟨-, rfl⟩) | ⟨-, rfl⟩) | rfl <;> simp
  · by_cases hm : m.main.isEmpty <;> by_cases hw : m.words.isEmpty <;> simp [moduleEntries, hm, hw]
  · intro found want f note
    rw [hfold]
    split <;> simp

theorem decodeUnchecked_of_read_error {bs : List UInt8} {e : Cbor.ReadError}
    (h : Cbor.read bs = .error e) : decodeUnchecked bs = .error (.read e) := by
  simp [decodeUnchecked, h, Except.mapError, bind, Except.bind]

/-! ### Writing -/

/-- The lengths any program's strings have: under `2 ^ 63` bytes, the bound of the decoder's
length fields. -/
def Fits (m : Module) : Prop :=
  m.name.length < 2 ^ 63 ∧ m.main.length < 2 ^ 63 ∧ m.words.length < 2 ^ 63 ∧
    ∀ w ∈ m.words, w.name.length < 2 ^ 63 ∧ ∀ c, w.code = some c → c.length < 2 ^ 63

/-- A word's map reads back as its item. -/
theorem reads_wordEncode {w : ModuleWord} (hn : w.name.length < 2 ^ 63)
    (hc : ∀ c, w.code = some c → c.length < 2 ^ 63) :
    Cbor.Reads (ModuleWord.encode w) (wordItem w) 1 := by
  have hcode : Cbor.Reads (match w.code with | some c => Cbor.writeBytes c | none => Cbor.null)
      (match w.code with | some c => .bytes c | none => .prim 22 22) 0 := by
    cases hw : w.code with
    | some c => exact Cbor.reads_bytes (hc c hw)
    | none => exact Cbor.reads_null
  exact Cbor.reads_map (.cons ⟨Cbor.reads_uint (n := 1) (by norm_num), Cbor.reads_text hn⟩
    (.cons ⟨Cbor.reads_uint (n := 2) (by norm_num), hcode⟩ .nil)) (by simp [wordEntries, Cbor.maxElements])

/-- The name and main code entries of a module's map read back. -/
theorem pairsRead_front {m : Module} (hn : m.name.length < 2 ^ 63)
    (hm : m.main.length < 2 ^ 63) :
    Cbor.PairsRead 2
      ([(Cbor.writeUInt 1, Cbor.writeText m.name)] ++
        (if m.main.isEmpty then [] else [(Cbor.writeUInt 2, Cbor.writeBytes m.main)]))
      ([(.uint 1, .text m.name)] ++ (if m.main.isEmpty then [] else [(.uint 2, .bytes m.main)])) := by
  have hname : Cbor.PairsRead 2 [(Cbor.writeUInt 1, Cbor.writeText m.name)] [(.uint 1, .text m.name)] :=
    .cons ⟨(Cbor.reads_uint (n := 1) (by norm_num)).mono (by omega),
      (Cbor.reads_text hn).mono (by omega)⟩ .nil
  by_cases he : m.main.isEmpty
  · simpa [he] using hname
  · simp only [he]
    exact List.rel_append hname
      (.cons ⟨(Cbor.reads_uint (n := 2) (by norm_num)).mono (by omega),
        (Cbor.reads_bytes hm).mono (by omega)⟩ .nil)

/-- **A module's bytes read back as its item**, when it has at most 131072 words. -/
theorem reads_encode {m : Module} (hfit : m.Fits) (hd : m.digest.length = 32)
    (hw : m.words.length ≤ Cbor.maxElements) : Cbor.Reads m.encode (moduleItem m) 3 := by
  obtain ⟨hn, hm, -, hws⟩ := hfit
  have hwords : List.Forall₂ (fun bs x => Cbor.Reads bs x 1) (m.words.map ModuleWord.encode)
      (m.words.map wordItem) := by
    rw [List.forall₂_map_left_iff, List.forall₂_map_right_iff]
    exact List.forall₂_same.mpr fun w hw => reads_wordEncode (hws w hw).1 (hws w hw).2
  have hback : Cbor.PairsRead 2
      ((if m.words.isEmpty then [] else
        [(Cbor.writeUInt 3, Cbor.writeArray (m.words.map ModuleWord.encode))]) ++
        [(Cbor.writeUInt 4, Cbor.writeBytes m.digest)])
      ((if m.words.isEmpty then [] else [(.uint 3, .array (m.words.map wordItem))]) ++
        [(.uint 4, .bytes m.digest)]) := by
    have hdig : Cbor.PairsRead 2 [(Cbor.writeUInt 4, Cbor.writeBytes m.digest)]
        [(.uint 4, .bytes m.digest)] :=
      .cons ⟨(Cbor.reads_uint (n := 4) (by norm_num)).mono (by omega),
        (Cbor.reads_bytes (by omega)).mono (by omega)⟩ .nil
    by_cases he : m.words.isEmpty
    · simpa [he] using hdig
    · simp only [he]
      exact List.rel_append (.cons ⟨(Cbor.reads_uint (n := 3) (by norm_num)).mono (by omega),
        Cbor.reads_array hwords (by simpa using hw)⟩ .nil) hdig
  have hall := List.rel_append (pairsRead_front hn hm) hback
  have hread := Cbor.reads_map hall (by
    simp only [List.length_append, List.length_singleton]
    split_ifs <;> simp [Cbor.maxElements])
  unfold encode moduleItem moduleEntries
  convert hread using 2
  · simp [List.append_assoc]
  · by_cases hme : m.main.isEmpty <;> by_cases hwe : m.words.isEmpty <;> simp [hme, hwe]

/-- **A module of more than 131072 words is refused by the decoder** at the head of its words,
after its name and main code. -/
theorem fails_encode {m : Module} (hfit : m.Fits) (hw : Cbor.maxElements < m.words.length) :
    Cbor.FailsWith m.encode .tooManyElements 3 := by
  obtain ⟨hn, hm, hlong, -⟩ := hfit
  have he : m.words.isEmpty = false := by
    cases hws : m.words with
    | nil => simp [hws, Cbor.maxElements] at hw
    | cons _ _ => rfl
  have hbytes : m.encode = Cbor.writeMap
      (([(Cbor.writeUInt 1, Cbor.writeText m.name)] ++
        (if m.main.isEmpty then [] else [(Cbor.writeUInt 2, Cbor.writeBytes m.main)])) ++
        (Cbor.writeUInt 3, Cbor.writeArray (m.words.map ModuleWord.encode)) ::
          [(Cbor.writeUInt 4, Cbor.writeBytes m.digest)]) := by
    simp [encode, he]
  rw [hbytes]
  refine Cbor.fails_map (pairsRead_front hn hm) ((Cbor.reads_uint (n := 3) (by norm_num)).mono
    (by omega)) ((Cbor.fails_array_tooMany (by simpa using hw) (by simpa using hlong)).mono
    (by omega)) ?_
  split_ifs <;> simp [Cbor.maxElements]

/-- **A module is read back from its bytes** exactly as far as the decoder allows: more than
131072 words are refused before any field is read; otherwise the module comes back when its
name and its words' names are UTF-8, and the first text that is not fails it. -/
theorem decodeUnchecked_encode {m : Module} (hfit : m.Fits) (hd : m.digest.length = 32) :
    decodeUnchecked m.encode =
      if Cbor.maxElements < m.words.length then .error (.read .tooManyElements)
      else if m.namesValid then .ok m else .error .invalidUtf8 := by
  by_cases hmany : Cbor.maxElements < m.words.length
  · -- the decoder stops at the head of the words
    have hread := Cbor.read_eq_error (fails_encode hfit hmany) (by simp [encode, Cbor.writeMap,
      Cbor.head_ne_nil]) (by simp [Cbor.maxNesting])
    rw [if_pos hmany, decodeUnchecked_of_read_error hread]
  · -- the decoder reads the item back, and the fields are walked from it
    have hread := Cbor.read_eq_ok (reads_encode hfit hd (by omega)) (by simp [Cbor.maxNesting])
    rw [if_neg hmany, decodeUnchecked_of_read hread hd]

end StackLink.Module

/-! ### The codec's laws -/

namespace StackLink.ModuleCodec

/-- What reading back a module file assumes of the CBOR library, for the modules a program can
hold (`StackLink.Module.Fits`) with a thirty-two byte digest. `limit` is the most items the
decoder takes in one array. -/
structure Lawful (codec : ModuleCodec) (limit : Nat) : Prop where
  /-- Texts are written as canonical text strings, codes and the digest as byte strings, the
  words as an array: a module whose texts are UTF-8 and whose words fit in an array is read back
  as it was written. -/
  reads_back : ∀ m : Module, m.Fits → m.digest.length = 32 → m.words.length ≤ limit →
    m.namesValid = true → codec.unmarshal (codec.marshal m) = .ok m
  /-- The decoder checks that a text string is UTF-8. -/
  refuses_invalid_utf8 : ∀ m : Module, m.Fits → m.digest.length = 32 →
    m.words.length ≤ limit → m.namesValid = false →
    codec.unmarshal (codec.marshal m) = .error .invalidUtf8
  /-- The decoder refuses an array of more than `limit` items. -/
  refuses_long_arrays : ∀ m : Module, m.Fits → m.digest.length = 32 → limit < m.words.length →
    codec.unmarshal (codec.marshal m) = .error (.read .tooManyElements)

/-- **This library's codec has the laws**, with the decoder's limit of 131072 items. -/
theorem cbor_lawful : cbor.Lawful Cbor.maxElements where
  reads_back m hfit hd hw hv := by
    show Module.decodeUnchecked m.encode = _
    rw [Module.decodeUnchecked_encode hfit hd, if_neg (by omega), if_pos hv]
  refuses_invalid_utf8 m hfit hd hw hv := by
    show Module.decodeUnchecked m.encode = _
    rw [Module.decodeUnchecked_encode hfit hd, if_neg (by omega), hv]
    rfl
  refuses_long_arrays m hfit hd hw := by
    show Module.decodeUnchecked m.encode = _
    rw [Module.decodeUnchecked_encode hfit hd, if_pos hw]

variable {codec : ModuleCodec} {limit : Nat}

/-- **A module file written by a lawful codec is read back** as far as the decoder allows, and a
module that comes back passes its digest check when it did before it was written. -/
theorem Lawful.unmarshalModule_marshal (h : codec.Lawful limit) {m : Module} (hfit : m.Fits)
    (hd : m.digest.length = 32) (hv : m.verify = .ok ()) :
    codec.unmarshalModule (codec.marshal m) =
      if limit < m.words.length then .error (.read .tooManyElements)
      else if m.namesValid then .ok m else .error .invalidUtf8 := by
  by_cases hmany : limit < m.words.length
  · simp [unmarshalModule, h.refuses_long_arrays m hfit hd hmany, hmany, bind, Except.bind]
  · cases hvalid : m.namesValid
    · simp [unmarshalModule, h.refuses_invalid_utf8 m hfit hd (by omega) hvalid, hmany, bind,
        Except.bind]
    · simp [unmarshalModule, h.reads_back m hfit hd (by omega) hvalid, hmany, hv, Except.mapError,
        bind, Except.bind, pure, Except.pure]

end StackLink.ModuleCodec

namespace StackLink.Module

/-! ### Sealing -/

/-- The container a module made from a parsed container stands for: that container's main code
and words, at major version 0 and minor version 2. -/
theorem toContainer_ofContainer (name : List UInt8) (c : Container) :
    (ofContainer name c).toContainer =
      { major := 0, minor := 2, main := c.main, words := c.words } := by
  simp only [toContainer, ofContainer, List.map_map, Container.mk.injEq, true_and]
  conv => rhs; rw [← List.map_id c.words]
  apply List.map_congr_left
  intro ⟨name, code⟩ _
  cases code <;> simp

theorem sealDigest_eq {m : Module} {bytes : List UInt8} (h : m.toContainer.marshal = .ok bytes) :
    m.sealDigest = .ok { m with digest := Sha256.hash bytes } := by
  simp [sealDigest, computeDigest, h, Except.map]

/-- **A sealed module passes its digest check.** -/
theorem verify_sealed {m : Module} {bytes : List UInt8} (h : m.toContainer.marshal = .ok bytes) :
    ({ m with digest := Sha256.hash bytes } : Module).verify = .ok () := by
  have hc : ({ m with digest := Sha256.hash bytes } : Module).toContainer = m.toContainer := rfl
  unfold verify
  split_ifs
  · rfl
  · simp [computeDigest, hc, h, Except.map]

/-! ### Unpacking and packing -/

/-- Unpacking: the module made from a parsed container is sealed over the container's own
contents, at major version 0 and minor version 2, and it fits, and checks, as a module file. -/
theorem sealDigest_ofContainer {d : List UInt8} {c : Container} (hc : Container.parse d = .ok c)
    (name : List UInt8) (hname : name.length < 2 ^ 63) :
    ∃ out, ({ major := 0, minor := 2, main := c.main, words := c.words } : Container).marshal =
        .ok out ∧
      (ofContainer name c).sealDigest = .ok { ofContainer name c with digest := Sha256.hash out } ∧
      ({ ofContainer name c with digest := Sha256.hash out } : Module).Fits ∧
      ({ ofContainer name c with digest := Sha256.hash out } : Module).verify = .ok () := by
  obtain ⟨hfits, hmain, hcount⟩ := Container.fits_of_parse hc
  obtain ⟨out, hout⟩ : ∃ out,
      ({ major := 0, minor := 2, main := c.main, words := c.words } : Container).marshal =
        .ok out :=
    ⟨_, Container.marshal_eq_ok_iff.mpr
      ⟨.inl (show (2 : UInt8) ≤ 2 by decide), fun w hw => (hfits w hw).1, rfl⟩⟩
  have htc : (ofContainer name c).toContainer.marshal = .ok out := by
    rw [toContainer_ofContainer, hout]
  refine ⟨out, hout, sealDigest_eq htc, ⟨hname, ?_, ?_, ?_⟩, verify_sealed htc⟩
  · simp only [ofContainer]
    omega
  · simp only [ofContainer, List.length_map]
    omega
  · simp only [ofContainer, List.mem_map]
    rintro _ ⟨w, hw, rfl⟩
    obtain ⟨hn, hcode⟩ := hfits w hw
    refine ⟨by simp only [Container.maxNameLen] at hn ⊢; omega, fun code hsome => ?_⟩
    split_ifs at hsome
    cases hsome
    omega

/-- **Unpacking a container and packing the module file back keeps the container, as far as
the file form carries it**, with any CBOR library that has the laws of `ModuleCodec.Lawful`.
Unpacking always succeeds: the module made from a parsed container is sealed over the
container's own contents. Packing reads the file back: more words than the decoder takes in an
array are refused, a module name or word name that is not UTF-8 text fails as an invalid string,
and otherwise the module comes back as it was sealed and is written out as the same container,
at major version 0 and minor version 2. -/
theorem unpack_pack_round_trip {codec : ModuleCodec} {limit : Nat} (hcodec : codec.Lawful limit)
    {d : List UInt8} {c : Container} (hc : Container.parse d = .ok c)
    {name : List UInt8} (hname : name.length < 2 ^ 63) :
    ∃ m out, (ofContainer name c).sealDigest = .ok m ∧
      ({ major := 0, minor := 2, main := c.main, words := c.words } : Container).marshal =
        .ok out ∧
      m.toContainer.marshal = .ok out ∧
      codec.unmarshalModule (codec.marshal m) =
        if limit < c.words.length then .error (.read .tooManyElements)
        else if Utf8.isValid name && c.words.all (fun w => Utf8.isValid w.name) then .ok m
        else .error .invalidUtf8 := by
  obtain ⟨out, hout, hseal, hfit, hv⟩ := sealDigest_ofContainer hc name hname
  refine ⟨_, out, hseal, hout, by rw [← hout, ← toContainer_ofContainer name c]; rfl, ?_⟩
  rw [hcodec.unmarshalModule_marshal hfit (Sha256.length_hash out) hv]
  simp [ofContainer, namesValid, Function.comp_def]

/-- A container whose one word is named by the byte `0xFF`, which is no UTF-8 text: it unpacks,
and the module file it unpacks to does not pack. -/
theorem non_utf8_word_does_not_pack :
    ∃ c m, Container.parse [0x56, 0x34, 0x42, 0x43, 0, 2, 0, 0, 1, 0, 0, 0, 1, 0, 0, 0, 0x51,
        1, 0xFF, 1, 0, 0, 0, 0x51] = .ok c ∧
      (ofContainer [0x77] c).sealDigest = .ok m ∧
      ModuleCodec.cbor.unmarshalModule (ModuleCodec.cbor.marshal m) = .error .invalidUtf8 := by
  have hc : Container.parse [0x56, 0x34, 0x42, 0x43, 0, 2, 0, 0, 1, 0, 0, 0, 1, 0, 0, 0, 0x51,
      1, 0xFF, 1, 0, 0, 0, 0x51] = .ok { main := [0x51], words := [⟨[0xFF], [0x51]⟩] } := by
    decide
  have hbad : Utf8.isValid [0xFF] = false := by decide
  obtain ⟨out, -, hseal, hfit, hv⟩ := sealDigest_ofContainer hc [0x77] (by decide)
  refine ⟨_, _, hc, hseal, ?_⟩
  rw [ModuleCodec.cbor_lawful.unmarshalModule_marshal hfit (Sha256.length_hash out) hv]
  simp [namesValid, ofContainer, hbad, Cbor.maxElements]

/-- Unpacking a container of one word, named `square`, and packing it back with this library's
codec. -/
theorem square_unpacks_and_packs :
    ModuleCodec.cbor.Lawful Cbor.maxElements ∧
    ∃ c m, Container.parse [0x56, 0x34, 0x42, 0x43, 0, 2, 0, 0, 5, 0, 0, 0, 1, 0, 0, 0, 0x76, 7,
        0x50, 0, 0, 6, 0x73, 0x71, 0x75, 0x61, 0x72, 0x65, 2, 0, 0, 0, 1, 0x12] = .ok c ∧
      ([0x73, 0x71] : List UInt8).length < 2 ^ 63 ∧
      (ofContainer [0x73, 0x71] c).sealDigest = .ok m ∧
      ModuleCodec.cbor.unmarshalModule (ModuleCodec.cbor.marshal m) = .ok m := by
  have hc : Container.parse [0x56, 0x34, 0x42, 0x43, 0, 2, 0, 0, 5, 0, 0, 0, 1, 0, 0, 0, 0x76, 7,
      0x50, 0, 0, 6, 0x73, 0x71, 0x75, 0x61, 0x72, 0x65, 2, 0, 0, 0, 1, 0x12] =
      .ok { main := [0x76, 7, 0x50, 0, 0],
            words := [⟨[0x73, 0x71, 0x75, 0x61, 0x72, 0x65], [1, 0x12]⟩] } := by
    decide
  have hname : ([0x73, 0x71] : List UInt8).length < 2 ^ 63 := by decide
  obtain ⟨m, -, hseal, -, -, hdec⟩ := unpack_pack_round_trip ModuleCodec.cbor_lawful hc hname
  refine ⟨ModuleCodec.cbor_lawful, _, m, hc, hname, hseal, ?_⟩
  rw [hdec, if_neg (by decide), if_pos (by decide)]

end StackLink.Module
