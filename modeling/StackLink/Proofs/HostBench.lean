import Mathlib
import StackLink.Host.Tool.Run
import StackLink.Proofs.SymbolTable
import StackLink.Proofs.Registration
import StackLink.Proofs.SerialLine
import StackLink.Proofs.Resets

/-!
# A device on the bench, and what one request does to it

A host works with one simulated device (`StackLink.Bench`): it opens the device's serial line by
one port, records the device's symbols under one name, and keeps them in one database file. The
bench's invariant (`StackLink.Bench.Tracks`) has two parts. The world is ready for the next
command (`StackLink.Bench.Ready`): the device's link is one the host can reach from a fresh
link and waits for a frame, and the database opens and is sorted. And every symbol the database
lists for the device is true of the device's words (`StackLink.Bench.Named`): the word at the
symbol's index exists, with the symbol's name and a code of the symbol's size.

This file says what each step a command can take does to the invariant.

| step | what follows | lemma |
|---|---|---|
| opening the line | the device as it is | `StackLink.Bench.Tracks.dial` |
| a request, not a reset | the invariant: words are only added | `StackLink.Bench.Tracks.request` |
| an `OK` upload | the rows the host reads are true | `StackLink.Bench.Tracks.request_exec` |
| a reset | readiness, and an `OK` reply | `StackLink.Bench.Ready.request_reset` |
| opening the database | the invariant | `StackLink.Bench.Tracks.opened` |
| clearing the device | the invariant, from readiness | `StackLink.Bench.Ready.clear` |
| recording true rows | the invariant | `StackLink.Bench.Tracks.record` |

Each request rests on `StackLink.World.request_simulator`: the device answers the request
frame as its link answers it (`StackLink.Bench.Serves.request_eq`) and is ready again after
(`StackLink.Bench.Serves.answer`). A reset is the one step that breaks the second part: it
leaves the device without words while the database still lists them. The host clears them next.
-/

namespace StackLink

/-! ### Files on the disk -/

namespace Disk

@[simp]
theorem isDir_put (d : Disk) (p q : String) (c : Content) : (d.put p c).isDir q = d.isDir q := by
  unfold put isDir
  split <;> rfl

theorem file?_put_self (d : Disk) (p : String) (c : Content) : (d.put p c).file? p = some c := by
  unfold put file?
  split
  · rename_i hsome
    rw [lookup_map_replace, if_pos rfl]
    obtain ⟨old, hold⟩ := Option.isSome_iff_exists.mp hsome
    simp [hold]
  · rename_i hnone
    simp only [Option.not_isSome_iff_eq_none] at hnone
    simp [List.lookup_append, hnone]

@[simp]
theorem symbols_put (d : Disk) (p : String) (t : SymbolTable) :
    (d.put p (.symbols t)).symbols p = t := by
  simp [symbols, file?_put_self]

end Disk

namespace Tool

/-- The disk after the database at `p` is opened: a database is made there unless one is there
already. -/
def openedDisk (d : Disk) (p : String) : Disk :=
  match d.file? p with
  | some (.symbols _) => d
  | _ => d.put p (.symbols {})

@[simp]
theorem isDir_openedDisk (d : Disk) (p q : String) : (openedDisk d p).isDir q = d.isDir q := by
  unfold openedDisk
  split <;> simp

/-- Opening a database keeps its symbols; a path with no database reads as an empty one. -/
@[simp]
theorem symbols_openedDisk (d : Disk) (p : String) : (openedDisk d p).symbols p = d.symbols p := by
  unfold openedDisk
  split
  · rfl
  · rename_i hno
    rw [Disk.symbols_put]
    unfold Disk.symbols
    split
    · rename_i t ht
      exact absurd ht (hno t)
    · rfl

/-- A database path that opens in a world without touching a directory: a file path, whose
directory exists, and which is no directory itself. -/
def StoreOpens (w : World) (path : String) : Prop :=
  path ≠ ":memory:" ∧ w.disk.isDir (Path.abs w.cwd (Path.dir path)) = true ∧
    w.disk.isDir (Path.abs w.cwd path) = false

/-- Making a directory that exists changes nothing. -/
theorem mkdirAll_of_isDir {d : Disk} {cwd path : String} (h : d.isDir (Path.abs cwd path) = true) :
    d.mkdirAll cwd path = .ok d := by
  unfold Disk.mkdirAll
  cases hl : path.length with
  | zero => rfl
  | succ k => simp [Disk.mkdirAll.go, h]

end Tool

/-! ### A device on the bench -/

/-- A host set up to work with one simulated device. The host opens the device's serial line by
the path `port`; the device's machine makes system calls through `sys` and was built with the
configurations `machine` and `link`; the host records the device's symbols under the name
`device`, in the database at `store`; and the host works in `cwd`, with `home` as its home
directory. The bench carries what the host's commands rely on: a confined handler, a receive
buffer with room for the largest payload, at most `2^16` words (as many as a word index can
name), a database that is a file, and a port that names a serial line. -/
structure Bench where
  port : String
  sys : Option (SysHandler Id)
  machine : MachineConfig
  link : LinkConfig
  device : String
  store : String
  cwd : String
  home : Option String
  confined : ∀ h, sys = some h → h.Confined
  roomy : maxPayload ≤ link.clamp.bufferSize.toNat
  indexable : machine.maxWords ≤ 65536
  onDisk : store ≠ ":memory:"
  serial : port.startsWith "tcp://" = false ∧ port.startsWith "serial://" = false

/-- A symbol is true of a word table when the word at its index exists, with its name and a
code of its size. -/
def Symbol.Describes (sym : Symbol) (ws : Array Word) : Prop :=
  ∃ w, ws[sym.index.toNat]? = some w ∧ w.name = sym.name ∧
    (w.code.length : Int) = sym.size

/-- A symbol stays true when words are added after the table. -/
theorem Symbol.Describes.append {sym : Symbol} {ws : Array Word} (h : sym.Describes ws)
    (vs : List Word) : sym.Describes (ws ++ vs.toArray) := by
  obtain ⟨w, hw, hname, hsize⟩ := h
  have hlt : sym.index.toNat < ws.size := by
    by_contra hge
    rw [Array.getElem?_eq_none (by omega)] at hw
    cases hw
  exact ⟨w, by rw [Array.getElem?_append_left hlt, hw], hname, hsize⟩

/-- How a server's link answers the request frame `g`: the link after, and its answer. -/
def Server.answer (srv : Server) (sys : Option (SysHandler Id)) (g : List UInt8) : Link × Answer :=
  Id.run ({ srv.worker.link with rx := (srv.worker.link.rx.feed g).1 }.handleFrame sys g)

namespace Bench

variable (b : Bench)

/-- The absolute path of the device's serial line. -/
def line : String := Path.abs b.cwd b.port

/-- The absolute path of the symbol database. -/
def db : String := Path.abs b.cwd b.store

/-- A server ready for the host's next request: its link is one the host can reach from a fresh
link, its receiver waits for a frame, its worker runs, and a connection does not reset it. -/
structure Serves (srv : Server) : Prop where
  reachable : Link.Reachable b.sys b.machine b.link srv.worker.link
  waiting : srv.worker.link.rx.phase = .waitStart
  running : srv.worker.stopped = false
  keeps : srv.options.resetOnConnect = false

/-- What the host's commands keep of the world, symbols aside: the working and home
directories, a database that opens and is sorted, and the device on its line, ready. -/
structure Ready (w : World) : Prop where
  cwd : w.cwd = b.cwd
  home : w.home = b.home
  storeDir : w.disk.isDir (Path.abs b.cwd (Path.dir b.store)) = true
  storeFile : w.disk.isDir b.db = false
  sorted : (w.disk.symbols b.db).Sorted
  device : ∃ srv, w.lines.lookup b.line = some (.simulator srv b.sys) ∧ b.Serves srv

/-- The words of the device on the line. -/
def words? (w : World) : Option (Array Word) :=
  match w.lines.lookup b.line with
  | some (.simulator srv _) => some srv.worker.link.machine.words
  | _ => none

/-- Every symbol the database lists for the device is true of the device's words. -/
def Named (w : World) : Prop :=
  ∀ ws, b.words? w = some ws → ∀ sym ∈ (w.disk.symbols b.db).list b.device, sym.Describes ws

/-- **The bench's invariant**: the world is ready for the next command, and the database names
no word of the device wrongly. -/
def Tracks (w : World) : Prop := b.Ready w ∧ b.Named w

/-- Settings that reach the bench's device by its port, record under its name, and keep the
database at its path. -/
structure Aims (s : Tool.Settings) : Prop where
  target : s.target = b.port
  device : s.device = b.device
  store : ∀ w : World, w.home = b.home → Tool.storePath s w = .ok b.store

/-- Rows the host pairs with an upload's indices are true of the device's words: at each index,
a word with that name and a code of that size. -/
def Registered (w : World) (rows : List (UInt16 × List UInt8 × Nat)) : Prop :=
  ∀ ws, b.words? w = some ws → ∀ row ∈ rows,
    ∃ wd, ws[row.1.toNat]? = some wd ∧ wd.name = row.2.1 ∧ wd.code.length = row.2.2

variable {b} {w w' : World}

/-! ### What the bench looks at -/

theorem words?_congr (hl : w'.lines.lookup b.line = w.lines.lookup b.line) :
    b.words? w' = b.words? w := by
  simp only [words?, hl]

/-- The bench sees a world through its directories, its disk and the line's device. -/
theorem Ready.congr (h : b.Ready w) (hc : w'.cwd = w.cwd) (hh : w'.home = w.home)
    (hd : w'.disk = w.disk) (hl : w'.lines.lookup b.line = w.lines.lookup b.line) :
    b.Ready w' :=
  ⟨hc.trans h.cwd, hh.trans h.home, hd ▸ h.storeDir, hd ▸ h.storeFile, hd ▸ h.sorted,
    hl ▸ h.device⟩

theorem Named.congr (h : b.Named w) (hd : w'.disk = w.disk)
    (hl : w'.lines.lookup b.line = w.lines.lookup b.line) : b.Named w' := by
  intro ws hws
  rw [hd]
  exact h ws (by rwa [words?_congr hl] at hws)

theorem Tracks.congr (h : b.Tracks w) (hc : w'.cwd = w.cwd) (hh : w'.home = w.home)
    (hd : w'.disk = w.disk) (hl : w'.lines.lookup b.line = w.lines.lookup b.line) :
    b.Tracks w' :=
  ⟨h.1.congr hc hh hd hl, h.2.congr hd hl⟩

theorem Registered.congr {rows : List (UInt16 × List UInt8 × Nat)} (h : b.Registered w rows)
    (hl : w'.lines.lookup b.line = w.lines.lookup b.line) : b.Registered w' rows := by
  intro ws hws
  exact h ws (by rwa [words?_congr hl] at hws)

/-- A world the bench is ready in opens the database without touching a directory. -/
theorem Ready.storeOpens (h : b.Ready w) : Tool.StoreOpens w b.store := by
  refine ⟨b.onDisk, ?_, ?_⟩
  · rw [h.cwd]
    exact h.storeDir
  · rw [h.cwd]
    exact h.storeFile

/-! ### Opening the line -/

/-- **Opening the device's line reaches the device as it is.** -/
theorem Ready.dial (h : b.Ready w) :
    (w.dial b.port).2 = .ok ⟨b.line⟩ ∧ (w.dial b.port).1.cwd = w.cwd ∧
      (w.dial b.port).1.home = w.home ∧ (w.dial b.port).1.disk = w.disk ∧
      (w.dial b.port).1.lines.lookup b.line = w.lines.lookup b.line := by
  obtain ⟨srv, hl, hs⟩ := h.device
  have hline : Path.abs w.cwd b.port = b.line := by rw [h.cwd]; rfl
  rw [World.dial_line b.serial.1 b.serial.2 (by rw [hline]; exact hl), hline,
    World.connect_of_keep hs.keeps]
  refine ⟨rfl, rfl, rfl, rfl, ?_⟩
  rw [World.lookup_setLine, if_pos rfl, hl]
  rfl

theorem Tracks.dial (h : b.Tracks w) :
    (w.dial b.port).2 = .ok ⟨b.line⟩ ∧ b.Tracks (w.dial b.port).1 := by
  obtain ⟨hconn, hc, hh, hd, hl⟩ := h.1.dial
  exact ⟨hconn, h.congr hc hh hd hl⟩

/-! ### One request -/

/-- A request frame reads back as the request. -/
theorem Frame.decode_request (cmd : Command) {payload : List UInt8}
    (h : payload.length ≤ maxPayload) :
    Frame.decode (wrap cmd.code payload.length payload) = .ok ⟨cmd, payload⟩ :=
  Frame.decode_eq_ok_iff.mpr
    (Direction.request.decode_wrap (by simp only [maxPayload, Direction.bias] at h ⊢; omega))

variable {srv : Server}

theorem Serves.fits (hs : b.Serves srv) : Link.Fits b.machine b.link srv.worker.link :=
  hs.reachable.fits b.confined

/-- A ready device answers a request that fits a frame as its link answers the frame. -/
theorem Serves.request_eq (hs : b.Serves srv)
    (hl : w.lines.lookup b.line = some (.simulator srv b.sys)) (cmd : Command)
    {payload : List UInt8} (hfit : payload.length ≤ maxPayload) :
    w.request ⟨b.line⟩ cmd payload =
      (w.setLine b.line (.simulator
          { srv with worker := { srv.worker with
            link := (srv.answer b.sys (wrap cmd.code payload.length payload)).1 } } b.sys),
        match (srv.answer b.sys (wrap cmd.code payload.length payload)).2 with
        | .reply f => Client.decodeReply cmd f
        | .abort _ => .error (.deadline cmd)) :=
  World.request_simulator hl b.confined hs.keeps hs.running hs.waiting hs.fits.direction
    (by rw [hs.fits.capacity]; exact b.roomy) cmd hfit

/-- **A ready device is ready again after it answers a request.** -/
theorem Serves.answer (hs : b.Serves srv) (cmd : Command) {payload : List UInt8}
    (hfit : payload.length ≤ maxPayload) :
    b.Serves { srv with worker := { srv.worker with
      link := (srv.answer b.sys (wrap cmd.code payload.length payload)).1 } } := by
  have hcap : payload.length ≤ srv.worker.link.rx.capacity := by
    rw [hs.fits.capacity]
    exact hfit.trans b.roomy
  have hmax : payload.length < 65536 := by simp only [maxPayload] at hfit; omega
  have hbias : payload.length + srv.worker.link.rx.direction.bias = payload.length := by
    rw [hs.fits.direction]
    rfl
  refine ⟨?_, ?_, hs.running, hs.keeps⟩
  · -- the link after is the link after writing the frame
    have hreach := hs.reachable.write (wrap cmd.code payload.length payload)
    rwa [Link.write_wrap _ hs.waiting hs.fits.direction hcap hmax] at hreach
  · -- and its receiver waits for the next frame
    have hframe : srv.worker.link.rx.feed
        (wrap cmd.code (payload.length + srv.worker.link.rx.direction.bias) payload) = _ :=
      Receiver.feed_wrap hs.waiting hcap (by rw [hbias]; exact hmax)
    rw [hbias] at hframe
    show (Id.run (Link.handleFrame b.sys _ _)).1.rx.phase = .waitStart
    rw [Link.handleFrame_rx b.confined, hframe]

/-- The line holds the device a request left. -/
theorem lookup_answered (hl : w.lines.lookup b.line = some (.simulator srv b.sys)) (srv' : Server) :
    (w.setLine b.line (.simulator srv' b.sys)).lines.lookup b.line =
      some (.simulator srv' b.sys) := by
  rw [World.lookup_setLine, if_pos rfl, hl]
  rfl

/-- **A request other than a reset keeps the bench's invariant**: the device only adds words,
and the database is not touched. -/
theorem Tracks.request (h : b.Tracks w) {cmd : Command} (hcmd : cmd ≠ Command.reset)
    (payload : List UInt8) : b.Tracks (w.request ⟨b.line⟩ cmd payload).1 := by
  obtain ⟨srv, hl, hs⟩ := h.1.device
  by_cases hfit : payload.length ≤ maxPayload
  · -- the frame is answered by the link, which only adds words
    obtain ⟨added, hadded⟩ :=
      Link.handleFrame_words b.confined _ (Frame.decode_request cmd hfit) hcmd
    rw [hs.request_eq hl cmd hfit]
    refine ⟨⟨h.1.cwd, h.1.home, h.1.storeDir, h.1.storeFile, h.1.sorted,
      ⟨_, lookup_answered hl _, hs.answer cmd hfit⟩⟩, ?_⟩
    intro ws hws sym hsym
    simp only [words?, lookup_answered hl] at hws
    cases hws
    rw [Server.answer, hadded]
    have hbefore : b.words? w = some srv.worker.link.machine.words := by simp [words?, hl]
    exact (h.2 _ hbefore sym hsym).append added
  · rw [World.request_of_long (by omega)]
    exact h

/-- An index paired with the image of the `j`-th of `xs` is the `j`-th index from `n`. -/
theorem mem_zip_range' {α β : Type} {n : Nat} {xs : List α} {f : α → β} {row : UInt16 × β}
    (h : row ∈ ((List.range' n xs.length).map UInt16.ofNat).zip (xs.map f)) :
    ∃ j, ∃ hj : j < xs.length, row = (UInt16.ofNat (n + j), f xs[j]) := by
  induction xs generalizing n with
  | nil => simp at h
  | cons x xs ih =>
    rw [List.length_cons, List.range'_succ, List.map_cons, List.map_cons, List.zip_cons_cons,
      List.mem_cons] at h
    rcases h with rfl | h
    · exact ⟨0, by simp, by simp⟩
    · obtain ⟨j, hj, rfl⟩ := ih h
      exact ⟨j + 1, by simp [hj], by simp [Nat.add_assoc, Nat.add_comm 1 j]⟩

/-- **The rows the host pairs with an accepted upload's reply are true of the device's words.**
The host reads the indices off the reply and pairs them with the words of the payload it sent;
at each index the device now holds a word with that name and a code of that size. -/
theorem Tracks.request_exec (h : b.Tracks w) (payload : List UInt8) {reply : Reply}
    (hr : (w.request ⟨b.line⟩ Command.exec payload).2 = .ok reply) {idx : List UInt16}
    (hidx : Client.parseIndices reply.extra = .ok idx) {rows : List (UInt16 × List UInt8 × Nat)}
    (hrows : Tool.uploadRows payload idx = .ok rows) :
    b.Registered (w.request ⟨b.line⟩ Command.exec payload).1 rows := by
  obtain ⟨srv, hl, hs⟩ := h.1.device
  by_cases hfit : payload.length ≤ maxPayload
  · rw [hs.request_eq hl _ hfit] at hr ⊢
    have hexec := Link.handleFrame_exec b.sys
      { srv.worker.link with
        rx := (srv.worker.link.rx.feed (wrap Command.exec.code payload.length payload)).1 }
      (Frame.decode_request Command.exec hfit)
    generalize ha : srv.answer b.sys (wrap Command.exec.code payload.length payload) = a at hr ⊢
    obtain ⟨l', _ | cause⟩ := a
    · -- the upload was answered with a reply the host accepts
      rw [Server.answer, hexec] at ha
      obtain ⟨added, hwords, hbound, hparse, hupload⟩ := Link.exec_ok b.confined _ payload ha hr
      rw [hparse, Except.ok.injEq] at hidx
      subst hidx
      rw [hupload, Except.ok.injEq] at hrows
      subst hrows
      intro ws hws row hrow
      simp only [words?, lookup_answered hl, Option.some.injEq] at hws
      subst hws
      obtain ⟨j, hj, rfl⟩ := mem_zip_range' hrow
      -- the `j`-th word added sits at index `n + j`, which a 16-bit index names
      have hcount : srv.worker.link.machine.wordCount + j < UInt16.size := by
        have hcfg := hs.fits.machineConfig
        dsimp only at hbound
        simp only [Machine.wordCount, UInt16.size] at hbound ⊢
        have := b.indexable
        rw [← hcfg] at this
        omega
      refine ⟨added[j], ?_, rfl, rfl⟩
      dsimp only at hwords ⊢
      rw [hwords, UInt16.toNat_ofNat_of_lt' hcount]
      simp [Array.getElem?_append_right, Machine.wordCount]
    · simp at hr
  · rw [World.request_of_long (by omega)] at hr
    cases hr

/-- **A reset is answered `OK`**, and leaves the device ready for the next request and the
database untouched. -/
theorem Ready.request_reset (h : b.Ready w) :
    (w.request ⟨b.line⟩ Command.reset []).2 = .ok ⟨Status.ok, []⟩ ∧
      b.Ready (w.request ⟨b.line⟩ Command.reset []).1 := by
  obtain ⟨srv, hl, hs⟩ := h.device
  have hfit : ([] : List UInt8).length ≤ maxPayload := by simp [maxPayload]
  have hanswer := Link.handleFrame_of_reset b.sys
    { srv.worker.link with
      rx := (srv.worker.link.rx.feed (wrap Command.reset.code ([] : List UInt8).length [])).1 }
    (Frame.decode_request Command.reset hfit) rfl
  have hready := hs.answer Command.reset hfit
  rw [hs.request_eq hl _ hfit]
  rw [Server.answer, hanswer] at hready ⊢
  refine ⟨?_, ⟨h.cwd, h.home, h.storeDir, h.storeFile, h.sorted,
    ⟨_, lookup_answered hl _, hready⟩⟩⟩
  -- the host reads the `OK` frame back
  simp only [Client.decodeReply, decode_replyFrame]
  simp [maxPayload]

/-! ### The database -/

/-- The world after the database is opened. -/
def opened (b : Bench) (w : World) : World := { w with disk := Tool.openedDisk w.disk b.db }

/-- A change of the disk that keeps its directories and leaves the database sorted keeps the
world ready. -/
theorem Ready.withDisk (h : b.Ready w) {d : Disk} (hdir : ∀ p, d.isDir p = w.disk.isDir p)
    (ht : (d.symbols b.db).Sorted) : b.Ready { w with disk := d } :=
  ⟨h.cwd, h.home, by rw [hdir]; exact h.storeDir, by rw [hdir]; exact h.storeFile, ht, h.device⟩

theorem Ready.opened (h : b.Ready w) : b.Ready (b.opened w) :=
  h.withDisk (Tool.isDir_openedDisk _ _) (by simpa using h.sorted)

/-- Opening the database keeps what the bench sees: the directories and the symbols. -/
theorem Tracks.opened (h : b.Tracks w) : b.Tracks (b.opened w) := by
  refine ⟨h.1.opened, fun ws hws sym hsym => ?_⟩
  simp only [Bench.opened, Tool.symbols_openedDisk] at hsym
  exact h.2 ws hws sym hsym

/-- Saving a sorted table as the database keeps the world ready. -/
theorem Ready.save (h : b.Ready w) {t : SymbolTable} (ht : t.Sorted) :
    b.Ready { w with disk := w.disk.put b.db (.symbols t) } :=
  h.withDisk (fun p => Disk.isDir_put _ _ p _) (by simpa using ht)

/-- **A database cleared of the device's symbols names none of its words wrongly.** -/
theorem Ready.clear (h : b.Ready w) :
    b.Tracks
      { w with disk := w.disk.put b.db (.symbols ((w.disk.symbols b.db).clear b.device)) } := by
  refine ⟨h.save (h.sorted.clear b.device), fun ws _ sym hsym => ?_⟩
  simp at hsym

/-- **Recording rows that are true of the device's words keeps every symbol true.** -/
theorem Tracks.record (h : b.Tracks w) {rows : List (UInt16 × List UInt8 × Nat)}
    (hrows : b.Registered w rows) (now : Int) :
    b.Tracks { w with disk := w.disk.put b.db (.symbols ((w.disk.symbols b.db).record
      (rows.map fun (i, n, z) => ⟨b.device, i, n, z, now⟩))) } := by
  obtain ⟨hr, hn⟩ := h
  refine ⟨hr.save (hr.sorted.record _), fun ws hws sym hsym => ?_⟩
  simp only [Disk.symbols_put] at hsym
  obtain ⟨hmem, hdev⟩ := SymbolTable.mem_list.mp hsym
  -- a symbol is one just recorded, from a true row, or one the table held
  rcases SymbolTable.mem_record hmem with hnew | hold
  · obtain ⟨⟨i, n, z⟩, hrow, rfl⟩ := List.mem_map.mp hnew
    obtain ⟨wd, hwd, hname, hsize⟩ := hrows ws hws (i, n, z) hrow
    exact ⟨wd, hwd, by rw [hname], by rw [hsize]⟩
  · exact hn ws hws sym (SymbolTable.mem_list.mpr ⟨hold, hdev⟩)

end Bench

end StackLink
