import Mathlib
import StackLink.Proofs.HostBench

/-!
# The symbol table names no word wrongly

The host records, in its symbol database, the name and the code size of every word an upload
registers on a device, and forgets them when it resets the device. This file shows that what
it records stays true: on the bench of `StackLink.Bench`, after any run of the commands that
talk to the device or read its symbols, every symbol the database lists for the device names a
word the device holds, with that name and a code of that size, and a name resolves to the
symbol of that name with the highest index
(`StackLink.recorded_symbols_name_device_words`).

Each command is a program of `StackLink.Tool.Run` steps. The steps have specifications, as
triples, in terms of the bench's invariant `StackLink.Bench.Tracks`; the specifications rest on
the step lemmas of `StackLink.Bench`, and `mvcgen` puts them together into one triple per
command (`StackLink.Bench.Keeps`). `StackLink.Tool.run_of_triple` reads a triple off as a fact
about the command's run, and an induction over the commands (`StackLink.Bench.Tracks.session`)
carries the invariant along a session.

A device whose server resets it at each connection breaks this: the host keeps the symbols of
an upload, and the next command's connection empties the device
(`StackLink.reset_on_connect_strands_symbols`).
-/

open Std.Do

set_option mvcgen.warning false

namespace StackLink

namespace Tool

/-! ### Reading a command's run off a triple -/

/-- What a triple promises of a command's outcome holds of its run. -/
theorem run_of_triple {α : Type} {x : Run α} {P : World → Prop}
    {Q : Except ToolError α → World → Prop}
    (h : ⦃fun c => ⌜P c.world⌝⦄ x
      ⦃post⟨fun a c => ⌜Q (.ok a) c.world⌝, fun e c => ⌜Q (.error e) c.world⌝⟩⦄)
    (c : Console) (hc : P c.world) : Q (x.run.run c).1 (x.run.run c).2.world := by
  have hwp := h c hc
  simp only [WP.wp, PredTrans.apply_pushExcept, PredTrans.apply_pushArg] at hwp
  generalize StateT.run (ExceptT.run x) c = r at hwp ⊢
  rcases r with ⟨e | a, c'⟩ <;> exact hwp

/-! ### Opening the database -/

theorem run_get (c : Console) :
    StateT.run (ExceptT.run (get : Run Console)) c = pure (.ok c, c) := rfl

/-- A database path that opens without touching a directory is opened in place. -/
theorem openStore_run {path : String} (c : Console) (h : StoreOpens c.world path) :
    (openStore path).run.run c =
      (.ok (.ok (.file (Path.abs c.world.cwd path))),
        { c with world := { c.world with
            disk := openedDisk c.world.disk (Path.abs c.world.cwd path) } }) := by
  obtain ⟨hmem, hdir, hnot⟩ := h
  have hmk : (c.world.disk).mkdirAll c.world.cwd (Path.dir path) = .ok c.world.disk :=
    mkdirAll_of_isDir hdir
  simp only [openStore, hmem, if_false, world, setWorld]
  simp [run_get, hmk, hnot, openedDisk, modify, modifyGet, MonadStateOf.modifyGet]
  rfl

/-- Opening a database that opens in place, as a triple about the console it starts from. -/
theorem openStore_spec {path : String} (c₀ : Console) :
    ⦃fun c => ⌜c = c₀ ∧ StoreOpens c₀.world path⌝⦄ openStore path
    ⦃⇓ r c => ⌜r = .ok (.file (Path.abs c₀.world.cwd path)) ∧
      c = { c₀ with world := { c₀.world with
        disk := openedDisk c₀.world.disk (Path.abs c₀.world.cwd path) } }⌝⦄ := by
  rintro c ⟨rfl, hopen⟩
  simp only [WP.wp, PredTrans.apply_pushExcept, PredTrans.apply_pushArg]
  rw [openStore_run c hopen]
  exact ⟨rfl, rfl⟩

end Tool

namespace Bench

variable {b : Bench} {s : Tool.Settings}

open Tool

/-- **The bench's database opens in place.** -/
theorem openSymbols_spec (hs : b.Aims s) (c₀ : Console) :
    ⦃fun c => ⌜c = c₀ ∧ b.Ready c₀.world⌝⦄ openSymbols s
    ⦃⇓ r c => ⌜r = .ok (.file b.db) ∧ c = { c₀ with world := b.opened c₀.world }⌝⦄ := by
  mvcgen [openSymbols, world, openStore_spec]
  -- the settings name the bench's database, which opens in place
  all_goals
    obtain ⟨rfl, hready⟩ := ‹_ ∧ b.Ready _›
    cases (hs.store _ hready.home).symm.trans ‹storePath s _ = _›
  · exact ⟨trivial, hready.storeOpens⟩
  · rintro rfl rfl
    rw [show Path.abs _ b.store = b.db from congrArg (Path.abs · b.store) hready.cwd]
    exact ⟨rfl, rfl⟩

/-- **Reaching the bench's device finds it as it is.** -/
theorem connectTo_spec (hs : b.Aims s) :
    ⦃fun c => ⌜b.Tracks c.world⌝⦄ connectTo s
    ⦃⇓ r c => ⌜r = .ok ⟨b.line⟩ ∧ b.Tracks c.world⌝⦄ := by
  mvcgen [connectTo, world, setWorld]
  have hdial := (‹b.Tracks _›).dial
  rw [← hs.target] at hdial
  exact hdial

/-- A request other than a reset keeps the invariant. -/
theorem ask_spec {conn : Conn} {cmd : Command} (hcmd : cmd ≠ Command.reset)
    (payload : List UInt8) :
    ⦃fun c => ⌜conn = ⟨b.line⟩ ∧ b.Tracks c.world⌝⦄ ask conn cmd payload
    ⦃⇓ _ c => ⌜b.Tracks c.world⌝⦄ := by
  mvcgen [ask, world, setWorld]
  obtain ⟨rfl, h⟩ := ‹_ ∧ b.Tracks _›
  exact h.request hcmd payload

/-- **An upload keeps the invariant, and the rows the host reads off an accepted one are true
of the device's words.** -/
theorem ask_exec_spec {conn : Conn} (payload : List UInt8) :
    ⦃fun c => ⌜conn = ⟨b.line⟩ ∧ b.Tracks c.world⌝⦄ ask conn .exec payload
    ⦃⇓ r c => ⌜b.Tracks c.world ∧ ∀ reply, r = .ok reply → ∀ idx,
      Client.parseIndices reply.extra = .ok idx → ∀ rows, uploadRows payload idx = .ok rows →
        b.Registered c.world rows⌝⦄ := by
  mvcgen [ask, world, setWorld]
  obtain ⟨rfl, h⟩ := ‹_ ∧ b.Tracks _›
  refine ⟨h.request (by decide) payload, ?_⟩
  rintro reply hr idx hidx rows hrows
  exact h.request_exec payload hr hidx hrows

/-- **A reset is answered `OK` and leaves the bench ready.** -/
theorem ask_reset_spec {conn : Conn} :
    ⦃fun c => ⌜conn = ⟨b.line⟩ ∧ b.Ready c.world⌝⦄ ask conn .reset []
    ⦃⇓ r c => ⌜r = .ok ⟨Status.ok, []⟩ ∧ b.Ready c.world⌝⦄ := by
  mvcgen [ask, world, setWorld]
  obtain ⟨rfl, h⟩ := ‹_ ∧ b.Ready _›
  exact h.request_reset

/-! ### Commands -/

/-- Reading the payload of a file leaves the console as it is. -/
theorem loadPayload_spec (c₀ : Console) (path : String) :
    ⦃fun c => ⌜c = c₀⌝⦄ loadPayload path ⦃post⟨fun _ c => ⌜c = c₀⌝, fun _ c => ⌜c = c₀⌝⟩⦄ := by
  mvcgen [loadPayload, readFile, must, world]

variable (b) in
/-- A command keeps the invariant: it holds after the command, whether the command ends well
or with an error. -/
def Keeps (x : Run Unit) : Prop :=
  ⦃fun c => ⌜b.Tracks c.world⌝⦄ x
  ⦃post⟨fun _ c => ⌜b.Tracks c.world⌝, fun _ c => ⌜b.Tracks c.world⌝⟩⦄

theorem keeps_ping (hs : b.Aims s) : b.Keeps (ping s) := by
  unfold Keeps
  have hconn := connectTo_spec hs
  mvcgen [ping, must, emit, hconn, ask_spec]
  all_goals simp_all

theorem keeps_reset (hs : b.Aims s) : b.Keeps (reset s) := by
  unfold Keeps
  have hconn := connectTo_spec hs
  have hopen := openSymbols_spec hs
  mvcgen [reset, must, emit, hconn, ask_reset_spec, hopen, table, saveTable, world, setWorld]
  all_goals simp_all [Tracks]
  -- after the reset, the database is opened and cleared of the device's symbols
  obtain ⟨-, hready⟩ := ‹_ = _ ∧ b.Ready _›
  obtain ⟨rfl, rfl⟩ := ‹_ = b.db ∧ _›
  simp +zetaDelta only [hs.device]
  exact hready.opened.clear

theorem keeps_exec (hs : b.Aims s) (path : String) : b.Keeps (exec s path) := by
  unfold Keeps
  have hconn := connectTo_spec hs
  have hopen := openSymbols_spec hs
  mvcgen [exec, loadPayload_spec, must, emit, hconn, ask_exec_spec, hopen, table, saveTable,
    world, setWorld]
  all_goals simp_all [Tracks]
  -- an accepted upload: its rows are recorded in the opened database
  obtain ⟨htracks, hrows⟩ := ‹(b.Ready _ ∧ b.Named _) ∧ b.Registered _ _›
  obtain ⟨rfl, rfl⟩ := ‹_ = b.db ∧ _›
  simp +zetaDelta only [hs.device]
  exact (Tracks.opened htracks).record (hrows.congr rfl) _

theorem keeps_stack (hs : b.Aims s) : b.Keeps (stack s) := by
  unfold Keeps
  have hconn := connectTo_spec hs
  mvcgen [stack, must, emit, hconn, ask_spec]
  all_goals simp_all

theorem keeps_mem (hs : b.Aims s) (a n : String) : b.Keeps (mem s a n) := by
  unfold Keeps
  have hconn := connectTo_spec hs
  mvcgen [mem, must, emit, hconn, ask_spec]
  all_goals simp_all

theorem keeps_word (hs : b.Aims s) (arg : String) : b.Keeps (word s arg) := by
  unfold Keeps
  have hconn := connectTo_spec hs
  have hopen := openSymbols_spec hs
  mvcgen [word, must, emit, hconn, ask_spec, deviceNames, hopen, table, world]
  all_goals simp_all [Tracks]
  -- the names are read off the opened database
  obtain ⟨-, rfl⟩ := ‹_ = b.db ∧ _›
  exact Tracks.opened (by assumption)

theorem keeps_words (hs : b.Aims s) (all : Bool) : b.Keeps (words s all) := by
  unfold Keeps
  have hopen := openSymbols_spec hs
  mvcgen [words, must, emit, hopen, table, world]
  all_goals simp_all [Tracks]
  -- the names are read off the opened database
  obtain ⟨-, rfl⟩ := ‹_ = b.db ∧ _›
  exact Tracks.opened (by assumption)

end Bench

/-! ### Sessions -/

namespace Tool

/-- The commands that talk to a device or read its symbols: an upload, a reset, and the
queries. -/
inductive DeviceCommand where
  | ping
  | reset
  | exec (path : String)
  | stack
  | mem (addr len : String)
  | word (arg : String)
  | words (all : Bool)
  deriving DecidableEq, Repr

namespace DeviceCommand

/-- Runs a command with its settings, as the command line runs it. -/
def run (s : Settings) : DeviceCommand → Run Unit
  | .ping => Tool.ping s
  | .reset => Tool.reset s
  | .exec path => Tool.exec s path
  | .stack => Tool.stack s
  | .mem addr len => Tool.mem s addr len
  | .word arg => Tool.word s arg
  | .words all => Tool.words s all

/-- The world after a command runs in it, from a clean console. -/
def after (w : World) (s : Settings) (x : DeviceCommand) : World :=
  ((x.run s).run.run ⟨w, ""⟩).2.world

end DeviceCommand

/-- The world after commands run one after another, each with its own settings. -/
def session (w : World) : List (Settings × DeviceCommand) → World
  | [] => w
  | (s, x) :: rest => session (x.after w s) rest

end Tool

namespace Bench

open Tool

variable {b : Bench} {s : Settings} {w : World}

theorem keeps_run (hs : b.Aims s) (x : DeviceCommand) : b.Keeps (x.run s) := by
  cases x with
  | ping => exact keeps_ping hs
  | reset => exact keeps_reset hs
  | exec path => exact keeps_exec hs path
  | stack => exact keeps_stack hs
  | mem addr len => exact keeps_mem hs addr len
  | word arg => exact keeps_word hs arg
  | words all => exact keeps_words hs all

/-- **Every command keeps the invariant.** -/
theorem Tracks.after (h : b.Tracks w) (hs : b.Aims s) (x : DeviceCommand) :
    b.Tracks (x.after w s) :=
  run_of_triple (Q := fun _ w => b.Tracks w) (keeps_run hs x) ⟨w, ""⟩ h

/-- **A session keeps the invariant**, when every command of it aims at the bench. -/
theorem Tracks.session {cmds : List (Settings × DeviceCommand)} (h : b.Tracks w)
    (hs : ∀ x ∈ cmds, b.Aims x.1) : b.Tracks (session w cmds) := by
  induction cmds generalizing w with
  | nil => exact h
  | cons x rest ih =>
    exact ih (h.after (hs x List.mem_cons_self) x.2) fun y hy => hs y (List.mem_cons_of_mem x hy)

/-- A ready world whose database lists nothing for the device satisfies the invariant. -/
theorem Ready.tracks (h : b.Ready w) (hempty : (w.disk.symbols b.db).list b.device = []) :
    b.Tracks w := by
  refine ⟨h, fun ws _ sym hsym => ?_⟩
  rw [hempty] at hsym
  cases hsym

end Bench

/-- **The symbol table names no word wrongly.** Take a device on the bench, ready, whose
database lists nothing for it, and run any commands whose settings aim at it. Then the device is
still on its line; every symbol the database lists for it names a word the device holds, with
that name and a code of that size; and a name resolves to the symbol of that name with the
highest index, and to no other. -/
theorem recorded_symbols_name_device_words (b : Bench) {w : World} (hready : b.Ready w)
    (hempty : (w.disk.symbols b.db).list b.device = [])
    (cmds : List (Tool.Settings × Tool.DeviceCommand)) (haim : ∀ x ∈ cmds, b.Aims x.1) :
    let t := (Tool.session w cmds).disk.symbols b.db
    ∃ srv, (Tool.session w cmds).lines.lookup b.line = some (.simulator srv b.sys) ∧
      (∀ sym ∈ t.list b.device, ∃ wd, srv.worker.link.machine.words[sym.index.toNat]? = some wd ∧
        wd.name = sym.name ∧ (wd.code.length : Int) = sym.size) ∧
      ∀ name sym, t.lookup b.device name = .ok sym ↔
        sym ∈ t.list b.device ∧ sym.name = name ∧
          ∀ o ∈ t.list b.device, o.name = name → o.index ≤ sym.index := by
  intro t
  obtain ⟨hr, hn⟩ := (hready.tracks hempty).session haim
  obtain ⟨srv, hl, -⟩ := hr.device
  have hwords : b.words? (Tool.session w cmds) = some srv.worker.link.machine.words := by
    simp [Bench.words?, hl]
  exact ⟨srv, hl, fun sym hsym => hn _ hwords sym hsym,
    fun name sym => SymbolTable.lookup_eq_ok_iff hr.sorted b.device name sym⟩

/-! ### A session on a bench -/

/-- A bench: a device with the default machine and link on the serial line `tty` of the
directory `/w`, its symbols kept in `syms.db` there. -/
def sampleBench : Bench where
  port := "tty"
  sys := none
  machine := MachineConfig.default
  link := LinkConfig.default
  device := "tty"
  store := "syms.db"
  cwd := "/w"
  home := some "/h"
  confined := by simp
  roomy := by decide
  indexable := by decide
  onDisk := by decide
  serial := by decide +kernel

/-- A fresh server of the bench's device, which resets the device at each connection or not. -/
def sampleServer (resets : Bool) : Server :=
  { worker := { link := Link.new (Machine.new sampleBench.machine) sampleBench.link },
    options := { resetOnConnect := resets } }

/-- The bench's world: a bare code `a.bin` of one instruction, and the device on its line. -/
def sampleWorld (resets : Bool) : World where
  cwd := "/w"
  home := some "/h"
  clock := 0
  disk := { files := [("/w/a.bin", .bytes [0x51])], dirs := ["/", "/w"] }
  lines := [(sampleBench.line, .simulator (sampleServer resets) sampleBench.sys)]

/-- Settings that reach the device by its port and name it after the port. -/
def sampleSettings : Tool.Settings := ⟨{}, "tty", "tty", .table, "syms.db"⟩

theorem sampleBench_ready : sampleBench.Ready (sampleWorld false) where
  cwd := rfl
  home := rfl
  storeDir := by decide +kernel
  storeFile := by decide +kernel
  sorted := by unfold SymbolTable.Sorted; decide +kernel
  device := ⟨sampleServer false, by simp [sampleWorld], .new, rfl, rfl, rfl⟩

theorem sampleSettings_aims : sampleBench.Aims sampleSettings := ⟨rfl, rfl, fun _ _ => rfl⟩

/-- Two uploads of the same code around a query: the database lists both words, under the
same empty name, and the name resolves to the second. -/
theorem two_uploads_keep_symbols_true :
    let w := Tool.session (sampleWorld false)
      [(sampleSettings, .exec "a.bin"), (sampleSettings, .word "0"),
        (sampleSettings, .exec "a.bin")]
    let t := w.disk.symbols sampleBench.db
    (t.list sampleBench.device).map (·.index) = [0, 1] ∧
    ∃ srv, w.lines.lookup sampleBench.line = some (.simulator srv sampleBench.sys) ∧
      (∀ sym ∈ t.list sampleBench.device, ∃ wd,
        srv.worker.link.machine.words[sym.index.toNat]? = some wd ∧
          wd.name = sym.name ∧ (wd.code.length : Int) = sym.size) ∧
      ∀ name sym, t.lookup sampleBench.device name = .ok sym ↔
        sym ∈ t.list sampleBench.device ∧ sym.name = name ∧
          ∀ o ∈ t.list sampleBench.device, o.name = name → o.index ≤ sym.index :=
  ⟨by decide +kernel, recorded_symbols_name_device_words sampleBench sampleBench_ready
    (by decide +kernel) _ (by simp [sampleSettings_aims])⟩

/-- **A device reset at each connection strands the symbols of an upload.** With a server that
resets the device whenever the host connects, an upload records its word, and the next
command's connection empties the device: the database lists a symbol for a device that holds
no word. -/
theorem reset_on_connect_strands_symbols :
    let w := Tool.session (sampleWorld true)
      [(sampleSettings, .exec "a.bin"), (sampleSettings, .ping)]
    (w.disk.symbols sampleBench.db).list sampleBench.device ≠ [] ∧
      sampleBench.words? w = some #[] := by
  decide +kernel

end StackLink
