import StackLink.Shell.Command

/-!
# The commands of the host tool

The host tool's command tree: the root with its persistent flags, one command per
action on a device or a file, the help command and the shell-completion commands.
-/

namespace StackLink.Tool

open Shell

/-- The flags every command takes. -/
def globalFlags : List Flag :=
  [{ name := "config", kind := .text,
     usage := "directory holding v4link.toml (default: search upward from the working directory)" },
   { name := "port", short := some 'p', kind := .text,
     usage := "serial port or tcp://host:port (default from [serial] port, else the simulator)" },
   { name := "device", kind := .text,
     usage := "name the symbol table files uploads under (default: the port)" },
   { name := "output", short := some 'o', kind := .text, default := some (.text "table"),
     usage := "output format: table, json, yaml" },
   { name := "symbols", kind := .text, usage := "symbol database (default from [symbols] db)" },
   { name := "timeout", kind := .duration, usage := "round-trip timeout (default from [serial] timeout)" },
   { name := "verbose", short := some 'v', kind := .count, usage := "increase log verbosity" }]

/-- The flag of a global setting. -/
def globalFlag (name : String) : Flag :=
  (globalFlags.find? (·.name == name)).getD { name, kind := .text, usage := "" }

/-- The flag that chooses where a file command writes. -/
def outFlag (ext : String) : Flag :=
  { name := "out", kind := .text, usage := s!"output file (default: input with {ext} extension)" }

/-- The flag that lists every device. -/
def allFlag : Flag := { name := "all", kind := .switch, usage := "list every device" }

/-- The flag that names an unpacked module. -/
def nameFlag : Flag := { name := "name", kind := .text, usage := "module name (default: input file name)" }

/-- How to load the completion script of a shell, for a tool of a given name. -/
def completionGuide (tool : String) : String → String
  | "bash" =>
    "Generate the autocompletion script for the bash shell.\n\n" ++
    "This script depends on the 'bash-completion' package.\n" ++
    "If it is not installed already, you can install it via your OS's package manager.\n\n" ++
    "To load completions in your current shell session:\n\n" ++
    s!"\tsource <({tool} completion bash)\n\n" ++
    "To load completions for every new session, execute once:\n\n" ++
    "#### Linux:\n\n" ++
    s!"\t{tool} completion bash > /etc/bash_completion.d/{tool}\n\n" ++
    "#### macOS:\n\n" ++
    s!"\t{tool} completion bash > $(brew --prefix)/etc/bash_completion.d/{tool}\n\n" ++
    "You will need to start a new shell for this setting to take effect.\n"
  | "zsh" =>
    "Generate the autocompletion script for the zsh shell.\n\n" ++
    "If shell completion is not already enabled in your environment you will need\n" ++
    "to enable it.  You can execute the following once:\n\n" ++
    "\techo \"autoload -U compinit; compinit\" >> ~/.zshrc\n\n" ++
    "To load completions in your current shell session:\n\n" ++
    s!"\tsource <({tool} completion zsh)\n\n" ++
    "To load completions for every new session, execute once:\n\n" ++
    "#### Linux:\n\n" ++
    s!"\t{tool} completion zsh > \"$\x7bfpath[1]\x7d/_{tool}\"\n\n" ++
    "#### macOS:\n\n" ++
    s!"\t{tool} completion zsh > $(brew --prefix)/share/zsh/site-functions/_{tool}\n\n" ++
    "You will need to start a new shell for this setting to take effect.\n"
  | "fish" =>
    "Generate the autocompletion script for the fish shell.\n\n" ++
    "To load completions in your current shell session:\n\n" ++
    s!"\t{tool} completion fish | source\n\n" ++
    "To load completions for every new session, execute once:\n\n" ++
    s!"\t{tool} completion fish > ~/.config/fish/completions/{tool}.fish\n\n" ++
    "You will need to start a new shell for this setting to take effect.\n"
  | _ =>
    "Generate the autocompletion script for powershell.\n\n" ++
    "To load completions in your current shell session:\n\n" ++
    s!"\t{tool} completion powershell | Out-String | Invoke-Expression\n\n" ++
    "To load completions for every new session, add the output of the above command\n" ++
    "to your powershell profile.\n"

/-- A shell-completion command for one shell. -/
def completionFor (shell : String) : Command :=
  .node { use := shell, short := "Generate the autocompletion script for " ++ shell,
          long := completionGuide "v4link" shell, args := .none, bareUse := true,
          flags := [{ name := "no-descriptions", kind := .switch, usage := "disable completion descriptions" }] } []

/-- The command tree of the host tool, subcommands in the order they were added. -/
def tree : Command :=
  .node { use := "v4link", short := "Talk to a V4 VM over its serial bytecode link",
          long := "v4link uploads bytecode to a device running the V4 VM and inspects\n" ++
            "its state. The device is reached over a serial port, or over TCP when it is\n" ++
            "the v4sim simulator (--port tcp://localhost:7401).",
          persistent := globalFlags, runnable := false } [
    .node { use := "ping", short := "Check that the device answers", args := .none } [],
    .node { use := "reset", short := "Clear the device's words, stacks and memory", args := .none } [],
    .node { use := "exec <file>", short := "Upload and run bytecode, a .v4b container or a CBOR module",
            args := .exactly 1 } [],
    .node { use := "stack", short := "Show the device's data and return stacks", args := .none } [],
    .node { use := "mem <addr> <len>", short := "Read device memory (numbers may be hex, e.g. 0x100)",
            args := .exactly 2 } [],
    .node { use := "word <index>", short := "Fetch and disassemble a word from the device",
            args := .exactly 1 } [],
    .node { use := "words", short := "List the words recorded for the device", args := .none,
            flags := [allFlag] } [],
    .node { use := "pack <module.cbor>", short := "Convert a CBOR module into a .v4b container",
            args := .exactly 1, flags := [outFlag ".v4b"] } [],
    .node { use := "unpack <file.v4b>", short := "Convert a .v4b container into a sealed CBOR module",
            args := .exactly 1, flags := [outFlag ".cbor", nameFlag] } [],
    .node { use := "dis <file>", short := "Disassemble bytecode, a .v4b container or a CBOR module",
            long := "Disassemble a file without contacting the device. CALL operands in a\n" ++
              "container are file-relative and are annotated with the container's own\n" ++
              "word names.",
            args := .exactly 1 } [],
    .node { use := "help [command]", short := "Help about any command",
            long := "Help provides help for any command in the application.\n" ++
              "Simply type v4link help [path to command] for full details." } [],
    .node { use := "completion", short := "Generate the autocompletion script for the specified shell",
            long := "Generate the autocompletion script for v4link for the specified shell.\n" ++
              "See each sub-command's help for details on how to use the generated script.\n",
            args := .none, runnable := false }
      (["bash", "zsh", "fish", "powershell"].map completionFor)]

end StackLink.Tool
