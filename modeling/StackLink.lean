import StackLink.Bytes
import StackLink.Code.Builder
import StackLink.Code.Container
import StackLink.Code.Instruction
import StackLink.Code.Listing
import StackLink.Code.Module
import StackLink.Code.Opcode
import StackLink.Config.Duration
import StackLink.Config.Manifest
import StackLink.Config.Toml.Reader
import StackLink.Config.Toml.Scalar
import StackLink.Config.Toml.Value
import StackLink.Device.Link
import StackLink.Device.LinkConfig
import StackLink.Device.Server
import StackLink.Digest.Sha256
import StackLink.Format.Base64
import StackLink.Format.Cbor
import StackLink.Format.Columns
import StackLink.Format.Doc
import StackLink.Format.Report
import StackLink.Format.Yaml
import StackLink.Host.Client
import StackLink.Host.Configuration
import StackLink.Host.Connection
import StackLink.Host.Disk
import StackLink.Host.Path
import StackLink.Host.Reports
import StackLink.Host.Simulator
import StackLink.Host.Symbols
import StackLink.Host.Tool.Commands
import StackLink.Host.Tool.Run
import StackLink.Host.World
import StackLink.Machine.Basic
import StackLink.Machine.Run
import StackLink.Main
import StackLink.Net.Address
import StackLink.Shell.Command
import StackLink.Shell.Flags
import StackLink.Shell.Options
import StackLink.Text.Hex
import StackLink.Text.Instant
import StackLink.Text.Numeral
import StackLink.Text.Quote
import StackLink.Text.Utf8
import StackLink.Wire.Crc
import StackLink.Wire.Frame
import StackLink.Wire.Receiver
import StackLink.Proofs.FrameCodec
import StackLink.Proofs.Reception
import StackLink.Proofs.Runs
import StackLink.Proofs.CodeWalks
import StackLink.Proofs.Upload
import StackLink.Proofs.Replies
import StackLink.Proofs.Footprint
import StackLink.Proofs.Failures
import StackLink.Proofs.Sessions
import StackLink.Proofs.Resets
import StackLink.Proofs.Relocation
import StackLink.Proofs.ShiftedRuns
import StackLink.Proofs.PositionIndependence
import StackLink.Proofs.Fields
import StackLink.Proofs.Queries
import StackLink.Proofs.Readback
import StackLink.Proofs.Routing
import StackLink.Proofs.ReplyWait
import StackLink.Proofs.SymbolTable
import StackLink.Proofs.Registration
import StackLink.Proofs.SerialLine
import StackLink.Proofs.HostBench
import StackLink.Proofs.HostSymbols
import StackLink.Proofs.Checksum
import StackLink.Proofs.StepLimit
import StackLink.Proofs.Safety
import StackLink.Proofs.StackEffects
import StackLink.Proofs.RelocationLaws
import StackLink.Proofs.InstructionWalks
import StackLink.Proofs.ContainerCodec
import StackLink.Proofs.ContainerCuts
import StackLink.Proofs.Arithmetic
import StackLink.Proofs.Literals
import StackLink.Proofs.BuilderJumps
import StackLink.Proofs.CborCodec
import StackLink.Proofs.ModuleFiles
import StackLink.Proofs.LinkSettings
import StackLink.Proofs.ReceiveBuffer
import StackLink.Proofs.MemoryAccess
import StackLink.Proofs.Moves
import StackLink.Proofs.Sequencing
import StackLink.Proofs.RecordReading
