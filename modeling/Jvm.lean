import Jvm.Archive.Checksum
import Jvm.Archive.Huffman
import Jvm.Archive.Inflate
import Jvm.Archive.Zip
import Jvm.Assembly.Builder
import Jvm.Assembly.FizzBuzz
import Jvm.Bytes
import Jvm.Cause
import Jvm.Cbor.Decoder
import Jvm.Cbor.Item
import Jvm.ClassFile.Basic
import Jvm.ClassFile.Cursor
import Jvm.ClassFile.Description
import Jvm.ClassFile.Parser
import Jvm.ClassFile.Resolution
import Jvm.ClassPath
import Jvm.CommandLine.Action
import Jvm.CommandLine.Command
import Jvm.CommandLine.Flag
import Jvm.CommandLine.Outcome
import Jvm.CommandLine.Program
import Jvm.Disassembly
import Jvm.Files.Path
import Jvm.Files.System
import Jvm.Files.Tree
import Jvm.HexDump
import Jvm.Inspection
import Jvm.Journal
import Jvm.Machine.EntryPoint
import Jvm.Machine.Fault
import Jvm.Machine.Frame
import Jvm.Machine.Instruction
import Jvm.Machine.Opcode
import Jvm.Machine.Run
import Jvm.Machine.Sink
import Jvm.Machine.Value
import Jvm.Machine.Vm
import Jvm.Main
import Jvm.Proofs.Reading
import Jvm.Proofs.Words
import Jvm.Settings
import Jvm.Snapshot.Basic
import Jvm.Snapshot.Codec
import Jvm.Text.Numeral
import Jvm.Text.Printable
import Jvm.Text.Quoted
import Jvm.Text.Utf8
import Jvm.Toml.Document
import Jvm.Toml.Scalar
import Jvm.Toml.Statement
import Jvm.Proofs.Grammar
import Jvm.Proofs.Extension
import Jvm.Proofs.Rounds
import Jvm.Proofs.Execution
import Jvm.Proofs.StepLimit
import Jvm.Proofs.Confinement
import Jvm.Proofs.Instructions
import Jvm.Proofs.ControlFlow
import Jvm.Proofs.Diagnosis
import Jvm.Proofs.Provenance
import Jvm.Proofs.SlotCount
import Jvm.Proofs.CodeReach
import Jvm.Proofs.Output
import Jvm.Proofs.Arithmetic
import Jvm.Proofs.FizzBuzz
import Jvm.Proofs.Numerals
import Jvm.Proofs.Listing
import Jvm.Proofs.Characters
import Jvm.Proofs.CborItems
import Jvm.Proofs.Snapshots
import Jvm.Proofs.LifeCycle
import Jvm.Proofs.ClassLoading
import Jvm.Proofs.SinkLimit
import Jvm.Proofs.SharedConstants
import Jvm.Proofs.WrittenFiles
import Jvm.Proofs.KeyCollisions
import Jvm.Proofs.Chains
import Jvm.Proofs.FaultEffects
import Jvm.Proofs.Dispatch
import Jvm.Proofs.Coverage
import Jvm.Proofs.Flattening
import Jvm.Proofs.PrefixFree
import Jvm.Proofs.HexDumps
import Jvm.Proofs.IntegerResults
import Jvm.Proofs.CursorSteps
import Jvm.Proofs.Relocation
import Jvm.Proofs.Descriptions
import Jvm.Proofs.SettingsFiles
import Jvm.Proofs.WrittenFlags
import Jvm.Proofs.EffectiveSettings
