import Chip8.Main
import Chip8.Instruction.Encode
import Chip8.Operation.Table
import Chip8.Samples
import Chip8.Session
import Chip8.State.Valid
import Chip8.Proofs.Instruction.Coding
import Chip8.Proofs.Instruction.Effect
import Chip8.Proofs.Instruction.Execute
import Chip8.Proofs.Instruction.Frame
import Chip8.Proofs.Instruction.Footprint
import Chip8.Proofs.Screen.Drawing
import Chip8.Proofs.Machine.Cycle
import Chip8.Proofs.Machine.Failure
import Chip8.Proofs.Machine.Program
import Chip8.Proofs.Machine.Frame
import Chip8.Proofs.Machine.Flow
import Chip8.Proofs.Host.History
import Chip8.Proofs.Host.Sound
import Chip8.Proofs.Host.Cadence
import Chip8.Proofs.Host.CallStack
import Chip8.Proofs.Host.Redraw
import Chip8.Proofs.Host.Trace
import Chip8.Proofs.Pair.Tandem
import Chip8.Proofs.Pair.Policy
import Chip8.Proofs.Pair.Watching
import Chip8.Proofs.Host.Chance
import Chip8.Proofs.Pair.Blur
import Chip8.Proofs.Pair.Lookalike
import Chip8.Proofs.Pair.Unread
import Chip8.Proofs.Pair.Address
import Chip8.Proofs.Pair.Keys
import Chip8.Proofs.Program.Image
import Chip8.Proofs.Instruction.Table
import Chip8.Proofs.Instruction.Arithmetic
import Chip8.Proofs.Instruction.Draw
import Chip8.Proofs.Text.Fields
import Chip8.Proofs.Text.Numeral
import Chip8.Proofs.Program.Source
import Chip8.Proofs.Program.Joining
import Chip8.Proofs.Machine.Play
import Chip8.Proofs.Screen.Render
import Chip8.Proofs.Text.Decimal
import Chip8.Proofs.CommandLine.Reading
import Chip8.Proofs.CommandLine.Settings
import Chip8.Proofs.CommandLine.Report
import Chip8.Proofs.CommandLine.Help
import Chip8.Proofs.Pair.Session
import Chip8.Proofs.CommandLine.Status
import Chip8.Proofs.Instruction.Block
import Chip8.Proofs.Instruction.Digits
import Chip8.Proofs.Screen.Erasing
import Chip8.Proofs.Screen.Overlay
import Chip8.Proofs.Host.Waiting
import Chip8.Proofs.State.Calls
import Chip8.Proofs.Instruction.Request
import Chip8.Proofs.Text.Hexadecimal
import Chip8.Proofs.Instruction.Mnemonic
import Chip8.Proofs.Screen.Views
import Chip8.Proofs.Text.Lowercase
import Chip8.Proofs.CommandLine.KeyList
import Chip8.Proofs.Machine.Changes
import Chip8.Proofs.Host.Replay
