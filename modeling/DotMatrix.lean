import DotMatrix.Association
import DotMatrix.Bus.Address
import DotMatrix.Bus.Basic
import DotMatrix.Cartridge.Basic
import DotMatrix.Cartridge.Header
import DotMatrix.Cartridge.Names
import DotMatrix.Cartridge.Storage
import DotMatrix.Command.Arguments
import DotMatrix.Command.Basic
import DotMatrix.Console.Basic
import DotMatrix.Console.Run
import DotMatrix.Files.Path
import DotMatrix.Files.Volume
import DotMatrix.Instruction
import DotMatrix.Instruction.Decode
import DotMatrix.Instruction.Form
import DotMatrix.Interrupts
import DotMatrix.Joypad
import DotMatrix.Log
import DotMatrix.Main
import DotMatrix.Memory
import DotMatrix.ObjectTransfer
import DotMatrix.Pacing
import DotMatrix.Processor.Alu
import DotMatrix.Processor.Execute
import DotMatrix.Processor.Machine
import DotMatrix.Processor.Step
import DotMatrix.Proofs.Bus.Alike
import DotMatrix.Proofs.Bus.History
import DotMatrix.Proofs.Bus.Isolation
import DotMatrix.Proofs.Bus.Kept
import DotMatrix.Proofs.Bus.Requests
import DotMatrix.Proofs.Bus.SerialCapture
import DotMatrix.Proofs.Bus.TransferData
import DotMatrix.Proofs.Bus.TransferSchedule
import DotMatrix.Proofs.Bus.Transmission
import DotMatrix.Proofs.Cartridge.Acceptance
import DotMatrix.Proofs.Cartridge.Backup
import DotMatrix.Proofs.Cartridge.BankedRam
import DotMatrix.Proofs.Cartridge.Banks
import DotMatrix.Proofs.Cartridge.RoundTrip
import DotMatrix.Proofs.Cartridge.Windows
import DotMatrix.Proofs.Checked.Alu
import DotMatrix.Proofs.Checked.Arithmetic
import DotMatrix.Proofs.Checked.Bus
import DotMatrix.Proofs.Checked.Cartridge
import DotMatrix.Proofs.Checked.Console
import DotMatrix.Proofs.Checked.Devices
import DotMatrix.Proofs.Checked.Execute
import DotMatrix.Proofs.Checked.Machine
import DotMatrix.Proofs.Checked.Scanline
import DotMatrix.Proofs.Checked.Sprites
import DotMatrix.Proofs.Checked.Video
import DotMatrix.Proofs.Command.Exit
import DotMatrix.Proofs.Command.Printed
import DotMatrix.Proofs.Console.Backup
import DotMatrix.Proofs.Console.Collaborators
import DotMatrix.Proofs.Console.FrameEnd
import DotMatrix.Proofs.Console.FramePace
import DotMatrix.Proofs.Console.Invariant
import DotMatrix.Proofs.Console.Reset
import DotMatrix.Proofs.Console.Restart
import DotMatrix.Proofs.Console.Tracing
import DotMatrix.Proofs.Files.Sibling
import DotMatrix.Proofs.Files.Writing
import DotMatrix.Proofs.Interrupts.Ledger
import DotMatrix.Proofs.Processor.Accesses
import DotMatrix.Proofs.Processor.Bisimulation
import DotMatrix.Proofs.Processor.Columns
import DotMatrix.Proofs.Processor.Control
import DotMatrix.Proofs.Processor.Decimals
import DotMatrix.Proofs.Processor.Destinations
import DotMatrix.Proofs.Processor.Dispatch
import DotMatrix.Proofs.Processor.Failing
import DotMatrix.Proofs.Processor.Forms
import DotMatrix.Proofs.Processor.Stack
import DotMatrix.Proofs.Processor.Time
import DotMatrix.Proofs.Processor.Timing
import DotMatrix.Proofs.Processor.Waiting
import DotMatrix.Proofs.Session.Chunks
import DotMatrix.Proofs.Session.Collection
import DotMatrix.Proofs.Session.FirstFault
import DotMatrix.Proofs.Session.FrameLimit
import DotMatrix.Proofs.Timer.Rate
import DotMatrix.Proofs.Timer.Reload
import DotMatrix.Proofs.Trace.Reading
import DotMatrix.Proofs.Transcript.Reading
import DotMatrix.Proofs.Video.Blank
import DotMatrix.Proofs.Video.Buffers
import DotMatrix.Proofs.Video.Coincidence
import DotMatrix.Proofs.Video.Compositing
import DotMatrix.Proofs.Video.DrawingOrder
import DotMatrix.Proofs.Video.Frame
import DotMatrix.Proofs.Video.History
import DotMatrix.Proofs.Video.Lines
import DotMatrix.Proofs.Video.Planes
import DotMatrix.Proofs.Video.Priority
import DotMatrix.Proofs.Video.Scene
import DotMatrix.Proofs.Video.Schedule
import DotMatrix.Proofs.Video.Selection
import DotMatrix.Proofs.Video.Window
import DotMatrix.Proofs.Video.WindowRows
import DotMatrix.Registers
import DotMatrix.Screenshot.Basic
import DotMatrix.Screenshot.Checksum
import DotMatrix.Screenshot.Image
import DotMatrix.Serial
import DotMatrix.Session
import DotMatrix.Settings.Basic
import DotMatrix.Settings.DateTime
import DotMatrix.Settings.Gap
import DotMatrix.Settings.Number
import DotMatrix.Settings.Quotation
import DotMatrix.Settings.Statement
import DotMatrix.Settings.Table
import DotMatrix.Settings.Value
import DotMatrix.Text.Blank
import DotMatrix.Text.Hex
import DotMatrix.Text.Hidden
import DotMatrix.Text.Pieces
import DotMatrix.Text.Quoted
import DotMatrix.Timer
import DotMatrix.Trace.Line
import DotMatrix.Trace.Sink
import DotMatrix.Transcript
import DotMatrix.Video.Background
import DotMatrix.Video.Basic
import DotMatrix.Video.Clock
import DotMatrix.Video.Scanline
import DotMatrix.Video.Shade
import DotMatrix.Video.Sprite
import DotMatrix.Word
