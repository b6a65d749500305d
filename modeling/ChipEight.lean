import ChipEight.Text.Hex
import ChipEight.Text.Digit
import ChipEight.Text.UpperCase
import ChipEight.Text.Quoted
import ChipEight.Decimal.FormatSpec
import ChipEight.Decimal.Read
import ChipEight.Instruction.Basic
import ChipEight.Instruction.Word
import ChipEight.Instruction.Listing
import ChipEight.Log
import ChipEight.Machine.Fault
import ChipEight.Machine.Font
import ChipEight.Machine.Ram
import ChipEight.Machine.Screen
import ChipEight.Machine.Sprite
import ChipEight.Machine.Keypad
import ChipEight.Machine.State
import ChipEight.Machine.Execute
import ChipEight.Machine.Step
import ChipEight.Machine.Basic
import ChipEight.Machine.SaveState
import ChipEight.Files.Path
import ChipEight.Files.Tree
import ChipEight.Program
import ChipEight.Machine.SaveFile
import ChipEight.Channel.Pipe
import ChipEight.Channel.Message
import ChipEight.Machine.Console
import ChipEight.Session.Stopwatch
import ChipEight.Session.Basic
import ChipEight.Session.Iteration
import ChipEight.Session.Run
import ChipEight.Settings.Moment
import ChipEight.Settings.Value
import ChipEight.Toml.Scalar
import ChipEight.Toml.Document
import ChipEight.Settings.Merge
import ChipEight.Settings.Validate
import ChipEight.Settings.Load
import ChipEight.Settings.Cadence
import ChipEight.Keyboard.Codes
import ChipEight.Keyboard.Names
import ChipEight.Keyboard.Bindings
import ChipEight.Keyboard.TwoWay
import ChipEight.Journal
import ChipEight.Session.Flagged
import ChipEight.Session.StopwatchText
import ChipEight.Session.Host
import ChipEight.Session.Launch
import ChipEight.Proofs.Drawing.Bounds
import ChipEight.Proofs.Drawing.Patterns
import ChipEight.Proofs.Machine.Memory
import ChipEight.Proofs.Machine.Control
import ChipEight.Proofs.Machine.WellFormed
import ChipEight.Proofs.SaveState.Bytes
import ChipEight.Proofs.SaveState.Layout
import ChipEight.Proofs.SaveState.Reading
import ChipEight.Proofs.SaveState.RoundTrip
import ChipEight.Proofs.SaveState.Canonical
import ChipEight.Proofs.Machine.Operations
import ChipEight.Proofs.Machine.Reachable
import ChipEight.Proofs.Machine.Faults
import ChipEight.Proofs.Machine.Due
import ChipEight.Proofs.Drawing.Blit
import ChipEight.Proofs.Drawing.Parity
import ChipEight.Proofs.Instruction.Words
import ChipEight.Proofs.Instruction.Encoding
import ChipEight.Proofs.Instruction.Listings
import ChipEight.Proofs.Machine.Arithmetic
import ChipEight.Proofs.Machine.Stack
import ChipEight.Proofs.Machine.Resume
import ChipEight.Proofs.Machine.Watched
import ChipEight.Proofs.Machine.Tracing
import ChipEight.Proofs.Session.Invariant
import ChipEight.Proofs.Session.Stopwatch
import ChipEight.Proofs.Session.RunningTime
import ChipEight.Proofs.Session.Rounds
import ChipEight.Proofs.Session.Delay
import ChipEight.Proofs.Session.Pause
import ChipEight.Proofs.Channel.Conservation
import ChipEight.Proofs.Settings.Tables
import ChipEight.Proofs.Toml.Keys
import ChipEight.Proofs.Settings.Loading
import ChipEight.Proofs.Keyboard.LastWins
import ChipEight.Proofs.Keyboard.Overrides
import ChipEight.Proofs.Keyboard.BothSides
import ChipEight.Proofs.Keyboard.Entries
import ChipEight.Proofs.Keyboard.Grammar
import ChipEight.Proofs.Settings.Merging
import ChipEight.Proofs.Settings.Paths
import ChipEight.Proofs.Decimal.Integers
import ChipEight.Proofs.Settings.Cadences
import ChipEight.Proofs.Session.Thread
import ChipEight.Proofs.Session.World
import ChipEight.Proofs.Session.Order
import ChipEight.Proofs.Session.Disconnect
import ChipEight.Proofs.Session.FaultPolicy
import ChipEight.Proofs.Session.Requests
import ChipEight.Proofs.Session.Commands
import ChipEight.Proofs.Machine.KeyWait
import ChipEight.Proofs.Machine.Interleaving
import ChipEight.Proofs.Machine.Waiting
import ChipEight.Proofs.Machine.Transfers
import ChipEight.Proofs.Session.KeyRelease
import ChipEight.Proofs.Session.Readings
import ChipEight.Proofs.Session.Pacing
import ChipEight.Proofs.Session.TimerTicks
import ChipEight.Proofs.Files.ReadBack
import ChipEight.Proofs.Files.Refusals
import ChipEight.Proofs.Journal.Accounting
import ChipEight.Proofs.Session.Saving
import ChipEight.Proofs.Session.Pictures
import ChipEight.Proofs.Session.Posting
import ChipEight.Proofs.Session.Informed
import ChipEight.Proofs.Session.Desk
import ChipEight.Proofs.Session.HostView
import ChipEight.Proofs.Files.Loaders
import ChipEight.Proofs.Files.Programs
import ChipEight.Proofs.Session.RunningTime
