import StackMachine.Main
import StackMachine.Proofs.Machine.Checked
import StackMachine.Proofs.Machine.ListMachine
import StackMachine.Proofs.Machine.Simulation
import StackMachine.Proofs.Machine.Frame
import StackMachine.Proofs.Bench
import StackMachine.Proofs.Panel
import StackMachine.Proofs.Watch
import StackMachine.Proofs.Session
import StackMachine.Proofs.Image.Lines
import StackMachine.Proofs.Observation
import StackMachine.Proofs.Text.Numeral
import StackMachine.Proofs.Text.Rows
import StackMachine.Proofs.Text.Utf8
import StackMachine.Proofs.Image.Reader
import StackMachine.Proofs.Image.Load
import StackMachine.Proofs.Machine.Forecast
import StackMachine.Proofs.Session.Reset
import StackMachine.Proofs.FlagHistory
import StackMachine.Proofs.Announcement
import StackMachine.Proofs.CommandLine
import StackMachine.Proofs.Machine.StackList
import StackMachine.Proofs.Image.Layout
import StackMachine.Proofs.Image.Parts
import StackMachine.Proofs.Image.Reach
import StackMachine.Proofs.Image.Storage
import StackMachine.Proofs.Machine.Disassembly
import StackMachine.Proofs.Machine.Likeness
import StackMachine.Proofs.Image.ByteCount
import StackMachine.Proofs.Machine.Arithmetic
import StackMachine.Proofs.Panel.Update
import StackMachine.Proofs.Feed
import StackMachine.Proofs.Listing.Rows
import StackMachine.Proofs.Panel.Text
import StackMachine.Proofs.Machine.Text
import StackMachine.Proofs.Feed.Iterator
import StackMachine.Proofs.Machine.Tables
import StackMachine.Proofs.Observation.Inline
import StackMachine.Proofs.Panel.Loop
import StackMachine.Proofs.Session.Steps
