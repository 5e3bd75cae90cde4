import SystolicGemm.Bench.Basic
import SystolicGemm.Bench.Shell
import SystolicGemm.Bench.Summary
import SystolicGemm.Bench.Workload
import SystolicGemm.Block
import SystolicGemm.Decimal.Shortest
import SystolicGemm.Decimal.Text
import SystolicGemm.Element
import SystolicGemm.Engine.Basic
import SystolicGemm.Engine.Drain
import SystolicGemm.Engine.Phase
import SystolicGemm.Failure
import SystolicGemm.Floating.Arith
import SystolicGemm.Floating.Format
import SystolicGemm.Geometry
import SystolicGemm.Golden.Reference
import SystolicGemm.Golden.Sampler
import SystolicGemm.Job.Image
import SystolicGemm.Job.Layout
import SystolicGemm.Job.Plan
import SystolicGemm.Job.Registers
import SystolicGemm.Journal
import SystolicGemm.Main
import SystolicGemm.Memory.Flat
import SystolicGemm.Memory.Gate
import SystolicGemm.Memory.Matrix
import SystolicGemm.Memory.Port
import SystolicGemm.Program.Arguments
import SystolicGemm.Program.Basic
import SystolicGemm.Proofs.Bench.Create
import SystolicGemm.Proofs.Bench.Run
import SystolicGemm.Proofs.Bench.Session
import SystolicGemm.Proofs.Bench.Workload
import SystolicGemm.Proofs.Checked
import SystolicGemm.Proofs.Engine.Afresh
import SystolicGemm.Proofs.Engine.Cells
import SystolicGemm.Proofs.Engine.Edge
import SystolicGemm.Proofs.Engine.Gemm
import SystolicGemm.Proofs.Engine.History
import SystolicGemm.Proofs.Engine.Hosted
import SystolicGemm.Proofs.Engine.Loop
import SystolicGemm.Proofs.Engine.Overlay
import SystolicGemm.Proofs.Engine.Partial
import SystolicGemm.Proofs.Engine.Payload
import SystolicGemm.Proofs.Engine.Protocol
import SystolicGemm.Proofs.Engine.Residency
import SystolicGemm.Proofs.Engine.Run
import SystolicGemm.Proofs.Engine.Safety
import SystolicGemm.Proofs.Engine.Schedule
import SystolicGemm.Proofs.Engine.Step
import SystolicGemm.Proofs.Engine.Tiles
import SystolicGemm.Proofs.Engine.Timing
import SystolicGemm.Proofs.Engine.Traffic
import SystolicGemm.Proofs.Engine.Trigger
import SystolicGemm.Proofs.Engine.Window
import SystolicGemm.Proofs.Floating.Clock
import SystolicGemm.Proofs.Floating.Exact
import SystolicGemm.Proofs.Floating.Nearest
import SystolicGemm.Proofs.Floating.Quantize
import SystolicGemm.Proofs.Floating.Rounding
import SystolicGemm.Proofs.Floating.Stored
import SystolicGemm.Proofs.Floating.Unordered
import SystolicGemm.Proofs.Floating.Widening
import SystolicGemm.Proofs.Golden.Check
import SystolicGemm.Proofs.Job.Accepted
import SystolicGemm.Proofs.Job.Beats
import SystolicGemm.Proofs.Job.Driven
import SystolicGemm.Proofs.Job.Packed
import SystolicGemm.Proofs.Job.Placement
import SystolicGemm.Proofs.Job.Programmed
import SystolicGemm.Proofs.Job.Shaped
import SystolicGemm.Proofs.Memory.Access
import SystolicGemm.Proofs.Memory.Beat
import SystolicGemm.Proofs.Memory.Recorded
import SystolicGemm.Proofs.Memory.RoundTrip
import SystolicGemm.Proofs.Settings.Accepted
import SystolicGemm.Proofs.Settings.Total
import SystolicGemm.Proofs.Simulation.Answered
import SystolicGemm.Proofs.Simulation.Device
import SystolicGemm.Proofs.Simulation.Interrupt
import SystolicGemm.Proofs.Simulation.Launch
import SystolicGemm.Proofs.Simulation.Status
import SystolicGemm.Proofs.Simulation.Step
import SystolicGemm.Proofs.Simulation.Steps
import SystolicGemm.Proofs.Simulation.Undisturbed
import SystolicGemm.Proofs.Stream.Calls
import SystolicGemm.Proofs.Stream.Failed
import SystolicGemm.Proofs.Stream.Step
import SystolicGemm.Proofs.Stream.Walk
import SystolicGemm.Proofs.TileStore.Pipeline
import SystolicGemm.Proofs.TileStore.Product
import SystolicGemm.Proofs.TileStore.Reading
import SystolicGemm.Proofs.TileStore.Resident
import SystolicGemm.Proofs.TileStore.Slots
import SystolicGemm.Proofs.Wire.Access
import SystolicGemm.Proofs.Wire.Report
import SystolicGemm.Ring
import SystolicGemm.Settings.Config
import SystolicGemm.Settings.Setting
import SystolicGemm.Simulation.Basic
import SystolicGemm.Simulation.Device
import SystolicGemm.Simulation.Host
import SystolicGemm.Simulation.Message
import SystolicGemm.Simulation.Narration
import SystolicGemm.Stream.Basic
import SystolicGemm.Stream.Pattern
import SystolicGemm.Strobe
import SystolicGemm.Text.Lower
import SystolicGemm.Text.Space
import SystolicGemm.TileStore
import SystolicGemm.Toml.Document
import SystolicGemm.Toml.Number
import SystolicGemm.Toml.Printer
import SystolicGemm.Toml.Text
import SystolicGemm.Toml.Value
import SystolicGemm.Wire.Access
import SystolicGemm.Wire.Report
import SystolicGemm.Wire.Text
import SystolicGemm.Wire.Tree
import SystolicGemm.Word
