import PulseTrain.Backlog
import PulseTrain.Bench
import PulseTrain.Engine.Machine
import PulseTrain.Engine.Transcript
import PulseTrain.Motion.Axis
import PulseTrain.Registry
import PulseTrain.Settings.Document
import PulseTrain.SlotSet
import PulseTrain.StepDir
import PulseTrain.Waveform
import PulseTrain.Proofs.Axis.Tally
import PulseTrain.Proofs.SlotSet.Drain
import PulseTrain.Proofs.Registry.Enrolment
import PulseTrain.Proofs.Session.Calls
import PulseTrain.Proofs.Session.Sound
import PulseTrain.Proofs.Session.Run
import PulseTrain.Proofs.Session.Effects
import PulseTrain.Proofs.Session.Conservation
import PulseTrain.Proofs.Axis.Solo
import PulseTrain.Proofs.Session.Course
import PulseTrain.Proofs.Session.Delivery
import PulseTrain.Proofs.Session.Idle
import PulseTrain.Proofs.Session.Release
import PulseTrain.Proofs.Session.Reports
import PulseTrain.Proofs.Session.Rate
import PulseTrain.Proofs.StepDir.Memory
import PulseTrain.Proofs.Bench.Wiring
import PulseTrain.Proofs.Session.Directions
import PulseTrain.Proofs.Bench.Heading
import PulseTrain.Proofs.Bench.Pulses
import PulseTrain.Proofs.Session.Programming
import PulseTrain.Proofs.Session.Retiming
import PulseTrain.Proofs.Session.Guarded
import PulseTrain.Proofs.SlotSet.Snapshot
import PulseTrain.Proofs.Single.Packing
import PulseTrain.Proofs.Single.Value
import PulseTrain.Proofs.Single.Rounding
import PulseTrain.Proofs.Single.Arithmetic
import PulseTrain.Proofs.Single.Ratio
import PulseTrain.Proofs.Single.Range
import PulseTrain.Proofs.Single.Order
import PulseTrain.Proofs.Single.Fraction
import PulseTrain.Proofs.Single.Sums
import PulseTrain.Proofs.Single.Sign
import PulseTrain.Proofs.Axis.Slope
import PulseTrain.Proofs.Axis.Schedule
import PulseTrain.Proofs.Axis.Guard
import PulseTrain.Proofs.Axis.Velocity
import PulseTrain.Proofs.Axis.Share
import PulseTrain.Proofs.Axis.Rest
import PulseTrain.Proofs.Axis.Exact
import PulseTrain.Proofs.Session.Ending
import PulseTrain.Proofs.Timing.Counts
import PulseTrain.Proofs.Timing.Rate
import PulseTrain.Proofs.Toml.Keys
import PulseTrain.Proofs.Toml.Reading
import PulseTrain.Proofs.Settings.Record
import PulseTrain.Proofs.Settings.Values
import PulseTrain.Proofs.Settings.KnownFields
