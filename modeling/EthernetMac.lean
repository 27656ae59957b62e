import EthernetMac.Scenario.Counter
import EthernetMac.Scenario.DataPath
import EthernetMac.Scenario.Run
import EthernetMac.Scenario.SlotStudy
import EthernetMac.Scenario.Window
import EthernetMac.Proofs.Calls
import EthernetMac.Proofs.Across
import EthernetMac.Proofs.RingArc
import EthernetMac.Proofs.SlotAddress
import EthernetMac.Proofs.Setting
import EthernetMac.Proofs.BringUp
import EthernetMac.Proofs.Receive.Dma
import EthernetMac.Proofs.Receive.Holding
import EthernetMac.Proofs.Receive.Reassembly
import EthernetMac.Proofs.Receive.Payload
import EthernetMac.Proofs.Receive.Scan
import EthernetMac.Proofs.Receive.Verdict
import EthernetMac.Proofs.Receive.Walk
import EthernetMac.Proofs.Receive.Delivery
import EthernetMac.Proofs.Receive.Order
import EthernetMac.Proofs.Receive.Tracking
import EthernetMac.Proofs.Receive.FullRing
import EthernetMac.Proofs.Transmit.Selection
import EthernetMac.Proofs.Transmit.Waiting
import EthernetMac.Proofs.Transmit.Bench
import EthernetMac.Proofs.Transmit.Submission
import EthernetMac.Proofs.Transmit.Ledger
import EthernetMac.Proofs.Transmit.Drain
import EthernetMac.Proofs.Upkeep
import EthernetMac.Proofs.OwnSteps
import EthernetMac.Proofs.Invariance
import EthernetMac.Proofs.Blocks
import EthernetMac.Proofs.Transmit.Order
import EthernetMac.Proofs.Transmit.Runs
import EthernetMac.Proofs.Transmit.Balance
import EthernetMac.Proofs.Transmit.Progress
import EthernetMac.Proofs.Transmit.StampOrder
import EthernetMac.Proofs.Transmit.StampLoss
import EthernetMac.Proofs.Handover
import EthernetMac.Proofs.Transmit.Attribution
import EthernetMac.Proofs.Transmit.Fifo
import EthernetMac.Proofs.Transmit.BackPressure
import EthernetMac.Proofs.Transmit.AllOrNothing
import EthernetMac.Proofs.Interrupt.Status
import EthernetMac.Proofs.Transmit.QueueRuns
import EthernetMac.Proofs.Interrupt.Dispatch
import EthernetMac.Proofs.Nesting
import EthernetMac.Proofs.Interrupt.Acknowledge
import EthernetMac.Proofs.Transmit.Rescan
import EthernetMac.Proofs.Transmit.SequenceOrder
import EthernetMac.Proofs.Controls
import EthernetMac.Proofs.ControlWords
import EthernetMac.Proofs.Enables
import EthernetMac.Proofs.Receive.Front
import EthernetMac.Proofs.Shared.Cell
import EthernetMac.Proofs.Shared.Stamps
import EthernetMac.Proofs.Shared.Frames
import EthernetMac.Proofs.Shared.Delivery
import EthernetMac.Proofs.Trace
import EthernetMac.Proofs.Clock.Commands
import EthernetMac.Proofs.Clock.TimeUnit
import EthernetMac.Proofs.Clock.Loading
import EthernetMac.Proofs.Clock.Overlap
import EthernetMac.Proofs.Mdio.Unit
import EthernetMac.Proofs.Lockstep
import EthernetMac.Proofs.Sides
import EthernetMac.Proofs.Mdio.Discipline
import EthernetMac.Proofs.Link.Poll
import EthernetMac.Proofs.Link.Events
import EthernetMac.Proofs.Link.Mode
import EthernetMac.Proofs.Receive.Visits
import EthernetMac.Proofs.Receive.Idempotent
import EthernetMac.Proofs.Station
import EthernetMac.Proofs.Reset.Looks
import EthernetMac.Proofs.Reset.Deadline
import EthernetMac.Proofs.Reset.Retry
import EthernetMac.Proofs.Mdio.Wait
import EthernetMac.Proofs.Mdio.Exchange
import EthernetMac.Proofs.Clock.PulseDeeds
import EthernetMac.Proofs.Clock.PulseOrder
import EthernetMac.Proofs.Clock.PulseTicks
import EthernetMac.Proofs.Clock.Reading
import EthernetMac.Proofs.Receive.Arc
import EthernetMac.Proofs.Transmit.Window
