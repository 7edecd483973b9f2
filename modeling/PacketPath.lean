import PacketPath.Main
import PacketPath.Register.Window
import PacketPath.Register.Recorder
import PacketPath.Report.Constants
import PacketPath.Report.Values
import PacketPath.Proofs.Step
import PacketPath.Proofs.Memory.Chart
import PacketPath.Proofs.Memory.Accounts
import PacketPath.Proofs.Descriptor.Cells
import PacketPath.Proofs.Host.Sides
import PacketPath.Proofs.Register.Port
import PacketPath.Proofs.Ring.Arc
import PacketPath.Proofs.Ring.Polling
import PacketPath.Proofs.Ring.TransmitSteps
import PacketPath.Proofs.Ring.Flights
import PacketPath.Proofs.Ring.Posting
import PacketPath.Proofs.Ring.Framing
import PacketPath.Proofs.Host.TransmitEngine
import PacketPath.Proofs.Host.Wire
import PacketPath.Proofs.Ring.Queue
import PacketPath.Proofs.Ring.Taking
import PacketPath.Proofs.Host.ReceiveEngine
import PacketPath.Proofs.Host.Housing
import PacketPath.Proofs.Message.Mailboxes
import PacketPath.Proofs.System.Site
import PacketPath.Proofs.System.Sound
import PacketPath.Proofs.Ring.Raising
import PacketPath.Proofs.Ring.Entries
import PacketPath.Proofs.Ring.Journal
import PacketPath.Proofs.Controller.Attached
import PacketPath.Proofs.System.Start
import PacketPath.Proofs.System.Calls
import PacketPath.Proofs.Ring.Recycling
import PacketPath.Proofs.System.Reception
import PacketPath.Proofs.System.Transmission
import PacketPath.Proofs.Pump.Waiting
import PacketPath.Proofs.Pump.Inbound
import PacketPath.Proofs.System.PumpStart
import PacketPath.Proofs.System.Delivery
import PacketPath.Proofs.Pump.Outbound
import PacketPath.Proofs.Pump.Pausing
import PacketPath.Proofs.System.Lending
import PacketPath.Proofs.System.Reading
import PacketPath.Proofs.System.InFlight
import PacketPath.Proofs.System.Queued
import PacketPath.Proofs.System.Forwarding
import PacketPath.Proofs.System.OutboundState
import PacketPath.Proofs.System.Pinning
import PacketPath.Proofs.System.Sending
import PacketPath.Proofs.Register.File
import PacketPath.Proofs.Controller.Outcome
import PacketPath.Proofs.Memory.Growth
import PacketPath.Proofs.Register.Gate
import PacketPath.Proofs.Register.Cut
import PacketPath.Proofs.Controller.Fronting
import PacketPath.Proofs.Controller.Laid
import PacketPath.Proofs.Controller.Exposure
import PacketPath.Proofs.Controller.Script
import PacketPath.Proofs.Controller.Prefix
import PacketPath.Proofs.Controller.Failing
import PacketPath.Proofs.Controller.Restarting
import PacketPath.Proofs.Memory.Alike
import PacketPath.Proofs.Agreement
import PacketPath.Proofs.Ring.Settled
import PacketPath.Proofs.Ring.PostingAlike
import PacketPath.Proofs.Ring.PostingPaired
import PacketPath.Proofs.Ring.Rebinding
import PacketPath.Proofs.Ring.TakingAlike
import PacketPath.Proofs.Ring.Paths
import PacketPath.Proofs.Host.EnginesAlike
import PacketPath.Proofs.Host.Findings
import PacketPath.Proofs.System.Acts
import PacketPath.Proofs.System.CallsAlike
import PacketPath.Proofs.System.Bisimilar
import PacketPath.Proofs.System.Upkeep
import PacketPath.Proofs.System.Transparency
import PacketPath.Proofs.Refusals
import PacketPath.Proofs.Pump.Rejection
import PacketPath.Proofs.System.Causes
import PacketPath.Proofs.System.Signals
import PacketPath.Proofs.Host.Displaced
import PacketPath.Proofs.System.Independence
import PacketPath.Proofs.System.Grants
import PacketPath.Proofs.Message.Packets
import PacketPath.Proofs.Message.Requests
import PacketPath.Proofs.Ring.Placing
import PacketPath.Proofs.Memory.Lookup
import PacketPath.Proofs.Host.Addressing
import PacketPath.Proofs.Host.Burst
import PacketPath.Proofs.Message.Traffic
import PacketPath.Proofs.Leaves
import PacketPath.Proofs.Ring.Accounting
import PacketPath.Proofs.Controller.Accounting
import PacketPath.Proofs.Pump.Attempts
import PacketPath.Proofs.Pump.Accounting
import PacketPath.Proofs.System.Tallies
import PacketPath.Proofs.Register.Bounds
import PacketPath.Proofs.Descriptor.Usage
import PacketPath.Proofs.Pump.Counting
import PacketPath.Proofs.Register.Contained
import PacketPath.Proofs.Register.Watched
import PacketPath.Proofs.Ring.Contained
import PacketPath.Proofs.Controller.Contained
import PacketPath.Proofs.Memory.Bytes
