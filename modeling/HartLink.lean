import HartLink.Wire.Resync
import HartLink.Service.Admission
import HartLink.Foundation.Ledger
import HartLink.Foundation.ByteOrder
import HartLink.Operation.Reading
import HartLink.Operation.Cursor
import HartLink.Service.Runner
import HartLink.Service.Retry
import HartLink.Service.Bursts
import HartLink.Service.LateResponses
import HartLink.Service.Recovery
import HartLink.Service.Accounting
import HartLink.Service.Stop
import HartLink.Service.Correlation
import HartLink.Foundation.Ring
import HartLink.Service.Scheduling
import HartLink.Service.Occupancy
import HartLink.Service.Rotation
import HartLink.Service.Peers
import HartLink.Foundation.Line
import HartLink.Service.Coalescing
import HartLink.Service.Counting
import HartLink.Service.Shutdown
import HartLink.Service.ChannelCalls
import HartLink.Service.Poisoning
import HartLink.Wire.Capacity
import HartLink.Wire.Losses
import HartLink.Service.Configuration
import HartLink.Service.Transfer
import HartLink.Mesh.Admission
import HartLink.Mesh.Graph
import HartLink.Ip.Exchange
import HartLink.Ip.Numbering
import HartLink.Ip.Channel
import HartLink.Service.Health
import HartLink.Service.Answering
import HartLink.Service.Budget
import HartLink.Service.Overspending
import HartLink.Service.Outage
import HartLink.Service.Cooldown
import HartLink.Wire.Repairs
import HartLink.Wire.Balance
import HartLink.Operation.Inspection
import HartLink.Operation.Text
import HartLink.Device.Schema
import HartLink.Device.PackedAscii
import HartLink.Device.Decoding
import HartLink.Emulator.Device
import HartLink.Emulator.Identity
import HartLink.Service.Clones
import HartLink.Foundation.Channel
import HartLink.Foundation.Lru
import HartLink.Foundation.OrderedMap
import HartLink.Service.BurstHub
import HartLink.Service.Suppression
import HartLink.Operation.Identity
import HartLink.Service.Discovery
import HartLink.Mesh.Scheduling
import HartLink.Foundation.Trimming
import HartLink.Ip.Retention
import HartLink.Mesh.Revocation
import HartLink.Mesh.Routes
import HartLink.Service.Adaptation
import HartLink.Service.DiscoveryCalls
import HartLink.Service.ProbePolicies
import HartLink.Service.Refusals
import HartLink.Recording.Trace
import HartLink.Foundation.Blocks
import HartLink.Recording.Pcapng
import HartLink.Foundation.Grammar
import HartLink.Operation.Payloads
import HartLink.Command.Registry
import HartLink.Command.Process
import HartLink.Command.Control
import HartLink.Command.Text
import HartLink.Command.Identity
import HartLink.Command.Typed
import HartLink.Command.Writes
import HartLink.Foundation.Pipe
import HartLink.Emulator.Memory
import HartLink.Emulator.Serving
import HartLink.Emulator.Polling
import HartLink.Emulator.Exchange
import HartLink.Recording.Replay
import HartLink.Foundation.Hex
import HartLink.Operation.TextInspection
import HartLink.Service.InspectedExchange
import HartLink.Device.Catalog
import HartLink.Device.Package
import HartLink.Device.Tables
import HartLink.Command.Sessions
import HartLink.Emulator.Sessions
import HartLink.Emulator.Links
import HartLink.Command.Accepting
import HartLink.Command.Plans
import HartLink.Service.Provenance
import HartLink.Service.Handlings
import HartLink.Service.Building
