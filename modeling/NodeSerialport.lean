import NodeSerialport.Lib.Border
import NodeSerialport.Lib.Frames
import NodeSerialport.Lib.Transform
import NodeSerialport.Lib.Machine
import NodeSerialport.Lib.Code
import NodeSerialport.Lib.Cutter
import NodeSerialport.Lib.Ledger
import NodeSerialport.Parsers.Bytes
import NodeSerialport.Parsers.ByteQueue
import NodeSerialport.Parsers.Matcher
import NodeSerialport.Parsers.Delimiter
import NodeSerialport.Parsers.PacketLength
import NodeSerialport.Parsers.PacketResync
import NodeSerialport.Parsers.SpacePacket
import NodeSerialport.Parsers.SpaceTrailing
import NodeSerialport.Parsers.Readline
import NodeSerialport.Parsers.ReadlineUtf16
import NodeSerialport.Parsers.Slip
import NodeSerialport.Parsers.SlipRoundTrip
import NodeSerialport.Parsers.SlipLimit
import NodeSerialport.Binding.Port
import NodeSerialport.Binding.Client
import NodeSerialport.Binding.Steps
import NodeSerialport.Binding.Delivery
import NodeSerialport.Binding.Loss
import NodeSerialport.Binding.Lifecycle
import NodeSerialport.Binding.Requests
import NodeSerialport.Binding.Batches
import NodeSerialport.Binding.Writing
import NodeSerialport.Binding.Methods
import NodeSerialport.Binding.Vectored
import NodeSerialport.Binding.Drain
import NodeSerialport.Binding.Handing
import NodeSerialport.Binding.Tickets
import NodeSerialport.Binding.Replenish
import NodeSerialport.Native.Transfer
import NodeSerialport.Native.Reactor
import NodeSerialport.Native.Steps
import NodeSerialport.Native.Delivery
import NodeSerialport.Composition.Credit
import NodeSerialport.Composition.Drain
import NodeSerialport.Composition.Link
import NodeSerialport.Composition.Linked
import NodeSerialport.Composition.Replenish
import NodeSerialport.Composition.Order
import NodeSerialport.Composition.Queues
import NodeSerialport.Composition.Records
import NodeSerialport.Composition.Shutdown
import NodeSerialport.Composition.Taken
import NodeSerialport.Composition.Step
import NodeSerialport.Native.Callbacks
import NodeSerialport.Native.Calls
import NodeSerialport.Native.Accounts
import NodeSerialport.Native.Admission
import NodeSerialport.Native.Window
import NodeSerialport.Stream.Stream
import NodeSerialport.Stream.Steps
import NodeSerialport.Stream.Traffic
import NodeSerialport.Stream.Refinement
import NodeSerialport.Stream.Writes
import NodeSerialport.Stream.Destroy
import NodeSerialport.Stream.Input
import NodeSerialport.Parsers.CCTalk
import NodeSerialport.Parsers.InterByteTimeout
import NodeSerialport.Parsers.Ready
import NodeSerialport.Parsers.SlipEncoding
import NodeSerialport.Native.Fairness
import NodeSerialport.Native.Workers
import NodeSerialport.Native.Acquire
import NodeSerialport.Platform.Registry
import NodeSerialport.Platform.UsbIdentity
import NodeSerialport.Binding.Shadowed
import NodeSerialport.Lib.Promises
import NodeSerialport.Mock.Device
import NodeSerialport.Mock.Sessions
import NodeSerialport.Stream.Demand
import NodeSerialport.Stream.Connections
import NodeSerialport.Stream.Lifecycle
import NodeSerialport.Stream.Completion
import NodeSerialport.Parsers.ByteQueueRuns
import NodeSerialport.Parsers.MatcherRuns
import NodeSerialport.Stream.Attached
import NodeSerialport.Binding.Healthy
import NodeSerialport.Composition.Connection
import NodeSerialport.Composition.Load
import NodeSerialport.Binding.Flow
import NodeSerialport.Stream.Guided
import NodeSerialport.Composition.Conveyed
import NodeSerialport.Composition.Stack
import NodeSerialport.Composition.Steering
import NodeSerialport.Composition.Opening
import NodeSerialport.Composition.Layers
import NodeSerialport.Composition.Fulfilled
import NodeSerialport.Lib.Rank
import NodeSerialport.Native.Shutdown
import NodeSerialport.Composition.Closing
import NodeSerialport.Native.Environments
import NodeSerialport.Lib.Keys
import NodeSerialport.Stream.Reported
import NodeSerialport.Composition.Sequence
import NodeSerialport.Composition.Written
import NodeSerialport.Parsers.ByteLength
import NodeSerialport.Mock.Writes
import NodeSerialport.Platform.Location
import NodeSerialport.Settings.Unix
import NodeSerialport.Settings.Windows
