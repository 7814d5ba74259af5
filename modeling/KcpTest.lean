import KcpTest.Library.Serial
import KcpTest.Library.SlidingWindow
import KcpTest.Library.SerialWindow
import KcpTest.Library.Progress
import KcpTest.Library.Pace
import KcpTest.Library.Packing
import KcpTest.Library.Pattern
import KcpTest.Library.Decimal
import KcpTest.Library.GapTracking
import KcpTest.Library.History
import KcpTest.Kcp.Control
import KcpTest.Kcp.Wire
import KcpTest.Kcp.Transfer
import KcpTest.Kcp.Input
import KcpTest.Kcp.Flush
import KcpTest.Kcp.FlushStages
import KcpTest.Kcp.FlushEffect
import KcpTest.Kcp.FlushOutput
import KcpTest.Kcp.Message
import KcpTest.Kcp.InputEffect
import KcpTest.Kcp.RoundTrip
import KcpTest.Kcp.Parse
import KcpTest.Kcp.SendWindow
import KcpTest.Kcp.ReceiveWindow
import KcpTest.Kcp.Api
import KcpTest.Kcp.Settings
import KcpTest.Kcp.Flushed
import KcpTest.Kcp.ByteStream
import KcpTest.Kcp.Datagrams
import KcpTest.Kcp.Check
import KcpTest.Kcp.Answer
import KcpTest.Kcp.FlushRate
import KcpTest.Kcp.DeadLink
import KcpTest.Endpoint.Socket
import KcpTest.Endpoint.Output
import KcpTest.Endpoint.Sending
import KcpTest.Endpoint.Transmission
import KcpTest.Endpoint.Timeout
import KcpTest.Endpoint.Exchange
import KcpTest.Endpoint.Simulation
import KcpTest.Endpoint.LocalSteps
import KcpTest.Endpoint.Delivery
import KcpTest.Message.Text
import KcpTest.Message.Echo
import KcpTest.Message.Conversation
import KcpTest.Message.Robust
import KcpTest.Message.Original
import KcpTest.Message.EchoBuffer
import KcpTest.Endpoint.Loop
import KcpTest.Endpoint.Windows
import KcpTest.Endpoint.Recovery
import KcpTest.Endpoint.Rounds
import KcpTest.Endpoint.FlowControl
import KcpTest.Endpoint.CatchUp
import KcpTest.Endpoint.Program
import KcpTest.Endpoint.Stall
import KcpTest.Analyser.Statistics
import KcpTest.Analyser.Loss
import KcpTest.Analyser.Counts
import KcpTest.Analyser.Record
import KcpTest.Analyser.Timeouts
import KcpTest.Analyser.Overflow
import KcpTest.Library.Fifo
import KcpTest.Queue.MessageQueue
import KcpTest.Queue.Interleaving
import KcpTest.Queue.EndSignal
import KcpTest.Analyser.Pipeline
import KcpTest.Config.Yaml
import KcpTest.Config.BaseConfig
import KcpTest.Config.Loading
import KcpTest.Config.PriorState
import KcpTest.Config.Session
